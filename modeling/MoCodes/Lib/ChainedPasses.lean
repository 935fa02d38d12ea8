import MoCodes.Lib.BlockModes

/-! Three chained passes over the same blocks, an encryption, a decryption and an encryption,
compared with the one chain of the three block functions in a row. The passes carry two chaining
values, and all depends on their difference. -/
namespace MoCodes.Lib.BlockModes

variable {β : Type} (E D F : β → β) (mix : β → β → β)

/-- `inner` is the block after the first pass. -/
def lastPass (first last inner : β) : β := F (mix (mix (D inner) first) last)

def cbcPasses : β → β → List β → List β
  | _,_,[] => []
  | first,last,block::blocks =>
    lastPass D F mix first last (E (mix block first))::cbcPasses (E (mix block first))
      (lastPass D F mix first last (E (mix block first))) blocks

theorem cbcPasses_eq (first last : β) (blocks : List β) :
    cbcEncrypt F mix last (cbcDecrypt D mix first (cbcEncrypt E mix first blocks)) =
      cbcPasses E D F mix first last blocks := by
  induction blocks generalizing first last with
  | nil => rfl
  | cons block blocks ih =>
    rw [cbcEncrypt,cbcDecrypt,cbcEncrypt,cbcPasses,ih]
    rfl

/-- For so many blocks, what is added in front of `E` and `D` is added behind them. -/
def GoesThrough (B : β → Prop) : Nat → β → Prop
  | 0,_ => True
  | n+1,diff => (∀ b, B b → D (E (mix b diff)) = mix (D (E b)) diff) ∧
    ∀ inner, B inner → GoesThrough B n (mix inner (F (mix (D inner) diff)))

variable {E D F mix} {B : β → Prop}

section Difference

variable (mixes : ∀ {a b}, B a → B b → B (mix a b)) (unmix : ∀ {a b}, B a → B b → mix (mix a b) b = a)
  (assoc : ∀ a b c, mix (mix a b) c = mix a (mix b c))
  (keeps : ∀ {b}, B b → B (E b)) (keepsD : ∀ {b}, B b → B (D b)) (keeps' : ∀ {b}, B b → B (F b))
include mixes unmix assoc keeps keepsD keeps'

theorem cbcPasses_of_through {n : Nat} {first last : β} (started : B first) (started' : B last)
    (through : GoesThrough E D F mix B n (mix first last)) {blocks : List β} (size : blocks.length = n)
    (all : ∀ b ∈ blocks, B b) :
    cbcPasses E D F mix first last blocks = cbcEncrypt (fun b => F (D (E b))) mix last blocks := by
  induction n generalizing first last blocks with
  | zero => rw [List.length_eq_zero_iff.mp size,cbcPasses,cbcEncrypt]
  | succ n ih =>
    obtain ⟨block,blocks,rfl⟩ := List.exists_cons_of_length_eq_add_one size
    obtain ⟨here,rest⟩ := List.forall_mem_cons.mp all
    obtain ⟨sums,later⟩ := through
    have mixed := mixes here started
    have inner := keeps mixed
    -- the block is mixed with the value of the third chain when the difference is added
    have added : mix (mix block first) (mix first last) = mix block last := by
      rw [← assoc,unmix here started]
    have outer : lastPass D F mix first last (E (mix block first)) = F (D (E (mix block last))) := by
      rw [lastPass,assoc,← sums _ mixed,added]
    have next := later _ inner
    rw [← assoc] at next
    have tail : cbcPasses E D F mix (E (mix block first)) (lastPass D F mix first last (E (mix block first)))
        blocks = cbcEncrypt _ mix (lastPass D F mix first last (E (mix block first))) blocks :=
      ih inner (keeps' (mixes (mixes (keepsD inner) started) started')) next (Nat.succ.inj size) rest
    rw [cbcPasses,cbcEncrypt,tail,outer]

theorem through_of_cbcPasses (onto : ∀ {a}, B a → ∃ b, B b ∧ E b = a)
    (injective : ∀ {a b}, B a → B b → F a = F b → a = b) {n : Nat} {first last : β} (started : B first)
    (started' : B last)
    (same : ∀ blocks : List β, blocks.length = n → (∀ b ∈ blocks, B b) →
      cbcPasses E D F mix first last blocks = cbcEncrypt (fun b => F (D (E b))) mix last blocks) :
    GoesThrough E D F mix B n (mix first last) := by
  induction n generalizing first last with
  | zero => trivial
  | succ n ih =>
    have step : ∀ b, B b → ∀ blocks : List β, blocks.length = n → (∀ b ∈ blocks, B b) →
        F (mix (D (E b)) (mix first last)) = F (D (E (mix b (mix first last)))) ∧
        cbcPasses E D F mix (E b) (F (mix (D (E b)) (mix first last))) blocks =
          cbcEncrypt (fun b => F (D (E b))) mix (F (mix (D (E b)) (mix first last))) blocks := by
      intro b here blocks size all
      have equal := same (mix b first::blocks) (congrArg (·+1) size)
        (List.forall_mem_cons.mpr ⟨mixes here started,all⟩)
      rw [cbcPasses,cbcEncrypt,lastPass,unmix here started,assoc,assoc] at equal
      obtain ⟨head,tail⟩ := List.cons.inj equal
      exact ⟨head,tail.trans (by rw [head])⟩
    have difference := mixes started started'
    refine ⟨fun b here => ?_,fun inner here => ?_⟩
    · have head := (step b here (List.replicate n first) (List.length_replicate ..)
        fun b among => List.eq_of_mem_replicate among ▸ started).1
      exact (injective (mixes (keepsD (keeps here)) difference) (keepsD (keeps (mixes here difference))) head).symm
    · obtain ⟨b,there,rfl⟩ := onto here
      exact ih here (keeps' (mixes (keepsD here) difference)) fun blocks size all => (step b there blocks size all).2

/-- The passes are the one chain exactly when the differences of the chaining values go through. -/
theorem cbcPasses_iff (onto : ∀ {a}, B a → ∃ b, B b ∧ E b = a)
    (injective : ∀ {a b}, B a → B b → F a = F b → a = b) {n : Nat} {first last : β} (started : B first)
    (started' : B last) :
    (∀ blocks : List β, blocks.length = n → (∀ b ∈ blocks, B b) →
      cbcPasses E D F mix first last blocks = cbcEncrypt (fun b => F (D (E b))) mix last blocks) ↔
    GoesThrough E D F mix B n (mix first last) :=
  ⟨through_of_cbcPasses mixes unmix assoc keeps keepsD keeps' onto injective started started',
    fun through _ size all =>
      cbcPasses_of_through mixes unmix assoc keeps keepsD keeps' started started' through size all⟩

end Difference

section Special

variable {zero : β} (none : ∀ {b}, B b → mix b zero = b)

theorem goesThrough_undone (mixes : ∀ {a b}, B a → B b → B (mix a b)) (keepsD : ∀ {b}, B b → B (D b))
    (keeps' : ∀ {b}, B b → B (F b)) (undo : ∀ {b}, B b → D (E b) = b) (n : Nat) {diff : β}
    (difference : B diff) : GoesThrough E D F mix B n diff := by
  induction n generalizing diff with
  | zero => trivial
  | succ n ih =>
    refine ⟨fun b here => ?_,fun inner here => ?_⟩
    · rw [undo (mixes here difference),undo here]
    · exact ih (mixes here (keeps' (mixes (keepsD here) difference)))

include none

theorem goesThrough_one (keeps : ∀ {b}, B b → B (E b)) (keepsD : ∀ {b}, B b → B (D b)) :
    GoesThrough E D F mix B 1 zero :=
  ⟨fun _ here => by rw [none here,none (keepsD (keeps here))],fun _ _ => trivial⟩

theorem goesThrough_redone (keeps : ∀ {b}, B b → B (E b)) (keepsD : ∀ {b}, B b → B (D b))
    (self : ∀ {b}, B b → mix b b = zero) (undo : ∀ {b}, B b → F (D b) = b) (n : Nat) :
    GoesThrough E D F mix B n zero := by
  induction n with
  | zero => trivial
  | succ n ih =>
    refine ⟨fun b here => by rw [none here,none (keepsD (keeps here))],fun inner here => ?_⟩
    rw [none (keepsD here),undo here,self here]
    exact ih

end Special

end MoCodes.Lib.BlockModes
