import Mathlib.Data.Nat.Init
import Mathlib.Tactic.Common

/-! Feistel networks over any halves and any round functions. Two networks are compared
round by round: they keep step as long as their round functions agree on the halves
that come up, and one single disagreement is never made up for. -/
namespace MoCodes.Lib.Feistel

variable {α : Type}

/-- How a round mixes one half into the other; mixing the same half in twice undoes it. -/
structure Mixer (α : Type) where
  mix : α → α → α
  Half : α → Prop
  closed : ∀ {a b}, Half a → Half b → Half (mix a b)
  comm : ∀ a b, mix a b = mix b a
  undo : ∀ {a b}, Half a → Half b → mix (mix a b) b = a

variable (M : Mixer α)

def round (f : α → α) (state : α × α) : α × α := (state.2,M.mix state.1 (f state.2))

def rounds (f : Nat → α → α) : Nat → α × α → α × α
  | 0,state => state
  | n+1,state => round M (f n) (rounds f n state)

def Block (state : α × α) : Prop := M.Half state.1 ∧ M.Half state.2

variable {M}

theorem mix_cancel {a b c : α} (first : M.Half a) (second : M.Half b) (third : M.Half c)
    (same : M.mix a b = M.mix a c) : b = c := by
  rw [M.comm a b,M.comm a c] at same
  rw [← M.undo second first,same,M.undo third first]

theorem round_block {f : α → α} (keeps : ∀ r, M.Half r → M.Half (f r)) {state : α × α}
    (block : Block M state) : Block M (round M f state) :=
  ⟨block.2,M.closed block.1 (keeps _ block.2)⟩

theorem rounds_block {f : Nat → α → α} (keeps : ∀ i r, M.Half r → M.Half (f i r)) {state : α × α}
    (block : Block M state) (n : Nat) : Block M (rounds M f n state) := by
  induction n with
  | zero => exact block
  | succ n ih => exact round_block (keeps n) ih

theorem round_injective {f : α → α} (keeps : ∀ r, M.Half r → M.Half (f r)) {first second : α × α}
    (one : Block M first) (two : Block M second) (same : round M f first = round M f second) :
    first = second := by
  obtain ⟨right,mixed⟩ := Prod.mk.inj same
  rw [right] at mixed
  have left := congrArg (fun half => M.mix half (f second.2)) mixed
  simp only [M.undo one.1 (keeps _ two.2),M.undo two.1 (keeps _ two.2)] at left
  exact Prod.ext left right

section Inverse

theorem rounds_head (f : Nat → α → α) (n : Nat) (state : α × α) :
    rounds M f (n+1) state = rounds M (fun i => f (i+1)) n (round M (f 0) state) := by
  induction n with
  | zero => rfl
  | succ n ih => rw [rounds,ih,rounds]

theorem round_swap {f : α → α} (keeps : ∀ r, M.Half r → M.Half (f r)) {state : α × α}
    (block : Block M state) : round M f (round M f state).swap = state.swap :=
  Prod.ext rfl (M.undo block.1 (keeps _ block.2))

/-- The rounds in reverse order, on exchanged halves, undo a network. -/
theorem rounds_reverse {f g : Nat → α → α} (keeps : ∀ i r, M.Half r → M.Half (f i r)) {n : Nat}
    (reverse : ∀ i < n, g i = f (n-1-i)) {state : α × α} (block : Block M state) :
    rounds M g n (rounds M f n state).swap = state.swap := by
  induction n generalizing g with
  | zero => rfl
  | succ n ih =>
    have first : g 0 = f n := reverse 0 (Nat.succ_pos n)
    rw [rounds_head,first,rounds,round_swap (keeps n) (rounds_block keeps block n)]
    apply ih
    intro i inside
    rw [reverse (i+1) (Nat.succ_lt_succ inside)]
    congr 1
    omega

end Inverse

section Compare

variable {f g : Nat → α → α} {state : α × α}

def AgreeAt (M : Mixer α) (f g : Nat → α → α) (state : α × α) (i : Nat) : Prop :=
  f i (rounds M f i state).2 = g i (rounds M f i state).2

theorem rounds_congr {n : Nat} (agree : ∀ i < n, AgreeAt M f g state i) :
    rounds M f n state = rounds M g n state := by
  induction n with
  | zero => rfl
  | succ n ih =>
    have before := ih fun i bound => agree i (Nat.lt_succ_of_lt bound)
    have here : f n (rounds M f n state).2 = g n (rounds M f n state).2 := agree n (Nat.lt_succ_self n)
    simp only [rounds,round]
    rw [here,before]

variable (keepsF : ∀ i r, M.Half r → M.Half (f i r)) (keepsG : ∀ i r, M.Half r → M.Half (g i r))
  (block : Block M state)
include keepsF keepsG block

/-- The networks are in the same state after every round exactly when the round
functions agree throughout. -/
theorem rounds_agree (n : Nat) : (∀ i ≤ n, rounds M f i state = rounds M g i state) ↔
    ∀ i < n, AgreeAt M f g state i := by
  constructor
  · intro same i bound
    have before := same i (by omega)
    have after := same (i+1) bound
    have halves := rounds_block keepsF block i
    simp only [rounds,round] at after
    rw [← before] at after
    exact mix_cancel halves.1 (keepsF i _ halves.2) (keepsG i _ halves.2) (Prod.mk.inj after).2
  · intro agree i bound
    exact rounds_congr fun k below => agree k (by omega)

theorem rounds_single {n k : Nat} (inside : k < n) (differ : ¬ AgreeAt M f g state k)
    (agree : ∀ i < n, i ≠ k → AgreeAt M f g state i) :
    rounds M f n state ≠ rounds M g n state := by
  induction n, inside using Nat.le_induction with
  | base =>
    intro same
    have before := rounds_congr fun i (below : i < k) => agree i (by omega) (by omega)
    have halves := rounds_block keepsF block k
    simp only [rounds,round] at same
    rw [← before] at same
    exact differ (mix_cancel halves.1 (keepsF k _ halves.2) (keepsG k _ halves.2) (Prod.mk.inj same).2)
  | succ m later ih =>
    intro same
    have here : f m (rounds M f m state).2 = g m (rounds M f m state).2 :=
      agree m (by omega) (by omega)
    have stepped : round M (g m) (rounds M f m state) = round M (g m) (rounds M g m state) := by
      simp only [rounds] at same
      rw [← same]
      simp only [round,here]
    exact ih (fun i bound => agree i (by omega))
      (round_injective (keepsG m) (rounds_block keepsF block m) (rounds_block keepsG block m) stepped)

end Compare

end MoCodes.Lib.Feistel
