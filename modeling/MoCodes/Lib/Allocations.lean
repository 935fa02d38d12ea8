import Mathlib.Data.List.Count

/-! What a run does with the blocks it allocates: each use is by the owner and of a block that is
still there, and each block is given back once. -/
namespace MoCodes.Lib.Allocations

variable {ω β : Type}

inductive Access (ω β : Type) where
  | allocated (owner : ω) (block : β)
  | used (owner : ω) (block : β)
  | freed (block : β)
  deriving DecidableEq

open Access

def Access.block : Access ω β → β
  | allocated _ block => block
  | used _ block => block
  | freed block => block

/-- The uses of a trace are sound if what is before each of them has the allocation and not the end of
the block. -/
def Sound (trace : List (Access ω β)) : Prop :=
  ∀ front owner block rest, trace = front ++ used owner block :: rest →
    allocated owner block ∈ front ∧ freed block ∉ front

def FreedOnce [DecidableEq ω] [DecidableEq β] (trace : List (Access ω β)) : Prop :=
  ∀ owner block, allocated owner block ∈ trace → trace.count (freed block) = 1

def Apart (first second : List (Access ω β)) : Prop :=
  ∀ before ∈ first, ∀ behind ∈ second, before.block ≠ behind.block

theorem sound_nil : Sound ([] : List (Access ω β)) := by
  intro front owner block rest split
  exact absurd split.symm (List.append_ne_nil_of_right_ne_nil _ (List.cons_ne_nil _ _))

theorem Sound.front {first second : List (Access ω β)} (sound : Sound (first ++ second)) : Sound first := by
  intro front owner block rest split
  exact sound front owner block (rest ++ second) (by rw [split]; simp)

theorem sound_concat {trace : List (Access ω β)} {access : Access ω β} :
    Sound (trace ++ [access]) ↔
      Sound trace ∧ ∀ owner block, access = used owner block → allocated owner block ∈ trace ∧ freed block ∉ trace := by
  constructor
  · intro sound
    refine ⟨sound.front,fun owner block use => ?_⟩
    exact sound trace owner block [] (by rw [use])
  · intro ⟨sound,last⟩ front owner block rest split
    rcases List.eq_nil_or_concat rest with rfl | ⟨rest,final,rfl⟩
    · obtain ⟨rfl,use⟩ := List.append_inj' split rfl
      exact last owner block (List.cons.inj use).1
    · have inside : trace ++ [access] = (front ++ used owner block :: rest) ++ [final] := by rw [split]; simp
      exact sound front owner block rest (List.append_inj' inside rfl).1

/-- A use of an append is one of the first part or one of the second. -/
theorem sound_append {first second : List (Access ω β)} (apart : Apart first second) :
    Sound (first ++ second) ↔ Sound first ∧ Sound second := by
  constructor
  · intro sound
    refine ⟨fun front owner block rest split => ?_,fun front owner block rest split => ?_⟩
    · exact sound.front front owner block rest split
    · have whole := sound (first ++ front) owner block rest (by rw [split]; simp)
      have within : used owner block ∈ second := by rw [split]; simp
      refine ⟨(List.mem_append.mp whole.1).resolve_left fun early => apart _ early _ within rfl,fun ended => ?_⟩
      exact whole.2 (List.mem_append_right _ ended)
  · intro ⟨front,back⟩ before owner block rest split
    rcases List.append_eq_append_iff.mp split with ⟨middle,begins,ends⟩ | ⟨middle,begins,ends⟩
    · obtain ⟨made,kept⟩ := back middle owner block rest ends
      have within : used owner block ∈ second := by rw [ends]; simp
      rw [begins]
      refine ⟨List.mem_append_right _ made,fun ended => ?_⟩
      rcases List.mem_append.mp ended with early | late
      · exact apart _ early _ within rfl
      · exact kept late
    · cases middle with
      | nil =>
        obtain ⟨made,_⟩ := back [] owner block rest ends.symm
        exact absurd made List.not_mem_nil
      | cons access middle =>
        obtain ⟨rfl,_⟩ := List.cons.inj ends
        exact front before owner block middle begins

variable [DecidableEq ω] [DecidableEq β]

theorem freedOnce_append {first second : List (Access ω β)} (apart : Apart first second)
    (front : FreedOnce first) (back : FreedOnce second) : FreedOnce (first ++ second) := by
  intro owner block made
  rw [List.count_append]
  rcases List.mem_append.mp made with early | late
  · have none : second.count (freed block) = 0 := List.count_eq_zero_of_not_mem fun ended => apart _ early _ ended rfl
    rw [front owner block early,none]
  · have none : first.count (freed block) = 0 := List.count_eq_zero_of_not_mem fun ended => apart _ ended _ late rfl
    rw [back owner block late,none]

end MoCodes.Lib.Allocations
