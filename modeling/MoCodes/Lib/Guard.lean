import Mathlib.Logic.Function.Basic
import Mathlib.Tactic.Common

/-! A shared mark that one party at a time stands behind. Each party holds a mark or nothing. -/
namespace MoCodes.Lib.Guard

variable {ι α : Type} [DecidableEq ι] {free mark : α} {holds : ι → Option α} {party : ι}

/-- The mark is free and nobody holds one, or one party alone holds what the mark says. -/
def Marked (free mark : α) (holds : ι → Option α) : Prop :=
  (mark = free ∧ ∀ party, holds party = none) ∨
    (mark ≠ free ∧ ∃ party, holds party = some mark ∧ ∀ other ≠ party, holds other = none)

theorem Marked.holder (marked : Marked free mark holds) {held : α} (holder : holds party = some held) :
    mark = held ∧ ∀ other ≠ party, holds other = none := by
  rcases marked with ⟨_,none⟩ | ⟨_,owner,own,others⟩
  · rw [none] at holder
    cases holder
  · obtain rfl : party = owner := by
      by_contra apart
      rw [others party apart] at holder
      cases holder
    rw [own] at holder
    exact ⟨Option.some.inj holder,others⟩

theorem Marked.unique (marked : Marked free mark holds) {other : ι} {held others : α}
    (holder : holds party = some held) (holder' : holds other = some others) : other = party := by
  by_contra apart
  rw [(marked.holder holder).2 other apart] at holder'
  cases holder'

omit [DecidableEq ι] in
theorem Marked.nobody (marked : Marked free free holds) (party : ι) : holds party = none := by
  rcases marked with ⟨_,none⟩ | ⟨busy,_⟩
  · exact none party
  · exact absurd rfl busy

omit [DecidableEq ι] in
theorem Marked.somebody (marked : Marked free mark holds) (busy : mark ≠ free) :
    ∃ party, holds party = some mark := by
  rcases marked with ⟨same,_⟩ | ⟨_,party,holder,_⟩
  · exact absurd same busy
  · exact ⟨party,holder⟩

theorem Marked.take (marked : Marked free free holds) (busy : mark ≠ free) (party : ι) :
    Marked free mark (Function.update holds party (some mark)) :=
  Or.inr ⟨busy,party,Function.update_self ..,fun other apart =>
    (Function.update_of_ne apart _ _).trans (marked.nobody other)⟩

theorem Marked.release (marked : Marked free mark holds) {held : α} (holder : holds party = some held) :
    Marked free free (Function.update holds party none) := by
  refine Or.inl ⟨rfl,fun other => ?_⟩
  rcases eq_or_ne other party with rfl | apart
  · exact Function.update_self ..
  · exact (Function.update_of_ne apart _ _).trans ((marked.holder holder).2 other apart)

end MoCodes.Lib.Guard
