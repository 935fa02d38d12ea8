import Mathlib.Data.List.Basic
import Mathlib.Tactic.Common

/-! What has happened since the last of certain events, in a history whose latest event
comes first. -/
namespace MoCodes.Lib.History

variable {α : Type} {good reset : α → Prop} {event : α} {earlier : List α}

/-- A good event has happened, and no resetting one after it. -/
def Since (good reset : α → Prop) : List α → Prop
  | [] => False
  | event :: earlier => good event ∨ (¬ reset event ∧ Since good reset earlier)

instance decidableSince (good reset : α → Prop) [DecidablePred good] [DecidablePred reset] :
    (history : List α) → Decidable (Since good reset history)
  | [] => isFalse id
  | event :: earlier =>
    have := decidableSince good reset earlier
    inferInstanceAs (Decidable (good event ∨ (¬ reset event ∧ Since good reset earlier)))

theorem since_good (happened : good event) : Since good reset (event :: earlier) := Or.inl happened

theorem since_reset (not_good : ¬ good event) (happened : reset event) :
    ¬ Since good reset (event :: earlier) := by
  rintro (now | ⟨quiet,_⟩)
  · exact not_good now
  · exact quiet happened

theorem since_quiet (not_good : ¬ good event) (quiet : ¬ reset event) :
    Since good reset (event :: earlier) ↔ Since good reset earlier := by
  simp [Since,not_good,quiet]

theorem since_iff {history : List α} :
    Since good reset history ↔ ∃ later event earlier, history = later ++ event :: earlier ∧
      good event ∧ ∀ other ∈ later, ¬ reset other := by
  induction history with
  | nil => simp [Since]
  | cons first rest ih =>
    constructor
    · rintro (happened | ⟨quiet,before⟩)
      · exact ⟨[],first,rest,rfl,happened,by simp⟩
      · obtain ⟨later,event,earlier,split,happened,none_since⟩ := ih.mp before
        refine ⟨first::later,event,earlier,by rw [split,List.cons_append],happened,?_⟩
        exact List.forall_mem_cons.mpr ⟨quiet,none_since⟩
    · rintro ⟨later,event,earlier,split,happened,none_since⟩
      cases later with
      | nil =>
        obtain ⟨rfl,rfl⟩ := List.cons.inj split
        exact since_good happened
      | cons latest later =>
        obtain ⟨rfl,remaining⟩ := List.cons.inj split
        obtain ⟨quiet,none_before⟩ := List.forall_mem_cons.mp none_since
        exact Or.inr ⟨quiet,ih.mpr ⟨later,event,earlier,remaining,happened,none_before⟩⟩

end MoCodes.Lib.History
