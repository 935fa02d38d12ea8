import Mathlib.Data.List.Basic
import Mathlib.Tactic.Common

/-! The descriptors of a process. Each number is free or has something open, and who opens
something is given the lowest number that is free. -/
namespace MoCodes.Lib.Descriptors

variable {α : Type}

/-- What the numbers 0, 1, .. have open; all that are not in the table are free. -/
abbrev Table (α : Type) := List (Option α)

def opened (table : Table α) (fd : Nat) : Option α := (table[fd]?).join

def lowest : Table α → Nat
  | [] => 0
  | none :: _ => 0
  | some _ :: table => lowest table+1

/-- The table with something new open at the lowest free number. -/
def give (new : α) : Table α → Table α
  | [] => [some new]
  | none :: table => some new :: table
  | some other :: table => some other :: give new table

def close (fd : Nat) (table : Table α) : Table α := table.set fd none

def change (f : α → α) (fd : Nat) (table : Table α) : Table α := table.modify fd (Option.map f)

variable {table : Table α} {new : α} {fd other : Nat}

theorem opened_give : opened (give new table) fd = if fd = lowest table then some new else opened table fd := by
  induction table generalizing fd with
  | nil =>
    cases fd with
    | zero => rfl
    | succ fd => simp [give,opened,lowest]
  | cons entry table ih =>
    cases entry with
    | none => cases fd <;> simp [give,opened,lowest]
    | some entry =>
      cases fd with
      | zero => simp [give,opened,lowest]
      | succ fd =>
        have later : opened (give new table) fd = if fd = lowest table then some new else opened table fd := ih
        simpa [give,opened,lowest] using later

theorem opened_close : opened (close fd table) other = if other = fd then none else opened table other := by
  rw [opened,close,List.getElem?_set]
  by_cases same : fd = other
  · rw [if_pos same,if_pos same.symm]
    split <;> rfl
  · rw [if_neg same,if_neg (Ne.symm same)]
    rfl

theorem opened_change {f : α → α} :
    opened (change f fd table) other = if other = fd then (opened table fd).map f else opened table other := by
  simp only [opened,change,List.getElem?_modify]
  split_ifs with same back back
  · subst same
    cases table[fd]? with
    | none => rfl
    | some entry => rfl
  · exact absurd same.symm back
  · exact absurd back.symm same
  · cases table[other]? <;> rfl

theorem lowest_le (free : opened table fd = none) : lowest table ≤ fd := by
  induction table generalizing fd with
  | nil => exact Nat.zero_le _
  | cons entry table ih =>
    cases entry with
    | none => exact Nat.zero_le _
    | some entry =>
      cases fd with
      | zero => cases free
      | succ fd => exact Nat.succ_le_succ (ih free)

theorem lowest_free : opened table (lowest table) = none := by
  induction table with
  | nil => rfl
  | cons entry table ih =>
    cases entry with
    | none => rfl
    | some entry => exact ih

/-- A number that is closed while all below it are taken is the next to be given away. -/
theorem lowest_close (taken : ∀ lower < fd, opened table lower ≠ none) : lowest (close fd table) = fd := by
  have free : opened (close fd table) fd = none := by simp [opened_close]
  refine Nat.le_antisymm (lowest_le free) (Nat.not_lt.mp fun below => taken _ below ?_)
  have unchanged : opened (close fd table) (lowest (close fd table)) = none := lowest_free
  rwa [opened_close,if_neg (Nat.ne_of_lt below)] at unchanged

end MoCodes.Lib.Descriptors
