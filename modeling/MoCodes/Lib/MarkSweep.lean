import Mathlib.Data.List.Nodup
import Mathlib.Tactic.Common

/-! Bringing a table up to date with a list of entries: the marks of all rows are taken off, the
rows of each entry are updated and marked, and what has no mark is swept away. -/
namespace MoCodes.Lib.MarkSweep

variable {ρ φ κ : Type}

/-- `touch` is what an entry makes of a row with its key. -/
structure Marking (ρ φ κ : Type) where
  keyRow : ρ → κ
  keyEntry : φ → κ
  marked : ρ → Bool
  clear : ρ → ρ
  touch : φ → ρ → ρ
  key_clear : ∀ row, keyRow (clear row) = keyRow row
  key_touch : ∀ entry row, keyRow (touch entry row) = keyRow row
  marked_clear : ∀ row, marked (clear row) = false
  marked_touch : ∀ entry row, marked (touch entry row) = true

namespace Marking

variable [DecidableEq κ] (marking : Marking ρ φ κ)

def update (entry : φ) (row : ρ) : ρ :=
  if marking.keyRow row = marking.keyEntry entry then marking.touch entry row else row

def updates (entries : List φ) (row : ρ) : ρ := entries.foldl (fun row entry => marking.update entry row) row

def refresh (entries : List φ) (table : List ρ) : List ρ :=
  ((table.map marking.clear).map (marking.updates entries)).filter marking.marked

/-- The rows of an entry. -/
def rows (key : κ) (table : List ρ) : List ρ := table.filter fun row => marking.keyRow row = key

variable {marking} {entry : φ} {entries : List φ} {row : ρ} {table : List ρ} {key : κ}

theorem key_update : marking.keyRow (marking.update entry row) = marking.keyRow row := by
  rw [update]
  split
  · exact marking.key_touch entry row
  · rfl

theorem key_updates : marking.keyRow (marking.updates entries row) = marking.keyRow row := by
  induction entries generalizing row with
  | nil => rfl
  | cons entry entries ih => exact ih.trans key_update

theorem updates_absent (absent : ∀ entry ∈ entries, marking.keyEntry entry ≠ marking.keyRow row) :
    marking.updates entries row = row := by
  induction entries generalizing row with
  | nil => rfl
  | cons entry entries ih =>
    have same : marking.update entry row = row := if_neg (absent entry List.mem_cons_self).symm
    rw [updates,List.foldl_cons,same]
    exact ih fun other among => absent other (List.mem_cons_of_mem _ among)

/-- Of entries with different keys, the one with the key of the row makes what becomes of it. -/
theorem updates_touch (distinct : (entries.map marking.keyEntry).Nodup) (among : entry ∈ entries)
    (same : marking.keyRow row = marking.keyEntry entry) :
    marking.updates entries row = marking.touch entry row := by
  induction entries with
  | nil => cases among
  | cons first entries ih =>
    obtain ⟨apart,distinct⟩ := List.nodup_cons.mp distinct
    rw [updates,List.foldl_cons]
    rcases List.mem_cons.mp among with rfl | among
    · rw [update,if_pos same]
      refine updates_absent fun other member equal => apart ?_
      rw [marking.key_touch,same] at equal
      exact equal ▸ List.mem_map_of_mem member
    · have other : marking.keyRow row ≠ marking.keyEntry first := by
        rw [same]
        exact fun equal => apart (equal ▸ List.mem_map_of_mem among)
      rw [update,if_neg other]
      exact ih distinct among

theorem marked_updates (member : ∃ entry ∈ entries, marking.keyEntry entry = marking.keyRow row) :
    marking.marked (marking.updates entries row) = true := by
  have stays : ∀ (entries : List φ) (row : ρ), marking.marked row = true →
      marking.marked (marking.updates entries row) = true := by
    intro entries
    induction entries with
    | nil => exact fun _ => id
    | cons entry entries ih =>
      intro row already
      refine ih _ ?_
      change marking.marked (marking.update entry row) = true
      rw [update]
      split
      · exact marking.marked_touch entry row
      · exact already
  obtain ⟨entry,among,same⟩ := member
  induction entries generalizing row with
  | nil => cases among
  | cons first entries ih =>
    rw [updates,List.foldl_cons]
    rcases List.mem_cons.mp among with rfl | among
    · refine stays entries _ ?_
      rw [update,if_pos same.symm]
      exact marking.marked_touch entry row
    · exact ih among (by rw [key_update]; exact same)

theorem marked_refresh : marking.marked (marking.updates entries (marking.clear row)) = true ↔
    ∃ entry ∈ entries, marking.keyEntry entry = marking.keyRow row := by
  constructor
  · intro marked
    by_contra absent
    push Not at absent
    have same : marking.updates entries (marking.clear row) = marking.clear row :=
      updates_absent fun entry among => by rw [marking.key_clear]; exact absent entry among
    rw [same,marking.marked_clear] at marked
    cases marked
  · rintro ⟨entry,among,same⟩
    exact marked_updates ⟨entry,among,by rw [marking.key_clear]; exact same⟩

theorem rows_map {change : ρ → ρ} (kept : ∀ row, marking.keyRow (change row) = marking.keyRow row) :
    marking.rows key (table.map change) = (marking.rows key table).map change := by
  rw [rows,rows,List.filter_map]
  congr 1
  refine List.filter_congr fun row _ => ?_
  simp [kept]

/-- The rows of an entry all stay, and there are no others. -/
theorem rows_refresh (among : entry ∈ entries) :
    marking.rows (marking.keyEntry entry) (marking.refresh entries table) =
      (marking.rows (marking.keyEntry entry) table).map fun row =>
        marking.updates entries (marking.clear row) := by
  have kept : ∀ row, marking.keyRow (marking.updates entries (marking.clear row)) = marking.keyRow row :=
    fun row => key_updates.trans (marking.key_clear row)
  rw [← rows_map kept,refresh,List.map_map,rows,List.filter_filter,rows]
  refine List.filter_congr fun row member => ?_
  obtain ⟨before,_,rfl⟩ := List.mem_map.mp member
  by_cases same : marking.keyRow before = marking.keyEntry entry
  · have marked := marked_refresh.mpr ⟨entry,among,same.symm⟩
    simp [marked]
  · simp [kept,same]

theorem mem_refresh (member : row ∈ marking.refresh entries table) :
    ∃ entry ∈ entries, marking.keyEntry entry = marking.keyRow row := by
  obtain ⟨there,marked⟩ := List.mem_filter.mp member
  rw [List.map_map] at there
  obtain ⟨before,_,rfl⟩ := List.mem_map.mp there
  obtain ⟨entry,among,same⟩ := marked_refresh.mp marked
  refine ⟨entry,among,same.trans ?_⟩
  exact (key_updates.trans (marking.key_clear before)).symm

end Marking

end MoCodes.Lib.MarkSweep
