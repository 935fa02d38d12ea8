import Mathlib.Data.List.DropRight
import Mathlib.Tactic.Common

/-! Cutting a list where a property ends, from the left and from the right. -/
namespace MoCodes.Lib.Spans

variable {α : Type} {p : α → Bool} {front back : List α}

section Left

variable (inside : ∀ item ∈ front, p item = true) (stop : ∀ item ∈ back.head?, p item = false)
include inside stop

theorem takeWhile_span : (front++back).takeWhile p = front := by
  rw [List.takeWhile_append_of_pos inside]
  cases back with
  | nil => simp
  | cons item back => simp [stop item rfl]

theorem dropWhile_span : (front++back).dropWhile p = back := by
  rw [List.dropWhile_append_of_pos inside]
  cases back with
  | nil => rfl
  | cons item back => simp [stop item rfl]

end Left

section Right

variable (inside : ∀ item ∈ back, p item = true) (stop : ∀ item ∈ front.getLast?, p item = false)
include inside stop

theorem rtakeWhile_span : (front++back).rtakeWhile p = back := by
  rw [List.rtakeWhile,List.reverse_append,takeWhile_span (by simpa using inside)
    (by simpa using stop),List.reverse_reverse]

theorem rdropWhile_span : (front++back).rdropWhile p = front := by
  rw [List.rdropWhile,List.reverse_append,dropWhile_span (by simpa using inside)
    (by simpa using stop),List.reverse_reverse]

end Right

section Separator

variable [BEq α] [LawfulBEq α] {sep : α}

theorem takeWhile_sep (absent : sep ∉ front) : (front++sep::back).takeWhile (· != sep) = front :=
  takeWhile_span (fun _ member => bne_iff_ne.mpr fun same => absent (same ▸ member)) (by simp)

theorem dropWhile_sep (absent : sep ∉ front) : (front++sep::back).dropWhile (· != sep) = sep::back :=
  dropWhile_span (fun _ member => bne_iff_ne.mpr fun same => absent (same ▸ member)) (by simp)

theorem takeWhile_absent (absent : sep ∉ front) : front.takeWhile (· != sep) = front :=
  List.takeWhile_eq_self_iff.mpr fun _ member => bne_iff_ne.mpr fun same => absent (same ▸ member)

theorem rtakeWhile_sep (absent : sep ∉ back) : (front++[sep]++back).rtakeWhile (· != sep) = back :=
  rtakeWhile_span (fun _ member => bne_iff_ne.mpr fun same => absent (same ▸ member)) (by simp)

theorem rdropWhile_sep (absent : sep ∉ back) : (front++[sep]++back).rdropWhile (· != sep) = front++[sep] :=
  rdropWhile_span (fun _ member => bne_iff_ne.mpr fun same => absent (same ▸ member)) (by simp)

end Separator

end MoCodes.Lib.Spans
