import Mathlib.Data.List.Basic

/-! `std::vector` by the copy constructor and the assignment of its elements. Where these keep only
a part of a value, that part is all that goes through the vector. -/
namespace MoCodes.Lib.CopyVector

variable {α : Type}

/-- The copy constructor, and what the left side of an assignment becomes. -/
structure Members (α : Type) where
  copy : α → α
  assign : α → α → α

structure Vec (α : Type) where
  elements : List α
  capacity : Nat

namespace Vec

variable (members : Members α) (vec : Vec α)

def empty : Vec α := ⟨[],0⟩

/-- Without room for one more, all elements are copied into storage of twice the size. -/
def pushBack (value : α) : Vec α :=
  if vec.elements.length < vec.capacity then ⟨vec.elements ++ [members.copy value],vec.capacity⟩
  else
    ⟨vec.elements.map members.copy ++ [members.copy value],vec.elements.length+max vec.elements.length 1⟩

/-- What is behind the place is assigned one place to the front, and the last element goes. -/
def closeUp : List α → Nat → List α
  | [],_ => []
  | [_],0 => []
  | first::second::rest,0 => members.assign first second :: closeUp (second::rest) 0
  | first::rest,i+1 => first :: closeUp rest i

def erase (i : Nat) : Vec α := ⟨closeUp members vec.elements i,vec.capacity⟩

/-- `operator =`, which constructs what has no element to be assigned to. -/
def assign (other : Vec α) : Vec α :=
  if vec.capacity < other.elements.length then ⟨other.elements.map members.copy,other.elements.length⟩
  else
    ⟨List.zipWith members.assign vec.elements other.elements ++
      (other.elements.drop vec.elements.length).map members.copy,vec.capacity⟩

end Vec

/-- A copy is what `kept` leaves of the value, and loses nothing more. -/
structure Keeps (members : Members α) (kept : α → α) : Prop where
  copy : ∀ value, members.copy value = kept value
  again : ∀ value, kept (kept value) = kept value
  assign : ∀ old value, members.assign old (kept value) = kept value

section Keeps

variable {members : Members α} {kept : α → α} (keeps : Keeps members kept)

include keeps in
theorem map_copy (values : List α) : (values.map kept).map members.copy = values.map kept := by
  rw [List.map_map]
  exact List.map_congr_left fun value _ => (keeps.copy _).trans (keeps.again value)

include keeps in
theorem zipWith_assign (old values : List α) :
    List.zipWith members.assign old (values.map kept) = (values.take old.length).map kept := by
  induction old generalizing values with
  | nil => rfl
  | cons first old ih =>
    cases values with
    | nil => rfl
    | cons value values =>
      rw [List.map_cons,List.zipWith_cons_cons,ih,keeps.assign,List.length_cons,List.take_succ_cons,List.map_cons]

include keeps in
theorem closeUp_kept (values : List α) (i : Nat) :
    Vec.closeUp members (values.map kept) i = (values.eraseIdx i).map kept := by
  induction values generalizing i with
  | nil => rfl
  | cons first values ih =>
    cases i with
    | zero =>
      cases values with
      | nil => rfl
      | cons second values =>
        have rest := ih 0
        rw [List.map_cons] at rest
        rw [List.map_cons,List.map_cons,Vec.closeUp,rest,keeps.assign]
        rfl
    | succ i =>
      rw [List.map_cons,Vec.closeUp,ih]
      rfl

variable {vec : Vec α} {values : List α} (holds : vec.elements = values.map kept)

include keeps holds

theorem pushBack_kept (value : α) : (vec.pushBack members value).elements = (values ++ [value]).map kept := by
  rw [Vec.pushBack,holds,List.map_append,List.map_singleton,map_copy keeps,keeps.copy]
  split <;> rfl

theorem erase_kept (i : Nat) : (vec.erase members i).elements = (values.eraseIdx i).map kept := by
  rw [Vec.erase,holds]
  exact closeUp_kept keeps values i

theorem assign_kept (old : Vec α) : (old.assign members vec).elements = values.map kept := by
  rw [Vec.assign,holds]
  split
  · exact map_copy keeps values
  · change List.zipWith _ _ _ ++ List.map _ (List.drop _ _) = _
    rw [zipWith_assign keeps,← List.map_drop,map_copy keeps,← List.map_append,List.take_append_drop]

end Keeps

end MoCodes.Lib.CopyVector
