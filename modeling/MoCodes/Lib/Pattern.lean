import Mathlib.Data.List.Basic

/-! Expressions of characters and anchors, which match where they are found in a subject. -/
namespace MoCodes.Lib.Pattern

variable {α : Type} [DecidableEq α]

inductive Atom (α : Type) where
  | start
  | stop
  | char (c : α)
  deriving DecidableEq

/-- A match at a place that is the start of the subject or is not. -/
def matchHere : List (Atom α) → Bool → List α → Bool
  | [],_,_ => true
  | .start :: atoms,atStart,rest => atStart && matchHere atoms atStart rest
  | .stop :: atoms,atStart,rest => rest.isEmpty && matchHere atoms atStart rest
  | .char _ :: _,_,[] => false
  | .char c :: atoms,_,first :: rest => c == first && matchHere atoms false rest

def matchFrom (atoms : List (Atom α)) : Bool → List α → Bool
  | atStart,[] => matchHere atoms atStart []
  | atStart,first :: rest => matchHere atoms atStart (first :: rest) || matchFrom atoms false rest

def found (atoms : List (Atom α)) (subject : List α) : Bool := matchFrom atoms true subject

theorem matchHere_word (word : List α) (atStart : Bool) (rest : List α) :
    matchHere (word.map .char ++ [.stop]) atStart rest = true ↔ rest = word := by
  induction word generalizing atStart rest with
  | nil => simp [matchHere]
  | cons c word ih =>
    cases rest with
    | nil => simp [matchHere]
    | cons first rest =>
      simp only [List.map_cons,List.cons_append,matchHere,Bool.and_eq_true,beq_iff_eq,ih,List.cons.injEq]
      exact and_congr_left fun _ => eq_comm

theorem matchFrom_start (atoms : List (Atom α)) (subject : List α) : matchFrom (.start :: atoms) false subject = false := by
  induction subject with
  | nil => rfl
  | cons first rest ih =>
    rw [matchFrom,ih]
    rfl

/-- Between the anchors a word is found in itself only. -/
theorem found_word (word subject : List α) :
    found (.start :: (word.map .char ++ [.stop])) subject = true ↔ subject = word := by
  rw [← matchHere_word word true subject]
  cases subject with
  | nil => rfl
  | cons first rest =>
    rw [found,matchFrom,matchFrom_start,Bool.or_false]
    rfl

end MoCodes.Lib.Pattern
