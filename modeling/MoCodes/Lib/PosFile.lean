import MoCodes.Lib.Blocks
import Mathlib.Data.List.TakeDrop

/-! Files that are written by position: a write behind the end leaves blanks in between. A text
that is written block by block from some block on. -/
namespace MoCodes.Lib.PosFile
open Blocks

variable {α : Type} (blank : α)

def writeAt (file : List α) (pos : Nat) (bytes : List α) : List α :=
  file.takeD pos blank ++ bytes ++ file.drop (pos+bytes.length)

/-- Blocks `first`, .. , `first+count-1` of the text, each at its place. -/
def fill (size : Nat) (text : List α) (first count : Nat) (file : List α) : List α :=
  (List.range' first count).foldl (fun file i => writeAt blank file (i*size) (blockAt size text i)) file

/-- The number of blocks, the last of which may be shorter. -/
def blockCount (size : Nat) (text : List α) : Nat := (text.length+size-1)/size

variable {blank} {file text bytes : List α} {pos size first : Nat}

theorem takeD_of_take {n : Nat} (same : file.take n = text.take n) (inside : n ≤ text.length) :
    file.takeD n blank = text.take n := by
  have length := congrArg List.length same
  rw [List.length_take,List.length_take,Nat.min_eq_left inside] at length
  rw [List.takeD_eq_take _ (by omega),same]

theorem takeD_append {n : Nat} (inside : n ≤ file.length) : (file ++ text).takeD n blank = file.take n := by
  rw [List.takeD_eq_take _ (by rw [List.length_append]; omega),List.take_append_of_le_length inside]

theorem take_takeD {n m : Nat} (below : n ≤ m) : (file.takeD m blank).take n = file.takeD n blank := by
  induction n generalizing m file with
  | zero => simp
  | succ n ih =>
    cases m with
    | zero => omega
    | succ m => rw [List.takeD_succ,List.takeD_succ,List.take_succ_cons,ih (Nat.le_of_succ_le_succ below)]

theorem writeAt_length : (writeAt blank file pos bytes).length = max file.length (pos+bytes.length) := by
  rw [writeAt,List.length_append,List.length_append,List.takeD_length,List.length_drop]
  omega

theorem writeAt_front {n : Nat} (below : n ≤ pos) :
    (writeAt blank file pos bytes).takeD n blank = file.takeD n blank := by
  rw [writeAt,List.append_assoc,takeD_append (by rw [List.takeD_length]; exact below),take_takeD below]

/-- What is written where something of its length was takes its place. -/
theorem writeAt_part {front part behind : List α} (before : front.length = pos) (same : bytes.length = part.length) :
    writeAt blank (front ++ (part ++ behind)) pos bytes = front ++ bytes ++ behind := by
  subst before
  rw [writeAt,takeD_append (Nat.le_refl _),List.take_length,same,← List.drop_drop,List.drop_left,List.drop_left]

theorem blockAt_length_le (i : Nat) : (blockAt size text i).length ≤ size := by
  rw [blockAt,List.length_take]
  exact Nat.min_le_left _ _

theorem takeD_inside {n : Nat} (same : file.takeD n blank = text.take n) : n ≤ text.length := by
  have length := congrArg List.length same
  rw [List.takeD_length,List.length_take] at length
  omega

section Blocks

variable {i : Nat} (bound : file.length ≤ text.length)
  (before : file.takeD (i*size) blank = text.take (i*size))
include bound before

theorem writeAt_bound : (writeAt blank file (i*size) (blockAt size text i)).length ≤ text.length := by
  have inside := takeD_inside before
  rw [writeAt_length,blockAt,List.length_take,List.length_drop]
  omega

theorem writeAt_block :
    (writeAt blank file (i*size) (blockAt size text i)).take ((i+1)*size) = text.take ((i+1)*size) := by
  have inside := takeD_inside before
  have joined : text.take (i*size) ++ blockAt size text i = text.take ((i+1)*size) := by
    rw [blockAt,Nat.succ_mul,List.take_add]
  rw [writeAt,before,joined]
  by_cases full : (i+1)*size ≤ text.length
  · exact List.take_left' (by rw [List.length_take,Nat.min_eq_left full])
  · have rest : (blockAt size text i).length = text.length-i*size := by
      rw [blockAt,List.length_take,List.length_drop]
      rw [Nat.succ_mul] at full
      omega
    rw [rest,List.drop_of_length_le (by omega),List.append_nil,List.take_take,Nat.min_self]

end Blocks

theorem lt_blockCount (positive : 0 < size) {i : Nat} : i < blockCount size text ↔ i*size < text.length := by
  rw [blockCount,Nat.lt_iff_add_one_le,Nat.le_div_iff_mul_le positive,Nat.succ_mul]
  omega

theorem fill_succ (count : Nat) : fill blank size text first (count+1) file =
    fill blank size text (first+1) count (writeAt blank file (first*size) (blockAt size text first)) := by
  rw [fill,List.range'_succ,List.foldl_cons,fill]

theorem fill_length (count : Nat) : file.length ≤ (fill blank size text first count file).length := by
  induction count generalizing first file with
  | zero => exact Nat.le_refl _
  | succ count ih =>
    rw [fill_succ]
    apply Nat.le_trans _ ih
    rw [writeAt_length]
    exact Nat.le_max_left _ _

theorem fill_front {n : Nat} (below : n ≤ first*size) (count : Nat) :
    (fill blank size text first count file).takeD n blank = file.takeD n blank := by
  induction count generalizing first file with
  | zero => rfl
  | succ count ih =>
    have later : n ≤ (first+1)*size := Nat.le_trans below (Nat.mul_le_mul_right _ (Nat.le_succ _))
    rw [fill_succ,ih later,writeAt_front below]

theorem fill_all (positive : 0 < size) {count : Nat} (all : first+count = blockCount size text)
    (some_block : 0 < count) (bound : file.length ≤ text.length)
    (before : file.takeD (first*size) blank = text.take (first*size)) :
    fill blank size text first count file = text := by
  induction count generalizing first file with
  | zero => omega
  | succ count ih =>
    have bound' := writeAt_bound bound before
    have next := writeAt_block bound before
    rw [fill_succ]
    by_cases more : 0 < count
    · have inside : (first+1)*size < text.length := (lt_blockCount positive).mp (by omega)
      exact ih (by omega) more bound' (takeD_of_take next (Nat.le_of_lt inside))
    · have past : text.length ≤ (first+1)*size := by
        have last : ¬ first+1 < blockCount size text := by omega
        rw [lt_blockCount positive] at last
        omega
      rw [show count = 0 by omega]
      rw [List.take_of_length_le (Nat.le_trans bound' past),List.take_of_length_le past] at next
      exact next

/-- Writing the blocks from some block on up to the end of the text gives the text if and only
if the file, filled up with blanks, has the blocks in front and nothing behind the end. -/
theorem fill_iff (positive : 0 < size) {count : Nat} (all : first+count = blockCount size text)
    (some_block : 0 < count) :
    fill blank size text first count file = text ↔
      file.length ≤ text.length ∧ file.takeD (first*size) blank = text.take (first*size) := by
  constructor
  · intro same
    have inside : first*size < text.length := (lt_blockCount positive).mp (by omega)
    have length : file.length ≤ (fill blank size text first count file).length := fill_length count
    have front : (fill blank size text first count file).takeD (first*size) blank = file.takeD (first*size) blank :=
      fill_front (Nat.le_refl _) count
    rw [same] at length front
    refine ⟨length,?_⟩
    rw [← front,List.takeD_eq_take _ (Nat.le_of_lt inside)]
  · rintro ⟨bound,before⟩
    exact fill_all positive all some_block bound before

end MoCodes.Lib.PosFile
