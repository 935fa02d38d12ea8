import MoCodes.Lib.Sorting

/-! moSort.c. An array is what lies behind its pointer, index by index; the two directions of
a sort differ in one comparison. -/
namespace MoCodes.Sort
open MoCodes.Lib.Sorting

abbrev IntArray := Nat → Int

inductive MOSORT_DST_SEQUENCE where
  | MOSORT_DST_SEQUENCE_L2B
  | MOSORT_DST_SEQUENCE_B2L
  deriving DecidableEq

/-- The number of the enumerator; a parameter of this type can hold any int. -/
def MOSORT_DST_SEQUENCE.value : MOSORT_DST_SEQUENCE → Int
  | .MOSORT_DST_SEQUENCE_L2B => 0
  | .MOSORT_DST_SEQUENCE_B2L => 1

section Loops

variable (test : Int → Int → Prop) [DecidableRel test]

/-- `for(j = i + 1; j > k; j--) pArray[j] = pArray[j - 1];` from a given j on. -/
def shift (k : Nat) : Nat → IntArray → IntArray
  | 0,pArray => pArray
  | j+1,pArray => if j+1 > k then shift k j (Function.update pArray (j+1) (pArray j)) else pArray

def insertAt (i k : Nat) (pArray : IntArray) : IntArray :=
  Function.update (shift k (i+1) pArray) k (pArray (i+1))

/-- `k` goes on after an insertion. -/
def insertPass (i : Nat) (pArray : IntArray) : IntArray :=
  (List.range (i+1)).foldl (fun pArray k => if test (pArray (i+1)) (pArray k) then insertAt i k pArray
    else pArray) pArray

def directInsert (pArray : IntArray) (arrayLength : Nat) : IntArray :=
  (List.range (arrayLength-1)).foldl (fun pArray i => insertPass test i pArray) pArray

/-- The value and the position selected so far, with `j` items still to look at. -/
def selectFrom (pArray : IntArray) : Nat → Int × Nat → Int × Nat
  | 0,selected => selected
  | j+1,selected => selectFrom pArray j (if test (pArray j) selected.1 then (pArray j,j) else selected)

def selectPass (i : Nat) (pArray : IntArray) : IntArray :=
  let selected := selectFrom test pArray i (pArray i,i)
  if selected.2 ≠ i then swap pArray i selected.2 else pArray

def bubblePass (i : Nat) (pArray : IntArray) : IntArray :=
  (List.range i).foldl (fun pArray j => if test (pArray j) (pArray (j+1)) then swap pArray j (j+1)
    else pArray) pArray

end Loops

/-- An unsigned int stored to an int. -/
def toInt (value : UInt32) : Int := value.toBitVec.toInt

/-- `int i = arrayLength - 1`, where a negative one ends the loop at once. -/
def lastIndex (arrayLength : UInt32) : Nat := (toInt (arrayLength-1)).toNat

def directInsertSortL2B (pArray : IntArray) (arrayLength : UInt32) : IntArray :=
  directInsert (· ≤ ·) pArray arrayLength.toNat

def directInsertSortB2L (pArray : IntArray) (arrayLength : UInt32) : IntArray :=
  directInsert (· ≥ ·) pArray arrayLength.toNat

def selectSortL2B (pArray : IntArray) (arrayLength : UInt32) : IntArray :=
  countDown (selectPass (· > ·)) (lastIndex arrayLength) pArray

def selectSortB2L (pArray : IntArray) (arrayLength : UInt32) : IntArray :=
  countDown (selectPass (· < ·)) (lastIndex arrayLength) pArray

def bubbleSortL2B (pArray : IntArray) (arrayLength : UInt32) : IntArray :=
  countDown (bubblePass (· > ·)) (lastIndex arrayLength) pArray

def bubbleSortB2L (pArray : IntArray) (arrayLength : UInt32) : IntArray :=
  countDown (bubblePass (· < ·)) (lastIndex arrayLength) pArray

/-- The frame that the three functions share: what they return and leave in the array. -/
def sortWith (sortL2B sortB2L : IntArray → UInt32 → IntArray) (pArray : Option IntArray) (arrayLength : UInt32)
    (seq : Int) : Int × Option IntArray :=
  match pArray with
  | none => (-1,none)
  | some array =>
    if arrayLength ≤ 1 then (0,some array)
    else if seq = MOSORT_DST_SEQUENCE.MOSORT_DST_SEQUENCE_B2L.value then (0,some (sortB2L array arrayLength))
    else if seq = MOSORT_DST_SEQUENCE.MOSORT_DST_SEQUENCE_L2B.value then (0,some (sortL2B array arrayLength))
    else (-2,some array)

def moSort_directInsertSort := sortWith directInsertSortL2B directInsertSortB2L

def moSort_selectSort := sortWith selectSortL2B selectSortB2L

def moSort_bubbleSort := sortWith bubbleSortL2B bubbleSortB2L

end MoCodes.Sort
