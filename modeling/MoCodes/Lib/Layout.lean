import Mathlib.Tactic.Common
import Mathlib.Algebra.Group.Nat.Defs
import Mathlib.Algebra.Group.Int.Defs

/-! Structures as they lie in memory: little-endian numbers and texts of a fixed size, one
behind the other, and read back by their offset. -/
namespace MoCodes.Lib.Layout

def writeLE : Nat → Nat → List UInt8
  | 0,_ => []
  | count+1,n => UInt8.ofNat n :: writeLE count (n/256)

def readLE : List UInt8 → Nat
  | [] => 0
  | byte :: bytes => byte.toNat+256*readLE bytes

/-- A signed number of two's complement. -/
def writeInt (count : Nat) (value : Int) : List UInt8 := writeLE count (value % 256^count).toNat

def readInt (bytes : List UInt8) : Int := (readLE bytes : Int).bmod (256^bytes.length)

/-- The text in a buffer that is 0 behind it. -/
def padded (size : Nat) (text : List UInt8) : List UInt8 := (text ++ List.replicate size 0).take size

def slice (bytes : List UInt8) (offset size : Nat) : List UInt8 := (bytes.drop offset).take size

/-- `strcmp` of the text at the front of a buffer: the end of the text is compared as well. -/
def isText (bytes text : List UInt8) : Bool := bytes.take (text.length+1) == text ++ [0]

section Numbers

@[simp] theorem writeLE_length (count n : Nat) : (writeLE count n).length = count := by
  induction count generalizing n with
  | zero => rfl
  | succ count ih => rw [writeLE,List.length_cons,ih]

theorem readLE_writeLE (count n : Nat) : readLE (writeLE count n) = n % 256^count := by
  induction count generalizing n with
  | zero => rw [Nat.pow_zero,Nat.mod_one,writeLE,readLE]
  | succ count ih =>
    have low : (UInt8.ofNat n).toNat = n % 256 := UInt8.toNat_ofNat
    rw [writeLE,readLE,ih,low,Nat.pow_succ,Nat.mul_comm,Nat.mul_comm (256^count),Nat.mod_mul,
      Nat.mul_comm]

@[simp] theorem writeInt_length (count : Nat) (value : Int) : (writeInt count value).length = count :=
  writeLE_length _ _

theorem readInt_writeInt (count : Nat) (value : Int) :
    readInt (writeInt count value) = value.bmod (256^count) := by
  have positive : (0 : Int) < 256^count := Int.pow_pos (by decide)
  have size : (256 : Int)^count = (256^count : Nat) := (Int.natCast_pow 256 count).symm
  have residue : ((value % 256^count).toNat : Int) = value % 256^count :=
    Int.toNat_of_nonneg (Int.emod_nonneg _ (Int.ne_of_gt positive))
  rw [readInt,writeInt_length,writeInt,readLE_writeLE,Int.natCast_emod,residue,size,Int.emod_emod,
    Int.emod_bmod]

end Numbers

section Parts

@[simp] theorem padded_length (size : Nat) (text : List UInt8) : (padded size text).length = size := by
  simp [padded]

theorem isText_padded {size : Nat} {text : List UInt8} (room : text.length < size) (behind : List UInt8) :
    isText (padded size text ++ behind) text = true := by
  have front : (padded size text).take (text.length+1) = text ++ [0] := by
    have zeros : (List.replicate size (0 : UInt8)).take 1 = [0] := by
      cases size with
      | zero => omega
      | succ size => rfl
    rw [padded,List.take_take,Nat.min_eq_left (show text.length+1 ≤ size from room),List.take_length_add_append,zeros]
  rw [isText,List.take_append_of_le_length (by rw [padded_length]; exact room),front]
  exact beq_self_eq_true _

variable {front part behind : List UInt8}

theorem slice_part {offset size : Nat} (before : front.length = offset) (here : part.length = size) :
    slice (front ++ (part ++ behind)) offset size = part := by
  rw [slice,List.drop_left' before,List.take_left' here]

end Parts

end MoCodes.Lib.Layout
