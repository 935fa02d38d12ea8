import Mathlib.Data.Nat.Bitwise
import Mathlib.Tactic.Common
import Mathlib.Tactic.IntervalCases

/-! Byte strings read as bit strings, the highest bit of every byte first. Code that
tests and sets single bits with masks is compared here with the list of its bits. -/
namespace MoCodes.Lib.Bits

def bitMask (j : Nat) : UInt8 := 1 <<< UInt8.ofNat (8-j-1)

def bitAt (bytes : List UInt8) (pos : Nat) : Bool :=
  (bytes.getD (pos/8) 0 &&& bitMask (pos%8)) != 0

def setBit (bytes : List UInt8) (pos : Nat) : List UInt8 :=
  bytes.modify (pos/8) (· ||| bitMask (pos%8))

/-- `for i in steps`: where the test passes, set the bit at `target i`. -/
def setBits (steps : List Nat) (test : Nat → Bool) (target : Nat → Nat) (bytes : List UInt8) :
    List UInt8 :=
  steps.foldl (fun kept i => if test i then setBit kept (target i) else kept) bytes

def bitsOf (bytes : List UInt8) : List Bool := (List.range (8*bytes.length)).map (bitAt bytes)

/-- The bits at the table's positions, which count from 1. -/
def select (table : List Nat) (bits : List Bool) : List Bool :=
  table.map fun pos => bits.getD (pos-1) false

theorem bitMask_toNat {j : Nat} (bound : j < 8) : (bitMask j).toNat = 2^(7-j) := by
  interval_cases j <;> rfl

theorem byte_testBit (byte : UInt8) {j : Nat} (bound : j < 8) :
    ((byte &&& bitMask j) != 0) = byte.toNat.testBit (7-j) := by
  have value : (byte &&& bitMask j).toNat = (byte.toNat.testBit (7-j)).toNat * 2^(7-j) := by
    rw [UInt8.toNat_and,bitMask_toNat bound,Nat.and_two_pow]
  cases bit : byte.toNat.testBit (7-j) with
  | false =>
    have zero : byte &&& bitMask j = 0 := by
      apply UInt8.toNat_inj.mp
      simpa [bit] using value
    simp [zero]
  | true =>
    have nonzero : byte &&& bitMask j ≠ 0 := by
      intro zero
      rw [zero,bit] at value
      have pos : 0 < 2^(7-j) := Nat.two_pow_pos _
      simp only [UInt8.toNat_zero,Bool.toNat_true,one_mul] at value
      omega
    simpa using nonzero

theorem bitAt_testBit (bytes : List UInt8) (pos : Nat) :
    bitAt bytes pos = (bytes.getD (pos/8) 0).toNat.testBit (7-pos%8) :=
  byte_testBit _ (Nat.mod_lt _ (by decide))

theorem mask_testBit {j k : Nat} (first : j < 8) (second : k < 8) :
    (bitMask j).toNat.testBit (7-k) = decide (j = k) := by
  rw [bitMask_toNat first,Nat.testBit_two_pow]
  apply decide_eq_decide.mpr
  omega

@[simp] theorem bitsOf_length (bytes : List UInt8) : (bitsOf bytes).length = 8*bytes.length := by
  simp [bitsOf]

@[simp] theorem setBit_length (bytes : List UInt8) (pos : Nat) :
    (setBit bytes pos).length = bytes.length := by
  simp [setBit]

@[simp] theorem select_length (table : List Nat) (bits : List Bool) :
    (select table bits).length = table.length := by
  simp [select]

theorem bitAt_outside (bytes : List UInt8) {pos : Nat} (outside : 8*bytes.length ≤ pos) :
    bitAt bytes pos = false := by
  have past : bytes.length ≤ pos/8 := by omega
  rw [bitAt_testBit,List.getD_eq_default _ _ past]
  exact Nat.zero_testBit _

theorem bitsOf_getD (bytes : List UInt8) (pos : Nat) :
    (bitsOf bytes).getD pos false = bitAt bytes pos := by
  by_cases inside : pos < 8*bytes.length
  · simp [bitsOf,inside]
  · rw [bitAt_outside bytes (by omega),List.getD_eq_default _ _ (by simp; omega)]

theorem bitsOf_eq {bytes : List UInt8} {bits : List Bool} (length : bits.length = 8*bytes.length)
    (same : ∀ pos < 8*bytes.length, bitAt bytes pos = bits.getD pos false) : bitsOf bytes = bits := by
  apply List.ext_getElem
  · simp [length]
  · intro pos left right
    rw [bitsOf_length] at left
    have agree := same pos left
    rw [List.getD_eq_getElem _ _ right] at agree
    simpa [bitsOf] using agree

theorem bitAt_setBit {bytes : List UInt8} {pos : Nat} (inside : pos < 8*bytes.length) (other : Nat) :
    bitAt (setBit bytes pos) other = (decide (pos = other) || bitAt bytes other) := by
  have low : pos%8 < 8 := Nat.mod_lt _ (by decide)
  have lowOther : other%8 < 8 := Nat.mod_lt _ (by decide)
  rw [bitAt_testBit,bitAt_testBit,setBit,List.getD_eq_getElem?_getD,List.getElem?_modify,
    List.getD_eq_getElem?_getD]
  by_cases same : pos/8 = other/8
  · have bound : other/8 < bytes.length := by omega
    rw [List.getElem?_eq_getElem bound]
    simp only [same,if_true,Option.map_eq_map,Option.map_some,Option.getD_some,UInt8.toNat_or,
      Nat.testBit_or]
    rw [mask_testBit low lowOther,Bool.or_comm]
    congr 1
    apply decide_eq_decide.mpr
    omega
  · have different : pos ≠ other := by rintro rfl; exact same rfl
    simp [same,different]

theorem setBits_length (steps : List Nat) (test : Nat → Bool) (target : Nat → Nat) (bytes : List UInt8) :
    (setBits steps test target bytes).length = bytes.length := by
  unfold setBits
  induction steps generalizing bytes with
  | nil => rfl
  | cons i steps ih =>
    rw [List.foldl_cons,ih]
    split <;> simp

theorem bitAt_setBits (steps : List Nat) (test : Nat → Bool) (target : Nat → Nat)
    (bytes : List UInt8) (inside : ∀ i ∈ steps, target i < 8*bytes.length) (pos : Nat) :
    bitAt (setBits steps test target bytes) pos =
      (bitAt bytes pos || steps.any fun i => test i && decide (target i = pos)) := by
  unfold setBits
  induction steps generalizing bytes with
  | nil => simp
  | cons i steps ih =>
    have here : target i < 8*bytes.length := inside i List.mem_cons_self
    simp only [List.foldl_cons,List.any_cons]
    cases passed : test i with
    | false =>
      rw [if_neg (by simp),ih bytes fun k member => inside k (List.mem_cons_of_mem _ member)]
      simp
    | true =>
      rw [if_pos rfl,ih (setBit bytes (target i)),bitAt_setBit here]
      · rw [Bool.true_and,Bool.or_comm (decide (target i = pos)),Bool.or_assoc]
      · intro k member
        rw [setBit_length]
        exact inside k (List.mem_cons_of_mem _ member)

theorem bitAt_segment {n : Nat} (first : Nat) (test : Nat → Bool) {target : Nat → Nat}
    (shift : ∀ i < n, target i = first+i) (bytes : List UInt8) (inside : first+n ≤ 8*bytes.length)
    (pos : Nat) : bitAt (setBits (List.range n) test target bytes) pos =
      (bitAt bytes pos || (decide (first ≤ pos ∧ pos < first+n) && test (pos-first))) := by
  rw [bitAt_setBits]
  · congr 1
    rw [Bool.eq_iff_iff,List.any_eq_true]
    simp only [List.mem_range,Bool.and_eq_true,decide_eq_true_eq]
    constructor
    · intro ⟨i,bound,passed,here⟩
      rw [shift i bound] at here
      subst here
      exact ⟨⟨by omega,by omega⟩,by rwa [Nat.add_sub_cancel_left]⟩
    · intro ⟨⟨low,high⟩,passed⟩
      exact ⟨pos-first,by omega,passed,by rw [shift _ (by omega)]; omega⟩
  · intro i member
    have bound := List.mem_range.mp member
    rw [shift i bound]
    omega

theorem bitAt_zero (n pos : Nat) : bitAt (List.replicate n 0) pos = false := by
  rw [bitAt_testBit,List.getD_eq_getElem?_getD,List.getElem?_replicate]
  split <;> simp

theorem bitsOf_xor {first second : List UInt8} (length : first.length = second.length) :
    bitsOf (List.zipWith (· ^^^ ·) first second) = List.zipWith xor (bitsOf first) (bitsOf second) := by
  apply bitsOf_eq
  · simp [length]
  · intro pos inside
    have bound : pos/8 < second.length := by simp [length] at inside; omega
    have inside : pos < 8*second.length := by simpa [length] using inside
    rw [bitAt_testBit]
    simp only [List.getD_eq_getElem?_getD,List.getElem?_zipWith,List.getElem?_eq_getElem bound,
      List.getElem?_eq_getElem (length ▸ bound)]
    simp [bitsOf,length,inside,bitAt_testBit,bound]

theorem bitsOf_append (first second : List UInt8) :
    bitsOf (first ++ second) = bitsOf first ++ bitsOf second := by
  apply bitsOf_eq
  · simp; omega
  · intro pos inside
    rw [List.getD_eq_getElem?_getD,bitAt_testBit,List.getD_eq_getElem?_getD]
    by_cases front : pos < 8*first.length
    · rw [List.getElem?_append_left (by omega),List.getElem?_append_left (by simpa using front)]
      rw [← List.getD_eq_getElem?_getD,← List.getD_eq_getElem?_getD,bitsOf_getD,bitAt_testBit]
    · rw [List.getElem?_append_right (by omega),List.getElem?_append_right (by simpa using front)]
      rw [← List.getD_eq_getElem?_getD,← List.getD_eq_getElem?_getD,bitsOf_getD,bitAt_testBit,bitsOf_length]
      have byte : pos/8-first.length = (pos-8*first.length)/8 := by omega
      have bit : pos%8 = (pos-8*first.length)%8 := by omega
      rw [byte,bit]

theorem bitsOf_take {bytes : List UInt8} {n : Nat} (inside : n ≤ bytes.length) :
    bitsOf (bytes.take n) = (bitsOf bytes).take (8*n) := by
  have parts := bitsOf_append (bytes.take n) (bytes.drop n)
  rw [List.take_append_drop] at parts
  rw [parts,List.take_left' (by simp [inside])]

theorem bitsOf_drop {bytes : List UInt8} {n : Nat} (inside : n ≤ bytes.length) :
    bitsOf (bytes.drop n) = (bitsOf bytes).drop (8*n) := by
  have parts := bitsOf_append (bytes.take n) (bytes.drop n)
  rw [List.take_append_drop] at parts
  rw [parts,List.drop_left' (by simp [inside])]

theorem select_injective {table : List Nat} {n : Nat} (onto : ∀ pos < n, pos+1 ∈ table)
    {first second : List Bool} (left : first.length = n) (right : second.length = n)
    (same : select table first = select table second) : first = second := by
  apply List.ext_getElem (left.trans right.symm)
  intro pos inFirst inSecond
  have member := onto pos (left ▸ inFirst)
  have agree := List.map_inj_left.mp same (pos+1) member
  simpa [inFirst,inSecond] using agree

theorem select_select {outer inner : List Nat} {n : Nat} (size : outer.length = n)
    (back : ∀ pos < n, 0 < outer.getD pos 0 ∧ outer.getD pos 0 ≤ inner.length ∧
      inner.getD (outer.getD pos 0-1) 0 = pos+1)
    {bits : List Bool} (length : bits.length = n) : select outer (select inner bits) = bits := by
  apply List.ext_getElem
  · rw [select_length,size,length]
  · intro pos first second
    have inside : pos < n := by rwa [length] at second
    obtain ⟨positive,reached,same⟩ := back pos inside
    have table : outer.getD pos 0 = outer[pos] := List.getD_eq_getElem outer 0 _
    rw [table] at positive reached same
    rw [List.getD_eq_getElem inner 0 (by omega)] at same
    have chosen : outer[pos]-1 < (select inner bits).length := by
      rw [select_length]
      omega
    simp only [select,List.getElem_map] at chosen ⊢
    rw [List.getD_eq_getElem _ _ chosen,List.getElem_map,same,Nat.add_sub_cancel,
      List.getD_eq_getElem _ _ second]

theorem bitsOf_injective {first second : List UInt8} (same : bitsOf first = bitsOf second) :
    first = second := by
  have lengths := congrArg List.length same
  rw [bitsOf_length,bitsOf_length] at lengths
  apply List.ext_getElem
  · omega
  · intro i inside other
    apply UInt8.toNat_inj.mp
    apply Nat.eq_of_testBit_eq
    intro j
    rcases Nat.lt_or_ge j 8 with low | high
    · have bit := congrArg (fun bits => bits.getD (8*i+(7-j)) false) same
      have byte : (8*i+(7-j))/8 = i := by omega
      have place : 7-(8*i+(7-j))%8 = j := by omega
      simp only [bitsOf_getD,bitAt_testBit,byte,place] at bit
      rwa [List.getD_eq_getElem _ _ inside,List.getD_eq_getElem _ _ other] at bit
    · have large : 2^8 ≤ 2^j := Nat.pow_le_pow_right (by decide) high
      rw [Nat.testBit_lt_two_pow (Nat.lt_of_lt_of_le first[i].toNat_lt large),
        Nat.testBit_lt_two_pow (Nat.lt_of_lt_of_le second[i].toNat_lt large)]

end MoCodes.Lib.Bits
