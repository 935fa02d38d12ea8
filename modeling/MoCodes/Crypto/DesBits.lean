import MoCodes.Crypto.Fips46
import MoCodes.Crypto.Des
import Mathlib.Data.List.Rotate

/-! The byte code of the single-block routines read bit by bit: it is the standard's
network and key schedule, run with the S-box table of the source. -/
namespace MoCodes.Crypto.Des
open MoCodes.Lib.Bits MoCodes.Lib

theorem bitConv_length (table : List Nat) (len : Nat) (pSrc : List UInt8) :
    (bitConv table len pSrc).length = len := by
  rw [bitConv,setBits_length,List.length_replicate]

theorem bitConv_bits {table : List Nat} {len : Nat} (size : table.length = 8*len) (pSrc : List UInt8) :
    bitsOf (bitConv table len pSrc) = select table (bitsOf pSrc) := by
  apply bitsOf_eq
  · rw [select_length,bitConv_length,size]
  · intro pos inside
    rw [bitConv_length,← size] at inside
    rw [bitConv,bitAt_segment 0 _ (by simp) _ (by simp [size]),bitAt_zero]
    have named : (select table (bitsOf pSrc)).getD pos false = bitAt pSrc (table.getD pos 0-1) := by
      simp only [select,bitsOf_getD]
      rw [List.getD_eq_getElem _ _ (by simpa using inside),List.getD_eq_getElem _ _ inside,List.getElem_map]
    rw [named]
    simp [inside]

section Schedule

def partBits (part : List UInt8) : List Bool := part.map (· != 0)

@[simp] theorem partBits_length (part : List UInt8) : (partBits part).length = part.length := by
  simp [partBits]

theorem bitByte_bit (bytes : List UInt8) (bytesPos bitsPos : Nat) :
    (bitByte bytes bytesPos bitsPos != 0) = bitAt bytes (8*bytesPos+bitsPos) := by
  unfold bitByte
  cases bitAt bytes (8*bytesPos+bitsPos) <;> rfl

theorem splitReKey_left {pReKey : List UInt8} (size : pReKey.length = 7) :
    partBits (splitReKey pReKey).1 = (bitsOf pReKey).take 28 := by
  apply List.ext_getElem
  · simp [splitReKey,size]
  · intro i left right
    simp only [splitReKey,partBits,List.map_map,List.getElem_map,List.getElem_range,Function.comp_apply,
      bitByte_bit,Nat.div_add_mod]
    simp [bitsOf]

theorem splitReKey_right {pReKey : List UInt8} (size : pReKey.length = 7) :
    partBits (splitReKey pReKey).2 = (bitsOf pReKey).drop 28 := by
  apply List.ext_getElem
  · simp [splitReKey,size]
  · intro i left right
    simp only [splitReKey,partBits,List.map_append,List.map_map,List.getElem_append,List.getElem_map,
      List.getElem_range,Function.comp_apply,bitByte_bit,List.length_map,List.length_range]
    simp only [bitsOf,List.getElem_drop,List.getElem_map,List.getElem_range]
    split
    · congr 1
      omega
    · congr 1
      omega

theorem loopLeftShiftArray_rotate {pArray : List UInt8} {arrLen : Nat} (size : pArray.length = arrLen)
    (pos : 0 < arrLen) (shiftNum : Nat) : loopLeftShiftArray pArray arrLen shiftNum = pArray.rotate shiftNum := by
  unfold loopLeftShiftArray
  rw [← List.rotate_mod pArray shiftNum,size]
  by_cases whole : shiftNum%arrLen = 0
  · rw [if_pos whole,whole,List.rotate_zero]
  · rw [if_neg whole]
    have amount : (if arrLen < shiftNum then shiftNum%arrLen else shiftNum) = shiftNum%arrLen := by
      split
      · rfl
      · have different : shiftNum ≠ arrLen := by rintro rfl; simp at whole
        rw [Nat.mod_eq_of_lt (by omega)]
    simp only [amount]
    rw [List.rotate_eq_drop_append_take (size ▸ (Nat.mod_lt shiftNum pos).le)]

theorem partBits_shift {part : List UInt8} (size : part.length = 28) (shiftNum : Nat) :
    partBits (loopLeftShiftArray part 28 shiftNum) = (partBits part).rotate shiftNum := by
  rw [loopLeftShiftArray_rotate size (by decide)]
  exact List.map_rotate _ _ _

theorem joinHalf2ReKey_length (pLeft pRight : List UInt8) : (joinHalf2ReKey pLeft pRight).length = 7 := by
  simp [joinHalf2ReKey,setBits_length]

theorem joinHalf2ReKey_bits {pLeft pRight : List UInt8} (left : pLeft.length = 28)
    (right : pRight.length = 28) :
    bitsOf (joinHalf2ReKey pLeft pRight) = partBits pLeft ++ partBits pRight := by
  apply bitsOf_eq
  · simp [joinHalf2ReKey_length,left,right]
  · intro pos inside
    rw [joinHalf2ReKey_length] at inside
    unfold joinHalf2ReKey
    simp only
    rw [bitAt_segment 32 _ (by omega) _ (by simp [setBits_length]),
      bitAt_segment 28 _ (by omega) _ (by simp [setBits_length]),
      bitAt_segment 0 _ (by omega) _ (by simp),bitAt_zero]
    rw [List.getD_eq_getElem _ _ (show pos < (partBits pLeft ++ partBits pRight).length by simp [left,right]; omega)]
    simp only [List.getElem_append,partBits_length,left]
    split
    · next front =>
      simp [front,left,partBits,show ¬ 28 ≤ pos by omega,show ¬ 32 ≤ pos by omega]
    · next behind =>
      by_cases middle : pos < 32
      · simp [behind,middle,right,partBits,show 28 ≤ pos by omega,show ¬ 32 ≤ pos by omega,
          show pos-28 < 28 by omega]
      · have index : pos-32+4 = pos-28 := by omega
        simp [behind,middle,right,index,partBits,show 32 ≤ pos by omega,show pos < 56 by omega,
          show pos-28 < 28 by omega]

def shiftSum (n : Nat) : Nat := (List.range n).foldl (fun num i => num+gLoopLeftShiftTable.getD i 0) 0

theorem schedule_rotate (key : List Bool) (n : Nat) : Fips46.schedule key n =
    (((select Fips46.choice1 key).take 28).rotate (shiftSum n),
     ((select Fips46.choice1 key).drop 28).rotate (shiftSum n)) := by
  induction n with
  | zero => simp [Fips46.schedule,shiftSum]
  | succ n ih =>
    have sum : shiftSum (n+1) = shiftSum n+gLoopLeftShiftTable.getD n 0 := by
      simp [shiftSum,List.range_succ]
    rw [Fips46.schedule,ih,sum,List.rotate_rotate,List.rotate_rotate]
    rfl

theorem keyExpand_bits (pKey : List UInt8) {n : Nat} (bound : n < 16) :
    bitsOf ((keyExpand pKey).getD n []) = Fips46.roundKey (bitsOf pKey) n := by
  have replaced : (keyExReplace pKey).length = 7 := bitConv_length _ _ _
  have left : (splitReKey (keyExReplace pKey)).1.length = 28 := by simp [splitReKey]
  have right : (splitReKey (keyExReplace pKey)).2.length = 28 := by simp [splitReKey]
  have member : (keyExpand pKey).getD n [] =
      keyExGetKey (splitReKey (keyExReplace pKey)).1 (splitReKey (keyExReplace pKey)).2 n := by
    simp [keyExpand,bound]
  rw [member,keyExGetKey,compReKey,bitConv_bits rfl,joinHalf2ReKey_bits]
  · rw [partBits_shift left,partBits_shift right,splitReKey_left replaced,splitReKey_right replaced,
      keyExReplace,bitConv_bits rfl,Fips46.roundKey,schedule_rotate]
    rfl
  · rw [loopLeftShiftArray_rotate left (by decide),List.length_rotate,left]
  · rw [loopLeftShiftArray_rotate right (by decide),List.length_rotate,right]

theorem keyExpand_length (pKey : List UInt8) {n : Nat} (bound : n < 16) :
    ((keyExpand pKey).getD n []).length = 6 := by
  have bits := congrArg List.length (keyExpand_bits pKey bound)
  rw [bitsOf_length,Fips46.roundKey,select_length] at bits
  have size : Fips46.choice2.length = 48 := rfl
  omega

end Schedule

section Round

theorem roundXor_bits {pPart1 pPart2 : List UInt8} (size : pPart1.length = pPart2.length) :
    bitsOf (roundXor pPart1 pPart2) = List.zipWith xor (bitsOf pPart1) (bitsOf pPart2) :=
  bitsOf_xor size

theorem group_bit (pOrg : List UInt8) (i : Nat) {j : Nat} (bound : j < 6) :
    Fips46.bitValue (Fips46.group (bitsOf pOrg) i) j = (bitAt pOrg (j+i*6)).toNat := by
  have index : 6*i+j = j+i*6 := by omega
  rw [Fips46.bitValue,Fips46.group,List.getD_eq_getElem?_getD,List.getElem?_take_of_lt bound,
    List.getElem?_drop,← List.getD_eq_getElem?_getD,bitsOf_getD,index]

theorem splitKey_bit (pBytes : List UInt8) {pos : Nat} (inside : pos < 8*pBytes.length) :
    (roundSboxSplitKey pBytes).getD pos 0 = if bitAt pBytes pos then 1 else 0 := by
  simp only [roundSboxSplitKey,bitByte]
  rw [List.getD_eq_getElem _ _ (by simpa using inside)]
  simp [Nat.div_add_mod]

theorem sboxValue_entry {pOrg : List UInt8} (size : pOrg.length = 6) {i : Nat} (bound : i < 8) :
    sboxValue (roundSboxSplitKey pOrg) i =
      UInt8.ofNat (Fips46.entry gRoundSboxTable i (Fips46.group (bitsOf pOrg) i)) := by
  have bit : ∀ j < 6, (roundSboxSplitKey pOrg).getD (j+i*6) 0 =
      if bitAt pOrg (j+i*6) then 1 else 0 := fun j small => splitKey_bit pOrg (by omega)
  have row : (rowNum (roundSboxSplitKey pOrg) i).toNat = Fips46.row (Fips46.group (bitsOf pOrg) i) := by
    simp only [rowNum,Fips46.row,bit 0 (by decide),bit 5 (by decide),group_bit _ _ (show 0 < 6 by decide),
      group_bit _ _ (show 5 < 6 by decide)]
    generalize bitAt pOrg (0+i*6) = first
    generalize bitAt pOrg (5+i*6) = last
    revert first last
    decide
  have column : (columnNum (roundSboxSplitKey pOrg) i).toNat =
      Fips46.column (Fips46.group (bitsOf pOrg) i) := by
    simp only [columnNum,Fips46.column,bit 1 (by decide),bit 2 (by decide),bit 3 (by decide),
      bit 4 (by decide),group_bit _ _ (show 1 < 6 by decide),group_bit _ _ (show 2 < 6 by decide),
      group_bit _ _ (show 3 < 6 by decide),group_bit _ _ (show 4 < 6 by decide)]
    generalize bitAt pOrg (1+i*6) = b1
    generalize bitAt pOrg (2+i*6) = b2
    generalize bitAt pOrg (3+i*6) = b3
    generalize bitAt pOrg (4+i*6) = b4
    revert b1 b2 b3 b4
    decide
  rw [sboxValue,row,column,Fips46.entry,Nat.mul_comm]

theorem entry_bound {boxes : List (List Nat)} (small : ∀ box ∈ boxes, ∀ value ∈ box, value < 16)
    (i : Nat) (six : List Bool) : Fips46.entry boxes i six < 16 := by
  unfold Fips46.entry
  rw [List.getD_eq_getElem?_getD,List.getD_eq_getElem?_getD]
  cases found : boxes[i]? with
  | none => simp
  | some box =>
    cases value : box[16*Fips46.row six+Fips46.column six]? with
    | none => simp [value]
    | some number =>
      simpa [value] using small box (List.mem_of_getElem? found) number (List.mem_of_getElem? value)

theorem sboxTable_small : ∀ box ∈ gRoundSboxTable, ∀ value ∈ box, value < 16 := by decide +kernel

theorem nibbles_byte : ∀ high < 16, ∀ low < 16,
    bitsOf [UInt8.ofNat high <<< 4 ||| UInt8.ofNat low] =
      Fips46.nibble high ++ Fips46.nibble low := by
  decide +kernel

theorem roundSbox_bytes (pOrg : List UInt8) : roundSbox pOrg =
    let value := sboxValue (roundSboxSplitKey pOrg)
    [value 0 <<< 4 ||| value 1] ++ [value 2 <<< 4 ||| value 3] ++
      [value 4 <<< 4 ||| value 5] ++ [value 6 <<< 4 ||| value 7] := by
  simp only [roundSbox,List.range_succ,List.range_zero,List.nil_append,List.foldl_append,List.foldl_cons,
    List.foldl_nil]
  simp [List.modify,List.replicate_succ]

theorem roundSbox_bits {pOrg : List UInt8} (size : pOrg.length = 6) :
    bitsOf (roundSbox pOrg) = Fips46.substitute gRoundSboxTable (bitsOf pOrg) := by
  have small := fun i => entry_bound sboxTable_small i (Fips46.group (bitsOf pOrg) i)
  have pair : ∀ i < 7, bitsOf [sboxValue (roundSboxSplitKey pOrg) i <<< 4 |||
      sboxValue (roundSboxSplitKey pOrg) (i+1)] =
        Fips46.nibble (Fips46.entry gRoundSboxTable i (Fips46.group (bitsOf pOrg) i)) ++
          Fips46.nibble (Fips46.entry gRoundSboxTable (i+1) (Fips46.group (bitsOf pOrg) (i+1))) := by
    intro i bound
    rw [sboxValue_entry size (by omega),sboxValue_entry size (by omega)]
    exact nibbles_byte _ (small i) _ (small (i+1))
  rw [roundSbox_bytes]
  simp only [bitsOf_append,pair 0 (by decide),pair 2 (by decide),pair 4 (by decide),pair 6 (by decide)]
  simp [Fips46.substitute,List.range_succ]

def halvesBits (halves : List UInt8 × List UInt8) : List Bool × List Bool :=
  (bitsOf halves.1,bitsOf halves.2)

def HalfSizes (halves : List UInt8 × List UInt8) : Prop := halves.1.length = 4 ∧ halves.2.length = 4

theorem cryptRound_sizes {halves : List UInt8 × List UInt8} (sizes : HalfSizes halves)
    (pCurKeyEx : List UInt8) : HalfSizes (cryptRound halves pCurKeyEx) := by
  refine ⟨sizes.2,?_⟩
  simp [cryptRound,roundXor,roundPbox,bitConv_length,sizes.1]

theorem cryptRound_bits {halves : List UInt8 × List UInt8} {pCurKeyEx : List UInt8}
    (sizes : HalfSizes halves) (keySize : pCurKeyEx.length = 6) :
    halvesBits (cryptRound halves pCurKeyEx) = Feistel.round Fips46.xorMixer
      (Fips46.cipher gRoundSboxTable (bitsOf pCurKeyEx)) (halvesBits halves) := by
  have expanded : (roundExReplace halves.2).length = 6 := bitConv_length _ _ _
  have mixed : (roundXor (roundExReplace halves.2) pCurKeyEx).length = 6 := by
    simp [roundXor,expanded,keySize]
  have boxed : bitsOf (roundPbox (roundSbox (roundXor (roundExReplace halves.2) pCurKeyEx))) =
      Fips46.cipher gRoundSboxTable (bitsOf pCurKeyEx) (bitsOf halves.2) := by
    rw [roundPbox,bitConv_bits rfl,roundSbox_bits mixed,roundXor_bits (expanded.trans keySize.symm),
      roundExReplace,bitConv_bits rfl]
    rfl
  have same : (roundPbox (roundSbox (roundXor (roundExReplace halves.2) pCurKeyEx))).length =
      halves.1.length := by
    rw [roundPbox,bitConv_length,sizes.1]
  simp only [halvesBits,cryptRound,Feistel.round]
  rw [roundXor_bits same,boxed,Fips46.xorMixer.comm]
  rfl

end Round

section Unit

variable {keyAt : Nat → List UInt8} {pSrcUnit : List UInt8}

theorem cryptRounds_succ (keyAt : Nat → List UInt8) (loopCnt : Nat) (pSrcUnit : List UInt8) :
    cryptRounds keyAt (loopCnt+1) pSrcUnit =
      cryptRound (cryptRounds keyAt loopCnt pSrcUnit) (keyAt loopCnt) := by
  simp only [cryptRounds,List.range_succ,List.foldl_append,List.foldl_cons,List.foldl_nil]

variable (keyAt pSrcUnit) in
theorem cryptRounds_sizes (loopCnt : Nat) : HalfSizes (cryptRounds keyAt loopCnt pSrcUnit) := by
  induction loopCnt with
  | zero => simp [cryptRounds,HalfSizes,splitUnit2Half,ipConv,bitConv_length]
  | succ n ih =>
    rw [cryptRounds_succ]
    exact cryptRound_sizes ih _

variable {keys : Nat → List Bool} {count : Nat}

theorem splitUnit2Half_bits (pSrcUnit : List UInt8) : halvesBits (splitUnit2Half (ipConv pSrcUnit)) =
    ((select Fips46.initialPermutation (bitsOf pSrcUnit)).take 32,
     (select Fips46.initialPermutation (bitsOf pSrcUnit)).drop 32) := by
  have size : (ipConv pSrcUnit).length = 8 := bitConv_length _ _ _
  have bits : bitsOf (ipConv pSrcUnit) = select Fips46.initialPermutation (bitsOf pSrcUnit) :=
    bitConv_bits rfl _
  have whole : ((ipConv pSrcUnit).drop 4).take 4 = (ipConv pSrcUnit).drop 4 :=
    List.take_of_length_le (by simp [size])
  simp only [halvesBits,splitUnit2Half,whole]
  rw [bitsOf_take (by omega),bitsOf_drop (by omega),bits]

variable (pSrcUnit) in
theorem cryptRounds_bits (sizes : ∀ i < count, (keyAt i).length = 6)
    (same : ∀ i < count, bitsOf (keyAt i) = keys i) {loopCnt : Nat} (bound : loopCnt ≤ count) :
    halvesBits (cryptRounds keyAt loopCnt pSrcUnit) =
      Fips46.halves gRoundSboxTable keys loopCnt (bitsOf pSrcUnit) := by
  induction loopCnt with
  | zero => exact splitUnit2Half_bits pSrcUnit
  | succ n ih =>
    rw [cryptRounds_succ,cryptRound_bits (cryptRounds_sizes keyAt pSrcUnit n) (sizes n (by omega)),
      same n (by omega),ih (by omega)]
    rfl

/-- A unit run through the code is the standard's network over the source's S-boxes. -/
theorem unitCrypt_bits (sizes : ∀ i < 16, (keyAt i).length = 6)
    (same : ∀ i < 16, bitsOf (keyAt i) = keys i) :
    bitsOf (unitCrypt keyAt pSrcUnit) = Fips46.crypt gRoundSboxTable keys (bitsOf pSrcUnit) := by
  have halves := cryptRounds_bits pSrcUnit sizes same (le_refl 16)
  obtain ⟨left,right⟩ := cryptRounds_sizes keyAt pSrcUnit 16
  rw [unitCrypt,ipInvConv,bitConv_bits rfl,joinHalf2Unit,List.take_of_length_le (by omega),
    List.take_of_length_le (by omega),bitsOf_append,Fips46.crypt,← halves]
  rfl

end Unit

end MoCodes.Crypto.Des
