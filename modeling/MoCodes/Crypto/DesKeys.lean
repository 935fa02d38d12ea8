import MoCodes.Crypto.DesModes

/-! Which bytes of the key the single DES routines read. They fill a copy of it up with zeros, but
it is the caller's key that is expanded. -/
namespace MoCodes.Crypto.Des
open MoCodes.Lib.Bits

/-- The copy that the single routines make. -/
def desKey (pKey : List UInt8) (keyLen : Nat) : List UInt8 :=
  if desKeyLen < keyLen then pKey.take desKeyLen
  else if keyLen < desKeyLen then pKey.take keyLen ++ List.replicate (desKeyLen-keyLen) 0
  else pKey.take desKeyLen

def result (done : Int × Call) : Int × List UInt8 × Nat := (done.1,done.2.pDst,done.2.pDstLen)

/-- Nothing but the first bytes of the key, as many as it has and eight at most, makes a difference,
and the copy does what the key does. -/
structure KeyLaw (routine : MOCRYPT_METHOD → Call → Int × Call) (keyLen : Nat) : Prop where
  agree : ∀ method (call : Call) (pKey pKey' : List UInt8),
    pKey.take (min keyLen desKeyLen) = pKey'.take (min keyLen desKeyLen) →
    result (routine method { call with pKey := pKey, keyLen := keyLen }) =
      result (routine method { call with pKey := pKey', keyLen := keyLen })
  copy : ∀ method (call : Call) (pKey : List UInt8),
    result (routine method { call with pKey := pKey, keyLen := keyLen }) =
    result (routine method { call with pKey := desKey pKey keyLen, keyLen := keyLen })

theorem bitAt_take (bytes : List UInt8) {count pos : Nat} (inside : pos < 8*count) :
    bitAt (bytes.take count) pos = bitAt bytes pos := by
  have byte : pos/8 < count := by omega
  rw [bitAt,bitAt,List.getD_eq_getElem?_getD,List.getD_eq_getElem?_getD,List.getElem?_take,if_pos byte]

theorem select_take {table : List Nat} {count : Nat} (inside : ∀ pos ∈ table, pos-1 < 8*count)
    (bytes : List UInt8) : select table (bitsOf (bytes.take count)) = select table (bitsOf bytes) := by
  refine List.map_congr_left fun pos among => ?_
  rw [bitsOf_getD,bitsOf_getD,bitAt_take bytes (inside pos among)]

theorem keyExpand_take (pKey : List UInt8) : keyExpand (pKey.take desKeyLen) = keyExpand pKey := by
  have replaced : keyExReplace (pKey.take desKeyLen) = keyExReplace pKey := by
    apply bitsOf_injective
    rw [keyExReplace,keyExReplace,bitConv_bits rfl,bitConv_bits rfl]
    exact select_take (by decide) pKey
  rw [keyExpand,replaced,keyExpand]

theorem keyExpand_congr {pKey pKey' : List UInt8} (same : pKey.take desKeyLen = pKey'.take desKeyLen) :
    keyExpand pKey = keyExpand pKey' := by
  rw [← keyExpand_take pKey,same,keyExpand_take]

/-- All that a single routine makes of the key is its schedule. -/
def ReadsSchedule (crypt : MOCRYPT_METHOD → Call → List UInt8) : Prop :=
  ∀ method (call : Call) (pKey pKey' : List UInt8), keyExpand pKey = keyExpand pKey' →
    crypt method { call with pKey := pKey } = crypt method { call with pKey := pKey' }

theorem ecbCrypt_schedule : ReadsSchedule ecbCrypt := by
  intro method call pKey pKey' same
  cases method <;> simp only [ecbCrypt,ecbEnCrypt,ecbDeCrypt,same]

theorem cbcCrypt_schedule : ReadsSchedule cbcCrypt := by
  intro method call pKey pKey' same
  cases method <;> simp only [cbcCrypt,cbcEnCrypt,cbcDeCrypt,same]

theorem desCrypt_schedule {crypt : MOCRYPT_METHOD → Call → List UInt8} (reads : ReadsSchedule crypt)
    (method : MOCRYPT_METHOD) (call : Call) {pKey pKey' : List UInt8} (same : keyExpand pKey = keyExpand pKey') :
    result (desCrypt crypt method { call with pKey := pKey }) =
      result (desCrypt crypt method { call with pKey := pKey' }) := by
  simp only [desCrypt,result]
  split_ifs
  · rfl
  · rfl
  · simp only [reads method call pKey pKey' same]

theorem keyLaw_of_long {crypt : MOCRYPT_METHOD → Call → List UInt8} (reads : ReadsSchedule crypt) {keyLen : Nat}
    (long : desKeyLen ≤ keyLen) : KeyLaw (desCrypt crypt) keyLen := by
  constructor
  · intro method call pKey pKey' same
    rw [Nat.min_eq_right long] at same
    exact desCrypt_schedule reads method { call with keyLen := keyLen } (keyExpand_congr same)
  · intro method call pKey
    have first : desKey pKey keyLen = pKey.take desKeyLen := by
      rw [desKey,if_neg (not_lt.mpr long),ite_self]
    rw [first]
    exact desCrypt_schedule reads method { call with keyLen := keyLen } (keyExpand_take pKey).symm

section Short

/-- A unit that the key of zeros leaves as it is. -/
def fixedUnit : List UInt8 := [172,60,34,186,247,17,51,97]

def zeroKey : List UInt8 := List.replicate 8 0

theorem keyExpand_zeros : keyExpand zeroKey = List.replicate 16 (List.replicate 6 0) := by decide +kernel

theorem zeroKey_fixed : unitEncrypt fixedUnit (keyExpand zeroKey) = fixedUnit := by
  rw [keyExpand_zeros]
  decide +kernel

theorem last_byte_moves : unitEncrypt fixedUnit (keyExpand (List.replicate 7 0 ++ [2])) ≠ fixedUnit := by
  decide +kernel

def oneUnit (last : UInt8) (keyLen : Nat) : Call where
  pSrc := fixedUnit
  srcLen := 8
  pKey := List.replicate 7 0 ++ [last]
  keyLen := keyLen
  pIv := List.replicate 8 0
  pDst := []
  pDstLen := 0

theorem ecbCrypt_oneUnit (last : UInt8) (keyLen : Nat) : ecbCrypt .encrypt (oneUnit last keyLen) =
    unitEncrypt fixedUnit (keyExpand (List.replicate 7 0 ++ [last])) := by
  have unit : unitAt fixedUnit 0 = fixedUnit := rfl
  simp only [ecbCrypt,ecbEnCrypt,oneUnit,unitLenBytes,Nat.div_self,Nat.succ_pos,List.range_one,
    List.flatMap_singleton,unit]

theorem cbcCrypt_oneUnit (last : UInt8) (keyLen : Nat) : cbcCrypt .encrypt (oneUnit last keyLen) =
    unitEncrypt fixedUnit (keyExpand (List.replicate 7 0 ++ [last])) := by
  have mixed : roundXor (unitAt fixedUnit 0) (List.replicate 8 0) = fixedUnit := by decide
  simp only [cbcCrypt,cbcEnCrypt,oneUnit,unitLenBytes,Nat.div_self,Nat.succ_pos,Nat.sub_self,List.range'_zero,
    List.foldl_nil,mixed]

/-- The eighth byte of the buffer counts in a key that is too short for it. -/
theorem result_last_byte {crypt : MOCRYPT_METHOD → Call → List UInt8} {keyLen : Nat}
    (one : ∀ last, crypt .encrypt (oneUnit last keyLen) =
      unitEncrypt fixedUnit (keyExpand (List.replicate 7 0 ++ [last]))) :
    result (desCrypt crypt .encrypt (oneUnit 0 keyLen)) ≠
      result (desCrypt crypt .encrypt (oneUnit 2 keyLen)) := by
  have seen : ∀ last, (result (desCrypt crypt .encrypt (oneUnit last keyLen))).2.1 =
      unitEncrypt fixedUnit (keyExpand (List.replicate 7 0 ++ [last])) := by
    intro last
    have written : (result (desCrypt crypt .encrypt (oneUnit last keyLen))).2.1 =
        overwrite [] (crypt .encrypt (oneUnit last keyLen)) := by
      have size : (oneUnit last keyLen).srcLen ≠ 0 := Nat.succ_ne_zero 7
      have whole : (oneUnit last keyLen).srcLen%unitLenBytes = 0 := Nat.mod_self 8
      rw [desCrypt,if_neg size,if_neg (not_not.mpr whole)]
      rfl
    rw [written,one,overwrite,List.drop_nil,List.append_nil]
  intro same
  have moved := (seen 2).symm.trans ((congrArg (fun seen => seen.2.1) same).symm.trans (seen 0))
  exact last_byte_moves (moved.trans zeroKey_fixed)

theorem long_of_keyLaw {crypt : MOCRYPT_METHOD → Call → List UInt8} {keyLen : Nat}
    (one : ∀ last, crypt .encrypt (oneUnit last keyLen) =
      unitEncrypt fixedUnit (keyExpand (List.replicate 7 0 ++ [last])))
    (law : KeyLaw (desCrypt crypt) keyLen) : desKeyLen ≤ keyLen := by
  by_contra short
  have few : min keyLen desKeyLen ≤ (List.replicate 7 (0 : UInt8)).length := by
    rw [List.length_replicate]
    exact (Nat.min_le_left _ _).trans (Nat.le_of_lt_succ (not_le.mp short))
  have same := law.agree .encrypt (oneUnit 0 keyLen) (oneUnit 0 keyLen).pKey (oneUnit 2 keyLen).pKey
    (by simp only [oneUnit,List.take_append_of_le_length few])
  exact result_last_byte one same

end Short

/-- Only a key of eight bytes at least is read as the routines say. -/
theorem des_key_iff (keyLen : Nat) : (KeyLaw moCrypt_DES_ECB keyLen ↔ desKeyLen ≤ keyLen) ∧
    (KeyLaw moCrypt_DES_CBC keyLen ↔ desKeyLen ≤ keyLen) :=
  ⟨⟨long_of_keyLaw fun last => ecbCrypt_oneUnit last keyLen,keyLaw_of_long ecbCrypt_schedule⟩,
    ⟨long_of_keyLaw fun last => cbcCrypt_oneUnit last keyLen,keyLaw_of_long cbcCrypt_schedule⟩⟩

theorem short_key_overrun : (oneUnit 0 7).pKey.take 7 = (oneUnit 2 7).pKey.take 7 ∧
    result (moCrypt_DES_ECB .encrypt (oneUnit 0 7)) ≠ result (moCrypt_DES_ECB .encrypt (oneUnit 2 7)) ∧
    result (moCrypt_DES_CBC .encrypt (oneUnit 0 7)) ≠ result (moCrypt_DES_CBC .encrypt (oneUnit 2 7)) :=
  ⟨rfl,result_last_byte fun last => ecbCrypt_oneUnit last 7,result_last_byte fun last => cbcCrypt_oneUnit last 7⟩

end MoCodes.Crypto.Des
