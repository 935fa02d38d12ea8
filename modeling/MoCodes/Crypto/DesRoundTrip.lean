import MoCodes.Crypto.DesModes

/-! Decrypting what was encrypted. Every exported routine works on the blocks of its text;
what a mode makes of the blocks is undone by the opposite method under the same key and
initial vector. Triple DES is such a mode again, made of three passes of a single one. -/
namespace MoCodes.Crypto.Des
open MoCodes.Lib.Blocks MoCodes.Lib.BlockModes

def UnitSized (block : List UInt8) : Prop := block.length = unitLenBytes

section Loops

variable (keyEx : List (List UInt8)) (pSrc : List UInt8)

theorem unitAt_end {front block : List UInt8} {cnt : Nat} (before : front.length = cnt*unitLenBytes)
    (size : UnitSized block) : unitAt (front++block) cnt = block := by
  rw [unitAt,blockAt,← before,List.drop_left,List.take_of_length_le (Nat.le_of_eq size)]

theorem cbcEnCrypt_loop (more done : Nat) {pDst : List UInt8}
    (size : pDst.length = (done+1)*unitLenBytes) :
    (List.range' (done+1) more).foldl (fun pDst cnt =>
      pDst ++ unitEncrypt (roundXor (unitAt pSrc cnt) (unitAt pDst (cnt-1))) keyEx) pDst =
    pDst ++ (cbcEncrypt (unitEncrypt · keyEx) roundXor (unitAt pDst done)
      ((List.range' (done+1) more).map (unitAt pSrc))).flatten := by
  induction more generalizing done pDst with
  | zero => simp [cbcEncrypt]
  | succ more ih =>
    have written : UnitSized (unitEncrypt (roundXor (unitAt pSrc (done+1)) (unitAt pDst done)) keyEx) :=
      unitCrypt_length _ _
    rw [List.range'_succ,List.foldl_cons,Nat.add_sub_cancel,ih,unitAt_end size written]
    · simp only [List.map_cons,cbcEncrypt,List.flatten_cons,List.append_assoc]
    · rw [List.length_append,size,written,← Nat.succ_mul]

theorem cbcDeCrypt_loop (more done : Nat) (pDst : List UInt8) :
    (List.range' (done+1) more).foldl (fun pDst cnt =>
      pDst ++ roundXor (unitDecrypt (unitAt pSrc cnt) keyEx) (unitAt pSrc (cnt-1))) pDst =
    pDst ++ (cbcDecrypt (unitDecrypt · keyEx) roundXor (unitAt pSrc done)
      ((List.range' (done+1) more).map (unitAt pSrc))).flatten := by
  induction more generalizing done pDst with
  | zero => simp [cbcDecrypt]
  | succ more ih =>
    rw [List.range'_succ,List.foldl_cons,Nat.add_sub_cancel,ih]
    simp only [List.map_cons,cbcDecrypt,List.flatten_cons,List.append_assoc]

end Loops

section Texts

variable (pSrc : List UInt8) (srcLen : Nat) (pKey pIv : List UInt8)

theorem ecbEnCrypt_cut : ecbEnCrypt pSrc srcLen pKey =
    ((cut unitLenBytes (srcLen/unitLenBytes) pSrc).map (unitEncrypt · (keyExpand pKey))).flatten := by
  simp only [ecbEnCrypt,cut,List.map_map,List.flatMap_def,Function.comp_def,unitAt]

theorem ecbDeCrypt_cut : ecbDeCrypt pSrc srcLen pKey =
    ((cut unitLenBytes (srcLen/unitLenBytes) pSrc).map (unitDecrypt · (keyExpand pKey))).flatten := by
  simp only [ecbDeCrypt,cut,List.map_map,List.flatMap_def,Function.comp_def,unitAt]

variable {srcLen}

theorem cut_units (some : 0 < srcLen/unitLenBytes) :
    cut unitLenBytes (srcLen/unitLenBytes) pSrc =
      unitAt pSrc 0::(List.range' 1 (srcLen/unitLenBytes-1)).map (unitAt pSrc) := by
  obtain ⟨others,count⟩ := Nat.exists_eq_add_of_lt some
  rw [cut,List.range_eq_range',count,Nat.zero_add,Nat.add_sub_cancel,List.range'_succ,List.map_cons]
  rfl

theorem cbcEnCrypt_cut (some : 0 < srcLen/unitLenBytes) : cbcEnCrypt pSrc srcLen pKey pIv =
    (cbcEncrypt (unitEncrypt · (keyExpand pKey)) roundXor pIv
      (cut unitLenBytes (srcLen/unitLenBytes) pSrc)).flatten := by
  have first : UnitSized (unitEncrypt (roundXor (unitAt pSrc 0) pIv) (keyExpand pKey)) :=
    unitCrypt_length _ _
  have chain : unitAt _ 0 = _ := unitAt_end List.length_nil first
  rw [cut_units pSrc some,cbcEncrypt,List.flatten_cons]
  refine (cbcEnCrypt_loop (keyExpand pKey) pSrc _ 0 ?_).trans ?_
  · rw [first,Nat.zero_add,Nat.one_mul]
  · rw [List.nil_append] at chain
    rw [chain]

theorem cbcDeCrypt_cut (some : 0 < srcLen/unitLenBytes) : cbcDeCrypt pSrc srcLen pKey pIv =
    (cbcDecrypt (unitDecrypt · (keyExpand pKey)) roundXor pIv
      (cut unitLenBytes (srcLen/unitLenBytes) pSrc)).flatten := by
  rw [cut_units pSrc some,cbcDecrypt,List.flatten_cons]
  exact cbcDeCrypt_loop (keyExpand pKey) pSrc _ 0 _

end Texts

/-- What a mode makes of the units of a text. The opposite method brings the units back. -/
structure BlockMode where
  run : MOCRYPT_METHOD → List UInt8 → Nat → List UInt8 → List (List UInt8) → List (List UInt8)
  vector : List UInt8 → Prop
  count : ∀ method pKey keyLen pIv blocks, (run method pKey keyLen pIv blocks).length = blocks.length
  units : ∀ method pKey keyLen {pIv blocks}, vector pIv → (∀ b ∈ blocks, UnitSized b) →
    ∀ b ∈ run method pKey keyLen pIv blocks, UnitSized b
  undo : ∀ pKey keyLen {pIv blocks}, vector pIv → (∀ b ∈ blocks, UnitSized b) → ∀ method,
    run (opposite method) pKey keyLen pIv (run method pKey keyLen pIv blocks) = blocks

def unitCryptBy (method : MOCRYPT_METHOD) (pKey block : List UInt8) : List UInt8 :=
  match method with
  | .encrypt => unitEncrypt block (keyExpand pKey)
  | .decrypt => unitDecrypt block (keyExpand pKey)

theorem unitCryptBy_length (method : MOCRYPT_METHOD) (pKey block : List UInt8) :
    UnitSized (unitCryptBy method pKey block) := by
  cases method
  · exact unitCrypt_length (encryptKeyAt (keyExpand pKey)) block
  · exact unitCrypt_length (decryptKeyAt (keyExpand pKey)) block

theorem unitCryptBy_undo (method : MOCRYPT_METHOD) (pKey : List UInt8) {block : List UInt8}
    (size : UnitSized block) :
    unitCryptBy (opposite method) pKey (unitCryptBy method pKey block) = block := by
  cases method
  · exact unitDecrypt_unitEncrypt pKey size
  · exact unitEncrypt_unitDecrypt pKey size

def ecbMode : BlockMode where
  run method pKey _ _ blocks := blocks.map (unitCryptBy method pKey)
  vector _ := True
  count _ _ _ _ blocks := List.length_map _
  units := by
    intro method pKey _ _ blocks _ _ block member
    obtain ⟨source,_,rfl⟩ := List.mem_map.mp member
    exact unitCryptBy_length method pKey source
  undo := by
    intro pKey _ _ blocks _ sizes method
    rw [List.map_map]
    exact (List.map_congr_left fun block member =>
      unitCryptBy_undo method pKey (sizes block member)).trans (List.map_id blocks)

section Mixing

theorem roundXor_size {block chain : List UInt8} (size : UnitSized block) (vector : UnitSized chain) :
    UnitSized (roundXor block chain) := by
  rw [UnitSized,roundXor,List.length_zipWith,size,vector,Nat.min_self]

theorem roundXor_undo {block chain : List UInt8} (same : block.length = chain.length) :
    roundXor (roundXor block chain) chain = block := by
  induction block generalizing chain with
  | nil => rfl
  | cons byte block ih =>
    cases chain with
    | nil => cases same
    | cons other chain =>
      have rest := ih (Nat.succ.inj same)
      simp only [roundXor,List.zipWith_cons_cons,UInt8.xor_assoc,UInt8.xor_self,UInt8.xor_zero] at rest ⊢
      rw [rest]

theorem roundXor_units {block chain : List UInt8} (size : UnitSized block) (vector : UnitSized chain) :
    roundXor (roundXor block chain) chain = block :=
  roundXor_undo (size.trans vector.symm)

end Mixing

def cbcMode : BlockMode where
  run method pKey _ pIv blocks :=
    match method with
    | .encrypt => cbcEncrypt (unitCryptBy .encrypt pKey) roundXor pIv blocks
    | .decrypt => cbcDecrypt (unitCryptBy .decrypt pKey) roundXor pIv blocks
  vector := UnitSized
  count := by
    intro method _ _ _ blocks
    cases method <;> simp
  units := by
    intro method pKey _ pIv blocks vector sizes
    cases method
    · exact cbcEncrypt_blocks roundXor_size (fun {b} _ => unitCryptBy_length .encrypt pKey b) vector sizes
    · exact cbcDecrypt_blocks roundXor_size (fun {b} _ => unitCryptBy_length .decrypt pKey b) vector sizes
  undo := by
    intro pKey _ pIv blocks vector sizes method
    cases method
    · exact cbcDecrypt_cbcEncrypt roundXor_size roundXor_units
        (fun {b} _ => unitCryptBy_length .encrypt pKey b) (unitCryptBy_undo .encrypt pKey) vector sizes
    · exact cbcEncrypt_cbcDecrypt roundXor_units
        (fun {b} _ => unitCryptBy_length .decrypt pKey b) (unitCryptBy_undo .decrypt pKey) vector sizes

/-- Three passes under the three parts of the long key. -/
def BlockMode.triple (mode : BlockMode) : BlockMode where
  run method pKey keyLen pIv blocks :=
    let key := des3Key pKey keyLen
    mode.run method (key.drop (if method = .encrypt then desKeyLen*2 else 0)) desKeyLen pIv
      (mode.run (opposite method) (key.drop desKeyLen) desKeyLen pIv
        (mode.run method (key.drop (if method = .encrypt then 0 else desKeyLen*2)) desKeyLen pIv blocks))
  vector := mode.vector
  count := by
    intro method pKey keyLen pIv blocks
    simp only [mode.count]
  units := by
    intro method pKey keyLen pIv blocks vector sizes
    exact mode.units _ _ _ vector (mode.units _ _ _ vector (mode.units _ _ _ vector sizes))
  undo := by
    intro pKey keyLen pIv blocks vector sizes method
    have first := fun pKey => mode.units method pKey desKeyLen vector sizes
    have second := fun pKey pKey' => mode.units (opposite method) pKey' desKeyLen vector (first pKey)
    have decrypted : ∀ pKey {blocks}, (∀ b ∈ blocks, UnitSized b) →
        mode.run .decrypt pKey desKeyLen pIv (mode.run .encrypt pKey desKeyLen pIv blocks) = blocks :=
      fun pKey _ sizes => mode.undo pKey desKeyLen vector sizes .encrypt
    have encrypted : ∀ pKey {blocks}, (∀ b ∈ blocks, UnitSized b) →
        mode.run .encrypt pKey desKeyLen pIv (mode.run .decrypt pKey desKeyLen pIv blocks) = blocks :=
      fun pKey _ sizes => mode.undo pKey desKeyLen vector sizes .decrypt
    cases method <;>
      simp only [opposite,reduceCtorEq,if_true,if_false] at first second ⊢
    · rw [decrypted _ (second _ _),encrypted _ (first _),decrypted _ sizes]
    · rw [encrypted _ (second _ _),decrypted _ (first _),encrypted _ sizes]

/-- The text begins with these units. -/
def Starts (text : List UInt8) (blocks : List (List UInt8)) : Prop :=
  (∀ b ∈ blocks, UnitSized b) ∧ ∃ rest, text = blocks.flatten++rest

/-- The routine answers with the text of the mode's units. -/
def Computes (routine : MOCRYPT_METHOD → Call → Int × Call) (mode : BlockMode) : Prop :=
  ∀ method call blocks, blocks ≠ [] → Starts call.pSrc blocks →
    call.srcLen = blocks.length*unitLenBytes → mode.vector call.pIv →
    ∃ pDst, routine method call = (0,{ call with pDst := pDst, pDstLen := call.srcLen }) ∧
      Starts pDst (mode.run method call.pKey call.keyLen call.pIv blocks)

section Routines

variable {call : Call} {blocks : List (List UInt8)}

theorem units_count (size : call.srcLen = blocks.length*unitLenBytes) :
    call.srcLen/unitLenBytes = blocks.length := by
  rw [size,Nat.mul_div_cancel _ (by decide)]

theorem size_accepted (some : blocks ≠ []) (size : call.srcLen = blocks.length*unitLenBytes) :
    call.srcLen ≠ 0 ∧ call.srcLen%unitLenBytes = 0 := by
  have long := List.length_pos_of_ne_nil some
  refine ⟨?_,by rw [size,Nat.mul_mod_left]⟩
  rw [size,unitLenBytes]
  omega

theorem Starts.cut {text : List UInt8} (starts : Starts text blocks) :
    cut unitLenBytes blocks.length text = blocks := by
  obtain ⟨sizes,rest,rfl⟩ := starts
  exact cut_flatten sizes rest

theorem desCrypt_computes {crypt : MOCRYPT_METHOD → Call → List UInt8} {mode : BlockMode}
    (right : ∀ method call blocks, blocks ≠ [] →
      cut unitLenBytes (call.srcLen/unitLenBytes) call.pSrc = blocks →
      crypt method call = (mode.run method call.pKey call.keyLen call.pIv blocks).flatten) :
    Computes (desCrypt crypt) mode := by
  intro method call blocks some source size vector
  obtain ⟨positive,whole⟩ := size_accepted some size
  have text := right method call blocks some (by rw [units_count size,source.cut])
  refine ⟨overwrite call.pDst (crypt method call),?_,?_⟩
  · rw [desCrypt,if_neg positive,if_neg (not_not.mpr whole)]
  · exact ⟨mode.units _ _ _ vector source.1,_,by rw [text,overwrite]⟩

theorem ecb_computes : Computes moCrypt_DES_ECB ecbMode := by
  apply desCrypt_computes
  intro method call blocks _ units
  cases method
  · exact (ecbEnCrypt_cut call.pSrc call.srcLen call.pKey).trans (by rw [units]; rfl)
  · exact (ecbDeCrypt_cut call.pSrc call.srcLen call.pKey).trans (by rw [units]; rfl)

theorem cbc_computes : Computes moCrypt_DES_CBC cbcMode := by
  apply desCrypt_computes
  intro method call blocks some units
  have count : 0 < call.srcLen/unitLenBytes := by
    rw [← cut_length (call.srcLen/unitLenBytes) call.pSrc,units]
    exact List.length_pos_of_ne_nil some
  cases method
  · exact (cbcEnCrypt_cut call.pSrc call.pKey call.pIv count).trans (by rw [units]; rfl)
  · exact (cbcDeCrypt_cut call.pSrc call.pKey call.pIv count).trans (by rw [units]; rfl)

/-- No pass of triple DES fails when its scratch buffer is there. -/
theorem des3Crypt_computes {single : MOCRYPT_METHOD → Call → Int × Call} {mode : BlockMode}
    (right : Computes single mode) (pTmp : List UInt8) :
    Computes (des3Crypt single (some pTmp)) mode.triple := by
  intro method call blocks some source size vector
  obtain ⟨positive,whole⟩ := size_accepted some size
  let key := des3Key call.pKey call.keyLen
  let firstKey := key.drop (if method = .encrypt then 0 else desKeyLen*2)
  let thirdKey := key.drop (if method = .encrypt then desKeyLen*2 else 0)
  obtain ⟨pDst,first,starts⟩ := right method { call with pKey := firstKey, keyLen := desKeyLen }
    blocks some source size vector
  have count := mode.count method firstKey desKeyLen call.pIv blocks
  have units := List.ne_nil_of_length_pos (count.symm ▸ List.length_pos_of_ne_nil some)
  obtain ⟨pMid,second,middle⟩ := right (opposite method)
    { call with
      pSrc := pDst, srcLen := call.srcLen, pKey := key.drop desKeyLen, keyLen := desKeyLen
      pDst := pTmp, pDstLen := call.srcLen }
    _ units starts (by rw [count]; exact size) vector
  have countMid := mode.count (opposite method) (key.drop desKeyLen) desKeyLen call.pIv
    (mode.run method firstKey desKeyLen call.pIv blocks)
  have unitsMid := List.ne_nil_of_length_pos (countMid.symm ▸ List.length_pos_of_ne_nil units)
  obtain ⟨pEnd,third,final⟩ := right method
    { call with
      pSrc := pMid, srcLen := call.srcLen, pKey := thirdKey, keyLen := desKeyLen
      pDst := pDst, pDstLen := call.srcLen }
    _ unitsMid middle (by rw [countMid,count]; exact size) vector
  refine ⟨pEnd,?_,final⟩
  rw [des3Crypt,if_neg positive,if_neg (not_not.mpr whole)]
  simp only [firstKey,thirdKey,key] at first second third
  simp only [first,second,third,ne_eq,not_true,if_false]

end Routines

def Call.answer (call : Call) : List UInt8 := call.pDst.take call.pDstLen

/-- The call that takes the answer of this one as its text. -/
def Call.next (call : Call) (pDst : List UInt8) : Call :=
  { call with pSrc := call.answer, srcLen := call.pDstLen, pDst := pDst }

structure RoundTrip (call : Call) (encrypted decrypted : Int × Call) : Prop where
  encrypts : encrypted.1 = 0
  encryptedLen : encrypted.2.pDstLen = call.srcLen
  encryptedIv : encrypted.2.pIv = call.pIv
  decrypts : decrypted.1 = 0
  decryptedLen : decrypted.2.pDstLen = call.srcLen
  decryptedIv : decrypted.2.pIv = call.pIv
  text : decrypted.2.answer = call.pSrc

section Claims

variable {call : Call} (positive : 0 < call.srcLen) (whole : call.srcLen%unitLenBytes = 0)
  (source : call.pSrc.length = call.srcLen)

theorem Starts.take {text : List UInt8} {blocks : List (List UInt8)} (starts : Starts text blocks) :
    text.take (blocks.length*unitLenBytes) = blocks.flatten := by
  obtain ⟨sizes,rest,rfl⟩ := starts
  exact List.take_left' (flatten_full_length sizes)

include positive whole source

theorem roundTrip {mode : BlockMode} {routine back : MOCRYPT_METHOD → Call → Int × Call}
    (computes : Computes routine mode) (computesBack : Computes back mode)
    (vector : mode.vector call.pIv) (pDst : List UInt8) :
    RoundTrip call (routine .encrypt call) (back .decrypt ((routine .encrypt call).2.next pDst)) := by
  have count : call.srcLen = call.srcLen/unitLenBytes*unitLenBytes :=
    (Nat.div_mul_cancel (Nat.dvd_of_mod_eq_zero whole)).symm
  obtain ⟨blocks,text,sizes,long⟩ : ∃ blocks, call.pSrc = blocks.flatten ∧
      (∀ b ∈ blocks, UnitSized b) ∧ call.srcLen = blocks.length*unitLenBytes :=
    ⟨cut unitLenBytes (call.srcLen/unitLenBytes) call.pSrc,(flatten_cut (source.trans count)).symm,
      cut_full (by omega),by rw [cut_length]; exact count⟩
  have some : blocks ≠ [] := by
    rintro rfl
    rw [long] at positive
    exact Nat.lt_irrefl 0 positive
  obtain ⟨cipher,encrypted,starts⟩ := computes .encrypt call blocks some
    ⟨sizes,[],by rw [text,List.append_nil]⟩ long vector
  have same := mode.count .encrypt call.pKey call.keyLen call.pIv blocks
  have someCipher := List.ne_nil_of_length_pos (same.symm ▸ List.length_pos_of_ne_nil some)
  have answer : cipher.take call.srcLen =
      (mode.run .encrypt call.pKey call.keyLen call.pIv blocks).flatten := by
    rw [long,← same,starts.take]
  rw [encrypted]
  obtain ⟨plain,decrypted,restored⟩ := computesBack .decrypt
    (({ call with pDst := cipher, pDstLen := call.srcLen } : Call).next pDst) _ someCipher
    ⟨starts.1,[],by rw [List.append_nil]; exact answer⟩ (by rw [same]; exact long) vector
  rw [decrypted]
  have undone := mode.undo call.pKey call.keyLen vector sizes .encrypt
  refine ⟨rfl,rfl,rfl,rfl,rfl,rfl,?_⟩
  have taken := restored.take
  simp only [Call.next,opposite] at taken undone ⊢
  rw [undone,← long] at taken
  rw [Call.answer,text]
  exact taken

theorem moCrypt_DES_ECB_roundTrip (pDst : List UInt8) :
    RoundTrip call (moCrypt_DES_ECB .encrypt call)
      (moCrypt_DES_ECB .decrypt ((moCrypt_DES_ECB .encrypt call).2.next pDst)) :=
  roundTrip positive whole source ecb_computes ecb_computes trivial pDst

theorem moCrypt_DES_CBC_roundTrip (iv : call.pIv.length = unitLenBytes) (pDst : List UInt8) :
    RoundTrip call (moCrypt_DES_CBC .encrypt call)
      (moCrypt_DES_CBC .decrypt ((moCrypt_DES_CBC .encrypt call).2.next pDst)) :=
  roundTrip positive whole source cbc_computes cbc_computes iv pDst

/-- The scratch buffers `pTmp` and `pTmp'` are what malloc gave the two calls. -/
theorem moCrypt_DES3_roundTrip (iv : call.pIv.length = unitLenBytes) (pTmp pTmp' pDst : List UInt8) :
    RoundTrip call (moCrypt_DES3_ECB (some pTmp) .encrypt call)
        (moCrypt_DES3_ECB (some pTmp') .decrypt ((moCrypt_DES3_ECB (some pTmp) .encrypt call).2.next pDst)) ∧
      RoundTrip call (moCrypt_DES3_CBC (some pTmp) .encrypt call)
        (moCrypt_DES3_CBC (some pTmp') .decrypt ((moCrypt_DES3_CBC (some pTmp) .encrypt call).2.next pDst)) :=
  ⟨roundTrip positive whole source (des3Crypt_computes ecb_computes pTmp)
      (des3Crypt_computes ecb_computes pTmp') trivial pDst,
    roundTrip positive whole source (des3Crypt_computes cbc_computes pTmp)
      (des3Crypt_computes cbc_computes pTmp') iv pDst⟩

end Claims

section OneCall

/-- Two equal units, and a key of the given length. -/
def twoUnits (pKey : List UInt8) : Call where
  pSrc := [109,111,67,111,100,101,115,10,109,111,67,111,100,101,115,10]
  srcLen := 16
  pKey := pKey
  keyLen := pKey.length
  pIv := [0,1,2,3,4,5,6,7]
  pDst := List.replicate 16 0
  pDstLen := 0

theorem moCrypt_DES_ECB_roundTrip_twoUnits :
    RoundTrip (twoUnits [1,2,3,4,5,6,7,8]) (moCrypt_DES_ECB .encrypt (twoUnits [1,2,3,4,5,6,7,8]))
      (moCrypt_DES_ECB .decrypt ((moCrypt_DES_ECB .encrypt (twoUnits [1,2,3,4,5,6,7,8])).2.next [])) :=
  moCrypt_DES_ECB_roundTrip (by decide) (by decide) (by decide) []

theorem moCrypt_DES_CBC_roundTrip_twoUnits :
    RoundTrip (twoUnits [1,2,3,4,5,6,7,8]) (moCrypt_DES_CBC .encrypt (twoUnits [1,2,3,4,5,6,7,8]))
      (moCrypt_DES_CBC .decrypt ((moCrypt_DES_CBC .encrypt (twoUnits [1,2,3,4,5,6,7,8])).2.next [])) :=
  moCrypt_DES_CBC_roundTrip (by decide) (by decide) (by decide) (by decide) []

theorem moCrypt_DES3_roundTrip_twoUnits :
    let call := twoUnits [9]
    RoundTrip call (moCrypt_DES3_ECB (some []) .encrypt call)
        (moCrypt_DES3_ECB (some []) .decrypt ((moCrypt_DES3_ECB (some []) .encrypt call).2.next [])) ∧
      RoundTrip call (moCrypt_DES3_CBC (some []) .encrypt call)
        (moCrypt_DES3_CBC (some []) .decrypt ((moCrypt_DES3_CBC (some []) .encrypt call).2.next [])) :=
  moCrypt_DES3_roundTrip (by decide) (by decide) (by decide) (by decide) [] [] []

end OneCall

end MoCodes.Crypto.Des
