import MoCodes.Lib.ChainedPasses
import MoCodes.Crypto.DesRoundTrip
import MoCodes.Crypto.DesKeys

/-! Triple DES with chaining. The routine chains each of its three passes by itself; the mode that
chains the three block ciphers as one is what it is compared with. -/
namespace MoCodes.Crypto.Des
open MoCodes.Lib.Blocks MoCodes.Lib.BlockModes MoCodes.Lib.Bits

/-- The three keys in a long one. -/
def edeKey (pKey : List UInt8) (i : Nat) : List UInt8 := (pKey.drop (desKeyLen*i)).take desKeyLen

def edeEncrypt (pKey block : List UInt8) : List UInt8 :=
  unitCryptBy .encrypt (edeKey pKey 2) (unitCryptBy .decrypt (edeKey pKey 1)
    (unitCryptBy .encrypt (edeKey pKey 0) block))

def edeDecrypt (pKey block : List UInt8) : List UInt8 :=
  unitCryptBy .decrypt (edeKey pKey 0) (unitCryptBy .encrypt (edeKey pKey 1)
    (unitCryptBy .decrypt (edeKey pKey 2) block))

def edeCbc (method : MOCRYPT_METHOD) (pKey pIv : List UInt8) (blocks : List (List UInt8)) : List (List UInt8) :=
  match method with
  | .encrypt => cbcEncrypt (edeEncrypt pKey) roundXor pIv blocks
  | .decrypt => cbcDecrypt (edeDecrypt pKey) roundXor pIv blocks

/-- For texts of `n` units the routine answers with the text of that mode. -/
def IsEdeCbc (pTmp pKey pIv : List UInt8) (n : Nat) : Prop :=
  ∀ method (call : Call), call.pKey = pKey → call.keyLen = desKeyLen*3 → call.pIv = pIv →
    call.srcLen = n*unitLenBytes → call.pSrc.length = call.srcLen →
    (moCrypt_DES3_CBC (some pTmp) method call).1 = 0 ∧
      (moCrypt_DES3_CBC (some pTmp) method call).2.answer =
        (edeCbc method pKey pIv (cut unitLenBytes n call.pSrc)).flatten

def zeroUnit : List UInt8 := List.replicate 8 0

/-- What the keys need for texts of `n` units: `D_k2` after `E_k1` lets the differences of the two
chains through. The first difference is zero. -/
def KeysPass (pKey : List UInt8) (n : Nat) : Prop :=
  GoesThrough (unitCryptBy .encrypt (edeKey pKey 0)) (unitCryptBy .decrypt (edeKey pKey 1))
    (unitCryptBy .encrypt (edeKey pKey 2)) roundXor UnitSized n zeroUnit

section Mixing

theorem roundXor_assoc (a b c : List UInt8) : roundXor (roundXor a b) c = roundXor a (roundXor b c) := by
  induction a generalizing b c with
  | nil => rfl
  | cons byte a ih =>
    cases b with
    | nil => rfl
    | cons byte' b =>
      cases c with
      | nil => rfl
      | cons byte'' c =>
        have rest := ih b c
        simp only [roundXor,List.zipWith_cons_cons,UInt8.xor_assoc] at rest ⊢
        rw [rest]

theorem roundXor_self {block : List UInt8} (size : UnitSized block) : roundXor block block = zeroUnit := by
  have none : ∀ block : List UInt8, roundXor block block = List.replicate block.length 0 := by
    intro block
    induction block with
    | nil => rfl
    | cons byte block ih =>
      simp only [roundXor,List.zipWith_cons_cons,UInt8.xor_self] at ih ⊢
      rw [ih]
      rfl
  rw [none block,size]
  rfl

theorem roundXor_zeroUnit {block : List UInt8} (size : UnitSized block) : roundXor block zeroUnit = block := by
  have same := roundXor_units size size
  rwa [roundXor_assoc,roundXor_self size] at same

end Mixing

section Keys

variable {pKey : List UInt8} {n : Nat}

theorem unitCryptBy_take (method : MOCRYPT_METHOD) (pKey block : List UInt8) :
    unitCryptBy method (pKey.take desKeyLen) block = unitCryptBy method pKey block := by
  cases method <;> rw [unitCryptBy,keyExpand_take,unitCryptBy]

theorem unitCryptBy_injective (method : MOCRYPT_METHOD) (pKey : List UInt8) {a b : List UInt8}
    (size : UnitSized a) (size' : UnitSized b) (same : unitCryptBy method pKey a = unitCryptBy method pKey b) :
    a = b := by
  rw [← unitCryptBy_undo method pKey size,same,unitCryptBy_undo method pKey size']

theorem unitCryptBy_onto (pKey : List UInt8) {a : List UInt8} (size : UnitSized a) :
    ∃ b, UnitSized b ∧ unitCryptBy .encrypt pKey b = a :=
  ⟨unitCryptBy .decrypt pKey a,unitCryptBy_length .decrypt pKey a,unitCryptBy_undo .decrypt pKey size⟩

theorem edeDecrypt_edeEncrypt (pKey : List UInt8) {block : List UInt8} (size : UnitSized block) :
    edeDecrypt pKey (edeEncrypt pKey block) = block := by
  have first := unitCryptBy_length .encrypt (edeKey pKey 0) block
  have second := unitCryptBy_length .decrypt (edeKey pKey 1) (unitCryptBy .encrypt (edeKey pKey 0) block)
  have third := unitCryptBy_undo .encrypt (edeKey pKey 2) second
  have undone := unitCryptBy_undo .decrypt (edeKey pKey 1) first
  simp only [opposite] at third undone
  rw [edeDecrypt,edeEncrypt,third,undone]
  exact unitCryptBy_undo .encrypt (edeKey pKey 0) size

/-- One unit cannot tell the modes apart. -/
theorem keysPass_one (pKey : List UInt8) : KeysPass pKey 1 :=
  goesThrough_one roundXor_zeroUnit (fun {b} _ => unitCryptBy_length .encrypt _ b)
    fun {b} _ => unitCryptBy_length .decrypt _ b

/-- Nor can any text when two neighbouring keys are the same. -/
theorem keysPass_single (single : edeKey pKey 0 = edeKey pKey 1 ∨ edeKey pKey 1 = edeKey pKey 2) (n : Nat) :
    KeysPass pKey n := by
  rcases single with same | same
  · refine goesThrough_undone roundXor_size (fun {b} _ => unitCryptBy_length .decrypt _ b)
      (fun {b} _ => unitCryptBy_length .encrypt _ b) (fun size => ?_) n rfl
    rw [same]
    exact unitCryptBy_undo .encrypt (edeKey pKey 1) size
  · refine goesThrough_redone roundXor_zeroUnit (fun {b} _ => unitCryptBy_length .encrypt _ b)
      (fun {b} _ => unitCryptBy_length .decrypt _ b) roundXor_self (fun size => ?_) n
    rw [same]
    exact unitCryptBy_undo .decrypt (edeKey pKey 2) size

end Keys

section Texts

variable {pKey pIv : List UInt8} {n : Nat}

/-- A routine that computes a mode answers for a text of `n` units with those of the mode. -/
theorem Computes.answers {routine : MOCRYPT_METHOD → Call → Int × Call} {mode : BlockMode}
    (right : Computes routine mode) (some : 0 < n) (method : MOCRYPT_METHOD) {call : Call}
    (size : call.srcLen = n*unitLenBytes) (source : call.pSrc.length = call.srcLen)
    (vector : mode.vector call.pIv) :
    (routine method call).1 = 0 ∧ (routine method call).2.answer =
      (mode.run method call.pKey call.keyLen call.pIv (cut unitLenBytes n call.pSrc)).flatten := by
  have count : (cut unitLenBytes n call.pSrc).length = n := cut_length n call.pSrc
  have whole : call.pSrc.length = n*unitLenBytes := source.trans size
  have units : Starts call.pSrc (cut unitLenBytes n call.pSrc) :=
    ⟨cut_full whole.ge,[],by rw [flatten_cut whole,List.append_nil]⟩
  obtain ⟨pDst,done,starts⟩ := right method call _ (List.ne_nil_of_length_pos (count.symm ▸ some)) units
    (by rw [count,size]) vector
  have taken := starts.take
  rw [mode.count,count,← size] at taken
  rw [done]
  exact ⟨rfl,taken⟩

theorem flatten_units {first second : List (List UInt8)} (sizes : ∀ b ∈ first, UnitSized b)
    (sizes' : ∀ b ∈ second, UnitSized b) (count : first.length = second.length)
    (same : first.flatten = second.flatten) : first = second := by
  rw [← cut_flatten sizes [],same,count,cut_flatten sizes' []]

theorem edeCbc_undo (pKey : List UInt8) (vector : UnitSized pIv) {blocks : List (List UInt8)}
    (sizes : ∀ b ∈ blocks, UnitSized b) : edeCbc .decrypt pKey pIv (edeCbc .encrypt pKey pIv blocks) = blocks :=
  cbcDecrypt_cbcEncrypt roundXor_size roundXor_units (fun {_} _ => unitCryptBy_length .encrypt _ _)
    (edeDecrypt_edeEncrypt pKey) vector sizes

def EdeOnUnits (pKey pIv : List UInt8) (n : Nat) : Prop :=
  ∀ blocks : List (List UInt8), blocks.length = n → (∀ b ∈ blocks, UnitSized b) →
    cbcMode.triple.run .encrypt pKey (desKeyLen*3) pIv blocks = edeCbc .encrypt pKey pIv blocks

theorem EdeOnUnits.decrypts (law : EdeOnUnits pKey pIv n) (vector : UnitSized pIv) {blocks : List (List UInt8)}
    (count : blocks.length = n) (sizes : ∀ b ∈ blocks, UnitSized b) :
    cbcMode.triple.run .decrypt pKey (desKeyLen*3) pIv blocks = edeCbc .decrypt pKey pIv blocks := by
  have size := cbcMode.triple.count .decrypt pKey (desKeyLen*3) pIv blocks
  have units := cbcMode.triple.units .decrypt pKey (desKeyLen*3) vector sizes
  have undone := cbcMode.triple.undo pKey (desKeyLen*3) vector sizes .decrypt
  have restored := (law _ (size.trans count) units).symm.trans undone
  calc cbcMode.triple.run .decrypt pKey (desKeyLen*3) pIv blocks
      = edeCbc .decrypt pKey pIv (edeCbc .encrypt pKey pIv
          (cbcMode.triple.run .decrypt pKey (desKeyLen*3) pIv blocks)) := (edeCbc_undo pKey vector units).symm
    _ = edeCbc .decrypt pKey pIv blocks := by rw [restored]

theorem isEdeCbc_units (pTmp : List UInt8) (some : 0 < n) (vector : UnitSized pIv) :
    IsEdeCbc pTmp pKey pIv n ↔ EdeOnUnits pKey pIv n := by
  have right := des3Crypt_computes cbc_computes pTmp
  constructor
  · intro law blocks count sizes
    let call : Call := ⟨blocks.flatten,n*unitLenBytes,pKey,desKeyLen*3,pIv,[],0⟩
    have size : call.srcLen = n*unitLenBytes := rfl
    have source : call.pSrc.length = call.srcLen := by rw [flatten_full_length sizes,count]
    have units : cut unitLenBytes n call.pSrc = blocks := by
      have cut := cut_flatten sizes []
      rwa [List.append_nil,count] at cut
    obtain ⟨_,ede⟩ := law .encrypt call rfl rfl rfl rfl source
    obtain ⟨_,code⟩ := right.answers some .encrypt size source vector
    rw [units] at ede code
    refine flatten_units (cbcMode.triple.units _ _ _ vector sizes) ?_ ?_ (code.symm.trans ede)
    · exact cbcEncrypt_blocks roundXor_size (fun {_} _ => unitCryptBy_length .encrypt _ _) vector sizes
    · rw [cbcMode.triple.count]
      exact (cbcEncrypt_length pIv blocks).symm
  · rintro law method call rfl keyLen rfl size source
    obtain ⟨done,code⟩ := right.answers some method size source vector
    have count : (cut unitLenBytes n call.pSrc).length = n := cut_length n call.pSrc
    have sizes : ∀ b ∈ cut unitLenBytes n call.pSrc, UnitSized b := cut_full (source.trans size).ge
    refine ⟨done,code.trans ?_⟩
    rw [keyLen]
    cases method with
    | encrypt => rw [law _ count sizes]
    | decrypt => rw [law.decrypts vector count sizes]

theorem triple_run_encrypt (key : pKey.length = desKeyLen*3) (blocks : List (List UInt8)) :
    cbcMode.triple.run .encrypt pKey (desKeyLen*3) pIv blocks =
      cbcPasses (unitCryptBy .encrypt (edeKey pKey 0)) (unitCryptBy .decrypt (edeKey pKey 1))
        (unitCryptBy .encrypt (edeKey pKey 2)) roundXor pIv pIv blocks := by
  have whole : des3Key pKey (desKeyLen*3) = pKey := by
    rw [des3Key,if_pos le_rfl,← key,List.take_length]
  have part : ∀ method i, unitCryptBy method (edeKey pKey i) = unitCryptBy method (pKey.drop (desKeyLen*i)) :=
    fun method i => funext (unitCryptBy_take method (pKey.drop (desKeyLen*i)))
  rw [part,part,part,← cbcPasses_eq]
  simp only [BlockMode.triple,whole]
  rfl

theorem answer_passes {call : Call} (pTmp : List UInt8) (positive : 0 < n) (key : call.pKey.length = desKeyLen*3)
    (keyLen : call.keyLen = desKeyLen*3) (size : call.srcLen = n*unitLenBytes)
    (source : call.pSrc.length = call.srcLen) (vector : UnitSized call.pIv) :
    (moCrypt_DES3_CBC (some pTmp) .encrypt call).2.answer =
      (cbcPasses (unitCryptBy .encrypt (edeKey call.pKey 0)) (unitCryptBy .decrypt (edeKey call.pKey 1))
        (unitCryptBy .encrypt (edeKey call.pKey 2)) roundXor call.pIv call.pIv
        (cut unitLenBytes n call.pSrc)).flatten := by
  rw [← triple_run_encrypt key,← keyLen]
  exact ((des3Crypt_computes cbc_computes pTmp).answers positive .encrypt size source vector).2

theorem edeOnUnits_iff (key : pKey.length = desKeyLen*3) (vector : UnitSized pIv) :
    EdeOnUnits pKey pIv n ↔ KeysPass pKey n := by
  have passes := cbcPasses_iff (E := unitCryptBy .encrypt (edeKey pKey 0))
    (D := unitCryptBy .decrypt (edeKey pKey 1)) (F := unitCryptBy .encrypt (edeKey pKey 2)) roundXor_size
    roundXor_units roundXor_assoc (fun {b} _ => unitCryptBy_length .encrypt _ b)
    (fun {b} _ => unitCryptBy_length .decrypt _ b) (fun {b} _ => unitCryptBy_length .encrypt _ b)
    (unitCryptBy_onto _) (unitCryptBy_injective .encrypt _) (n := n) vector vector
  rw [roundXor_self vector] at passes
  rw [KeysPass,← passes]
  refine forall_congr' fun blocks => ?_
  rw [triple_run_encrypt key]
  rfl

end Texts

/-- The routine is the CBC mode of triple DES exactly under the keys that let the differences of
its chains through, which for one unit are all. -/
theorem des3_cbc_iff {n : Nat} (some : 0 < n) {pKey pIv : List UInt8} (key : pKey.length = desKeyLen*3)
    (vector : UnitSized pIv) (pTmp : List UInt8) : IsEdeCbc pTmp pKey pIv n ↔ KeysPass pKey n :=
  (isEdeCbc_units pTmp some vector).trans (edeOnUnits_iff key vector)

section TwoUnits

instance (block : List UInt8) : Decidable (UnitSized block) := inferInstanceAs (Decidable (_ = _))

/-- Three keys, the middle one all ones. -/
def weakKeys : List UInt8 := zeroKey ++ List.replicate 8 255 ++ zeroKey

theorem weakKeys_length : weakKeys.length = desKeyLen*3 := by decide

theorem des3_cbc_one : IsEdeCbc [] weakKeys zeroUnit 1 :=
  (des3_cbc_iff Nat.one_pos weakKeys_length (by decide) []).mpr (keysPass_one weakKeys)

/-- What the key of ones makes of the fixed unit of the key of zeros, and what the latter makes of
that. -/
def movedUnit : List UInt8 := [152,72,157,17,94,79,210,197]

def movedTwice : List UInt8 := [37,130,118,26,245,223,166,255]

theorem keyExpand_ones : keyExpand (List.replicate 8 255) = List.replicate 16 (List.replicate 6 255) := by
  decide +kernel

theorem unitDecrypt_alike (round block : List UInt8) :
    unitDecrypt block (List.replicate 16 round) = unitEncrypt block (List.replicate 16 round) := by
  have same : ∀ i ∈ List.range 16, decryptKeyAt (List.replicate 16 round) i =
      encryptKeyAt (List.replicate 16 round) i := by
    intro i among
    have inside := List.mem_range.mp among
    rw [decryptKeyAt,encryptKeyAt,List.getD_replicate _ inside,List.getD_replicate _ (by omega)]
  have rounds : cryptRounds (decryptKeyAt (List.replicate 16 round)) 16 block =
      cryptRounds (encryptKeyAt (List.replicate 16 round)) 16 block :=
    List.foldl_ext _ _ _ fun halves i among => by rw [same i among]
  rw [unitDecrypt,unitCrypt,rounds,unitEncrypt,unitCrypt]

theorem ones_fixedUnit : unitEncrypt fixedUnit (List.replicate 16 (List.replicate 6 255)) = movedUnit := by
  decide +kernel

theorem zeros_movedUnit : unitEncrypt movedUnit (List.replicate 16 (List.replicate 6 0)) = movedTwice := by
  decide +kernel

theorem zeros_movedTwice : unitCryptBy .encrypt zeroKey movedTwice = movedUnit := by
  have back : unitDecrypt (unitEncrypt movedUnit (keyExpand zeroKey)) (keyExpand zeroKey) = movedUnit :=
    unitDecrypt_unitEncrypt zeroKey rfl
  rwa [keyExpand_zeros,zeros_movedUnit,unitDecrypt_alike,← keyExpand_zeros] at back

theorem ones_decrypt : unitCryptBy .decrypt (List.replicate 8 255) fixedUnit = movedUnit := by
  rw [unitCryptBy,keyExpand_ones,unitDecrypt_alike,ones_fixedUnit]

theorem ones_decrypt_back : unitCryptBy .decrypt (List.replicate 8 255) movedUnit = fixedUnit := by
  have back : unitDecrypt (unitEncrypt fixedUnit (keyExpand (List.replicate 8 255)))
    (keyExpand (List.replicate 8 255)) = fixedUnit := unitDecrypt_unitEncrypt _ rfl
  rwa [keyExpand_ones,ones_fixedUnit,← keyExpand_ones] at back

def secondUnit : List UInt8 := [52,116,191,171,169,94,225,164]

/-- The first pass makes `movedUnit` and `fixedUnit` of this text. -/
def twoWeakUnits : Call where
  pSrc := movedTwice ++ secondUnit
  srcLen := 16
  pKey := weakKeys
  keyLen := 24
  pIv := zeroUnit
  pDst := []
  pDstLen := 0

theorem twoWeakUnits_cut : cut unitLenBytes 2 twoWeakUnits.pSrc = [movedTwice,secondUnit] := by
  decide

theorem weakKeys_parts : edeKey weakKeys 0 = zeroKey ∧ edeKey weakKeys 1 = List.replicate 8 255 ∧
    edeKey weakKeys 2 = zeroKey := by decide

theorem zeros_fixedUnit : unitCryptBy .encrypt zeroKey fixedUnit = fixedUnit := zeroKey_fixed

theorem twoWeakUnits_passes : cbcPasses (unitCryptBy .encrypt zeroKey)
    (unitCryptBy .decrypt (List.replicate 8 255)) (unitCryptBy .encrypt zeroKey) roundXor zeroUnit zeroUnit
    [movedTwice,secondUnit] = [fixedUnit,fixedUnit] := by
  have start : roundXor movedTwice zeroUnit = movedTwice := by decide
  have fixed : roundXor fixedUnit zeroUnit = fixedUnit := by decide
  have inner : roundXor secondUnit movedUnit = fixedUnit := by decide
  have outer : roundXor (roundXor movedUnit movedUnit) fixedUnit = fixedUnit := by decide
  rw [cbcPasses,cbcPasses,cbcPasses,start,zeros_movedTwice,inner,zeros_fixedUnit,lastPass,ones_decrypt_back,
    fixed,fixed,zeros_fixedUnit,lastPass,ones_decrypt,outer,zeros_fixedUnit]

theorem twoWeakUnits_code :
    (moCrypt_DES3_CBC (some []) .encrypt twoWeakUnits).2.answer = fixedUnit ++ fixedUnit := by
  obtain ⟨first,second,third⟩ := weakKeys_parts
  have key : twoWeakUnits.pKey = weakKeys := rfl
  have vector : twoWeakUnits.pIv = zeroUnit := rfl
  rw [answer_passes [] Nat.two_pos (by rw [key,weakKeys_length]) rfl rfl rfl (by rw [vector]; decide),key,vector,
    twoWeakUnits_cut,first,second,third,twoWeakUnits_passes,List.flatten_cons,List.flatten_singleton]

theorem twoWeakUnits_ede : edeCbc .encrypt weakKeys zeroUnit [movedTwice,secondUnit] ≠ [fixedUnit,fixedUnit] := by
  obtain ⟨first,second,third⟩ := weakKeys_parts
  have start : roundXor movedTwice zeroUnit = movedTwice := by decide
  have next : roundXor secondUnit fixedUnit = movedUnit := by decide
  have moves : unitCryptBy .encrypt zeroKey movedUnit = movedTwice := by
    rw [unitCryptBy,keyExpand_zeros,zeros_movedUnit]
  intro same
  simp only [edeCbc,cbcEncrypt,edeEncrypt,first,second,third,start,zeros_movedTwice,ones_decrypt_back,
    zeros_fixedUnit,next,moves,List.cons.injEq,and_true,true_and] at same
  have decrypted := unitCryptBy_injective .encrypt zeroKey (unitCryptBy_length _ _ _) (by decide)
    (same.trans zeros_fixedUnit.symm)
  have moved := unitCryptBy_injective .decrypt (List.replicate 8 255) (by decide) (by decide)
    (decrypted.trans ones_decrypt_back.symm)
  exact absurd moved (by decide)

theorem des3_cbc_inner : (moCrypt_DES3_CBC (some []) .encrypt twoWeakUnits).2.answer = fixedUnit ++ fixedUnit ∧
    (edeCbc .encrypt weakKeys zeroUnit (cut unitLenBytes 2 twoWeakUnits.pSrc)).flatten ≠ fixedUnit ++ fixedUnit ∧
    ¬ IsEdeCbc [] weakKeys zeroUnit 2 := by
  have apart : (edeCbc .encrypt weakKeys zeroUnit (cut unitLenBytes 2 twoWeakUnits.pSrc)).flatten ≠
      fixedUnit ++ fixedUnit := by
    rw [twoWeakUnits_cut]
    intro same
    have sizes : ∀ b ∈ [fixedUnit,fixedUnit], UnitSized b := List.forall_mem_cons.mpr
      ⟨by decide,List.forall_mem_singleton.mpr (by decide)⟩
    have sizes' : ∀ b ∈ [movedTwice,secondUnit], UnitSized b := List.forall_mem_cons.mpr
      ⟨by decide,List.forall_mem_singleton.mpr (by decide)⟩
    have count : (edeCbc .encrypt weakKeys zeroUnit [movedTwice,secondUnit]).length =
        [fixedUnit,fixedUnit].length := cbcEncrypt_length zeroUnit [movedTwice,secondUnit]
    refine twoWeakUnits_ede (flatten_units ?_ sizes count same)
    exact cbcEncrypt_blocks roundXor_size (fun {_} _ => unitCryptBy_length .encrypt _ _) (by decide) sizes'
  refine ⟨twoWeakUnits_code,apart,fun law => apart ?_⟩
  exact (law .encrypt twoWeakUnits rfl rfl rfl rfl rfl).2.symm.trans twoWeakUnits_code

end TwoUnits

end MoCodes.Crypto.Des
