import MoCodes.Crypto.Rc4Packed

/-! moCrypt_RC4_cryptString of moCrypt_RC4.c. A NULL pointer is `none`, the text is given
with its length, and `malloc` tells for every block whether its stream buffer could be
allocated. -/
namespace MoCodes.Crypto.Rc4
open MoCodes.Lib.KeyStream MoCodes.Crypto.Rc4Packed

def vectorLen : Nat := 256

def blockSize : Nat := 1024

def keyMinLen : Nat := 1

def keyMaxLen : Nat := 256

def errInputParamNull : Int := 0 - 20000

def errMallocFailed : Int := 0 - 20002

def errInvalidKey : Int := 0 - 20003

def isRightFormatKey (keylen : Nat) : Bool := keyMinLen ≤ keylen && keylen ≤ keyMaxLen

def initVectorSAndT (key : List UInt8) (keylen : Nat) : List UInt8 × List UInt8 :=
  ((List.range vectorLen).map UInt8.ofNat,
    (List.range vectorLen).map fun i => key.getD (i%keylen) 0)

def swap (vectorS : List UInt8) (i j : Nat) : List UInt8 :=
  (vectorS.set i (vectorS.getD j 0)).set j (vectorS.getD i 0)

def rangeStep (vectorT : List UInt8) (state : List UInt8 × Nat) (i : Nat) : List UInt8 × Nat :=
  let j := (state.2+(state.1.getD i 0).toNat+(vectorT.getD i 0).toNat)%vectorLen
  (swap state.1 i j,j)

def rangeVectorS (vectorS vectorT : List UInt8) : List UInt8 :=
  ((List.range vectorLen).foldl (rangeStep vectorT) (vectorS,0)).1

structure Cursor where
  vectorS : List UInt8
  i : Nat
  j : Nat

def genCipherStep (state : Cursor) : UInt8 × Cursor :=
  let i := (state.i+1)%vectorLen
  let j := (state.j+(state.vectorS.getD i 0).toNat)%vectorLen
  let vectorS := swap state.vectorS i j
  let idx := ((vectorS.getD i 0).toNat+(vectorS.getD j 0).toNat)%256
  (vectorS.getD idx 0,⟨vectorS,i,j⟩)

def genCipherStream (txtLen : Nat) (vectorS : List UInt8) : List UInt8 :=
  stream genCipherStep txtLen ⟨vectorS,0,0⟩

def genCipherOrPlainTxt (txt stream : List UInt8) : List UInt8 :=
  List.zipWith (· ^^^ ·) txt stream

def keyedVector (key : List UInt8) (keylen : Nat) : List UInt8 :=
  let vectors := initVectorSAndT key keylen
  rangeVectorS vectors.1 vectors.2

def blockEncryptDecrypt (malloc : Bool) (key : List UInt8) (keylen : Nat) (txt : List UInt8) :
    Int × List UInt8 :=
  if malloc then
    (0,genCipherOrPlainTxt txt (genCipherStream txt.length (keyedVector key keylen)))
  else (errMallocFailed,txt)

/-- The `while (txtLen > 0)` loop, which leaves with the error of a block that fails. -/
def cryptBlocks (malloc : Nat → Bool) (key : List UInt8) (keylen : Nat) (txt : List UInt8)
    (txtLen : Int) (curBlockNum : Nat) : Int × List UInt8 :=
  if 0 < txtLen then
    let curPtr := curBlockNum*blockSize
    let curBlockLen := if txtLen > blockSize then blockSize else txtLen.toNat
    let block := blockEncryptDecrypt (malloc curBlockNum) key keylen ((txt.drop curPtr).take curBlockLen)
    let written := txt.take curPtr ++ block.2 ++ txt.drop (curPtr+curBlockLen)
    if block.1 = 0 then cryptBlocks malloc key keylen written (txtLen-blockSize) (curBlockNum+1)
    else (block.1,written)
  else (0,txt)
termination_by txtLen.toNat
decreasing_by simp only [blockSize]; omega

def moCrypt_RC4_cryptString (malloc : Nat → Bool) (key : Option (List UInt8)) (keylen : Nat)
    (txt : Option (List UInt8)) (txtLen : Int) : Int × List UInt8 :=
  match key,txt with
  | some key,some txt =>
    if isRightFormatKey keylen then cryptBlocks malloc key keylen txt txtLen 0
    else (errInvalidKey,txt)
  | _,txt => (errInputParamNull,txt.getD [])

/-- The bytes of the code's vector are the values of the permutation. -/
def Represents (vectorS : List UInt8) (S : Equiv.Perm (Fin 256)) : Prop :=
  vectorS.length = vectorLen ∧ ∀ k : Fin 256, (vectorS.getD k.val 0).toNat = (S k).val

theorem swap_getD {vectorS : List UInt8} {i j k : Nat} (inside : k < vectorS.length) :
    (swap vectorS i j).getD k 0 =
      if j = k then vectorS.getD i 0 else if i = k then vectorS.getD j 0 else vectorS.getD k 0 := by
  rw [List.getD_eq_getElem _ 0 (by simpa [swap] using inside),List.getD_eq_getElem _ 0 inside]
  simp only [swap,List.getElem_set]

theorem swap_represents {vectorS : List UInt8} {S : Equiv.Perm (Fin 256)}
    (same : Represents vectorS S) (i j : Fin 256) :
    Represents (swap vectorS i j) (S * Equiv.swap i j) := by
  obtain ⟨size,values⟩ := same
  refine ⟨by simp [swap,size],?_⟩
  intro k
  rw [swap_getD (by rw [size]; exact k.isLt),Equiv.Perm.mul_apply]
  rcases eq_or_ne j k with rfl | notJ
  · rw [if_pos rfl,Equiv.swap_apply_right,values i]
  · rw [if_neg (Fin.val_ne_of_ne notJ)]
    rcases eq_or_ne i k with rfl | notI
    · rw [if_pos rfl,Equiv.swap_apply_left,values j]
    · rw [if_neg (Fin.val_ne_of_ne notI),Equiv.swap_apply_of_ne_of_ne notI.symm notJ.symm,values k]

theorem initVectorS_represents (key : List UInt8) (keylen : Nat) :
    Represents (initVectorSAndT key keylen).1 1 := by
  refine ⟨by simp [initVectorSAndT,vectorLen],?_⟩
  intro k
  have bound := k.isLt
  simp [initVectorSAndT,vectorLen,List.getD_eq_getElem?_getD,bound]

theorem initVectorT_value (key : List UInt8) (i : Fin 256) :
    ((initVectorSAndT key key.length).2.getD i.val 0).toNat = (Rc4Reference.keyValue key i).val := by
  have bound := i.isLt
  have byte := (key.getD (i.val%key.length) 0).toNat_lt
  simp [initVectorSAndT,vectorLen,List.getD_eq_getElem?_getD,bound,Rc4Reference.keyValue]

theorem rangeStep_represents (key : List UInt8) {vectorS : List UInt8} {S : Equiv.Perm (Fin 256)}
    (same : Represents vectorS S) (j i : Fin 256) :
    let code := rangeStep (initVectorSAndT key key.length).2 (vectorS,j.val) i.val
    let reference := Rc4Reference.shuffle key (S,j) i
    Represents code.1 reference.1 ∧ code.2 = reference.2.val := by
  have index : (j.val+(vectorS.getD i.val 0).toNat+
      ((initVectorSAndT key key.length).2.getD i.val 0).toNat)%vectorLen =
      (j+S i+Rc4Reference.keyValue key i).val := by
    rw [same.2 i,initVectorT_value,Fin.val_add,Fin.val_add]
    simp [vectorLen]
  simp only [rangeStep,Rc4Reference.shuffle,index,and_true]
  exact swap_represents same i _

theorem rangeFold_represents {key : List UInt8} (indices : List (Fin 256)) {vectorS : List UInt8}
    {S : Equiv.Perm (Fin 256)} (same : Represents vectorS S) (j : Fin 256) :
    Represents ((indices.map Fin.val).foldl (rangeStep (initVectorSAndT key key.length).2) (vectorS,j.val)).1
      (indices.foldl (Rc4Reference.shuffle key) (S,j)).1 := by
  induction indices generalizing vectorS S j with
  | nil => exact same
  | cons i indices ih =>
    obtain ⟨kept,index⟩ := rangeStep_represents key same j i
    have pass : rangeStep (initVectorSAndT key key.length).2 (vectorS,j.val) i.val =
        ((rangeStep (initVectorSAndT key key.length).2 (vectorS,j.val) i.val).1,
          (Rc4Reference.shuffle key (S,j) i).2.val) := Prod.ext rfl index
    simp only [List.map_cons,List.foldl_cons]
    rw [pass]
    exact ih kept _

theorem keyedVector_represents (key : List UInt8) :
    Represents (keyedVector key key.length) (Rc4Reference.schedule key) := by
  have indices : List.range vectorLen = (List.finRange 256).map Fin.val :=
    List.map_coe_finRange_eq_range.symm
  rw [keyedVector,rangeVectorS,indices]
  exact rangeFold_represents (List.finRange 256) (initVectorS_represents key key.length) 0

def Follows (code : Cursor) (reference : Rc4Reference.State) : Prop :=
  Represents code.vectorS reference.S ∧ code.i = reference.i.val ∧ code.j = reference.j.val

theorem genCipherStep_follows {code : Cursor} {reference : Rc4Reference.State}
    (same : Follows code reference) :
    (genCipherStep code).1 = (Rc4Reference.step reference).1 ∧
      Follows (genCipherStep code).2 (Rc4Reference.step reference).2 := by
  obtain ⟨represents,iSame,jSame⟩ := same
  have i : (code.i+1)%vectorLen = (reference.i+1).val := by
    rw [iSame,Fin.val_add]
    rfl
  have j : (code.j+(code.vectorS.getD (reference.i+1).val 0).toNat)%vectorLen =
      (reference.j+reference.S (reference.i+1)).val := by
    rw [jSame,represents.2,Fin.val_add]
    rfl
  have swapped := swap_represents represents (reference.i+1) (reference.j+reference.S (reference.i+1))
  simp only [genCipherStep,Rc4Reference.step,i,j,Follows,and_true,swapped]
  rw [swapped.2,swapped.2,← Fin.val_add]
  apply UInt8.toNat_inj.mp
  rw [swapped.2]
  simp

theorem start_follows (key : List UInt8) :
    Follows ⟨keyedVector key key.length,0,0⟩ (Rc4Reference.start key) := by
  have represents := keyedVector_represents key
  simp only [Follows,Rc4Reference.start,represents,true_and]
  exact ⟨rfl,rfl⟩

theorem cipherStream_code (key : List UInt8) :
    symbol genCipherStep ⟨keyedVector key key.length,0,0⟩ = Rc4Reference.cipherStream key := by
  funext n
  rw [Rc4Reference.cipherStream]
  exact symbol_related Follows (fun _ _ same => (genCipherStep_follows same).1)
    (fun _ _ same => (genCipherStep_follows same).2) (start_follows key) n

/-- A block comes out masked with the reference stream from its first byte. -/
theorem blockEncryptDecrypt_ok (key txt : List UInt8) :
    blockEncryptDecrypt true key key.length txt = (0,Rc4Reference.crypt key txt) := by
  simp only [blockEncryptDecrypt,genCipherOrPlainTxt,genCipherStream,if_true,zipWith_stream,
    cipherStream_code,Rc4Reference.crypt]

/-- What the code computes instead of the continuous stream: it starts anew at every block. -/
def blockStream (key : List UInt8) : Nat → UInt8 := restart blockSize (Rc4Reference.cipherStream key)

variable (malloc : Nat → Bool) (key : List UInt8)

theorem blockLen_take {txtLen : Int} {back : List UInt8} (left : txtLen.toNat = back.length) :
    let curBlockLen := if txtLen > blockSize then blockSize else txtLen.toNat
    back.take curBlockLen = back.take blockSize ∧ back.drop curBlockLen = back.drop blockSize := by
  intro curBlockLen
  by_cases long : txtLen > blockSize
  · simp only [curBlockLen,if_pos long,and_self]
  · have short : back.length ≤ blockSize := by omega
    simp only [curBlockLen,if_neg long,left,List.take_length,List.drop_length]
    exact ⟨(List.take_of_length_le short).symm,(List.drop_eq_nil_of_le short).symm⟩

theorem cryptBlocks_pass {front back : List UInt8} {curBlockNum : Nat} {txtLen : Int}
    (position : front.length = curBlockNum*blockSize) (left : txtLen.toNat = back.length)
    (more : 0 < txtLen) :
    cryptBlocks malloc key key.length (front++back) txtLen curBlockNum =
      if malloc curBlockNum then
        cryptBlocks malloc key key.length
          (front ++ Rc4Reference.crypt key (back.take blockSize) ++ back.drop blockSize)
          (txtLen-blockSize) (curBlockNum+1)
      else (errMallocFailed,front++back) := by
  obtain ⟨taken,dropped⟩ := blockLen_take left
  rw [cryptBlocks,if_pos more]
  generalize (if txtLen > blockSize then blockSize else txtLen.toNat) = curBlockLen at taken dropped ⊢
  simp only [← position,← List.drop_drop,List.drop_left,List.take_left,taken,dropped]
  cases malloc curBlockNum with
  | true => simp [blockEncryptDecrypt_ok]
  | false => simp [blockEncryptDecrypt,errMallocFailed]

/-- The buffers of the blocks from `curBlockNum` on can all be allocated. -/
def Allocated (malloc : Nat → Bool) (curBlockNum txtLen : Nat) : Prop :=
  ∀ n, curBlockNum ≤ n → n*blockSize < txtLen → malloc n = true

theorem allocated_step {curBlockNum txtLen : Nat} (inside : curBlockNum*blockSize < txtLen) :
    Allocated malloc curBlockNum txtLen ↔
      malloc curBlockNum = true ∧ Allocated malloc (curBlockNum+1) txtLen := by
  constructor
  · intro all
    exact ⟨all curBlockNum le_rfl inside,fun n later => all n (Nat.le_of_succ_le later)⟩
  · intro ⟨first,others⟩ n later bound
    rcases Nat.eq_or_lt_of_le later with rfl | after
    · exact first
    · exact others n after bound

/-- With `back` still to do, the bytes before it stay and `back` is masked block by block,
unless a buffer is missing. -/
theorem cryptBlocks_result (front back : List UInt8) (curBlockNum : Nat) (txtLen : Int)
    (position : front.length ≤ curBlockNum*blockSize)
    (full : 0 < txtLen → front.length = curBlockNum*blockSize)
    (left : txtLen.toNat = back.length) :
    let result := cryptBlocks malloc key key.length (front++back) txtLen curBlockNum
    let whole := front.length+back.length
    (Allocated malloc curBlockNum whole → result = (0,front ++ mask (· ^^^ ·) (blockStream key) back)) ∧
      (¬Allocated malloc curBlockNum whole → result.1 = errMallocFailed) := by
  induction size : txtLen.toNat using Nat.strong_induction_on
    generalizing front back curBlockNum txtLen with
  | _ n ih =>
    intro result whole
    by_cases more : 0 < txtLen
    · have here := full more
      have pass := cryptBlocks_pass malloc key here left more
      rw [allocated_step malloc (by omega : curBlockNum*blockSize < whole)]
      cases buffer : malloc curBlockNum with
      | false =>
        rw [buffer,if_neg (by decide)] at pass
        simp [result,pass]
      | true =>
        rw [buffer,if_pos rfl] at pass
        have shorter : (txtLen-blockSize).toNat = (back.drop blockSize).length := by
          rw [List.length_drop,← left]
          omega
        have written : (Rc4Reference.crypt key (back.take blockSize)).length =
            min blockSize back.length := by
          rw [Rc4Reference.crypt,mask_length,List.length_take]
        have next := ih (txtLen-blockSize).toNat (by simp only [blockSize]; omega)
          (front ++ Rc4Reference.crypt key (back.take blockSize)) (back.drop blockSize)
          (curBlockNum+1) (txtLen-blockSize) ?_ ?_ shorter rfl
        · have same : (front ++ Rc4Reference.crypt key (back.take blockSize)).length+
              (back.drop blockSize).length = whole := by
            simp only [List.length_append,written,List.length_drop,whole]
            omega
          have split : mask (· ^^^ ·) (blockStream key) back =
              Rc4Reference.crypt key (back.take blockSize) ++
                mask (· ^^^ ·) (blockStream key) (back.drop blockSize) := mask_restart back
          simp only [same,← pass] at next
          rw [split,← List.append_assoc]
          simpa only [true_and] using next
        · rw [List.length_append,written,here,Nat.succ_mul]
          omega
        · intro another
          have whole : min blockSize back.length = blockSize := by omega
          rw [List.length_append,written,here,whole,Nat.succ_mul]
    · have nothing : back = [] := List.length_eq_zero_iff.mp (by omega)
      have none : Allocated malloc curBlockNum whole := by
        intro n later bound
        have reached := Nat.mul_le_mul_right blockSize later
        simp only [whole,nothing,List.length_nil] at bound
        omega
      refine ⟨?_,fun missing => absurd none missing⟩
      intro _
      simp only [result]
      rw [cryptBlocks,if_neg more,nothing]
      simp [mask]

theorem blockStream_reference_iff (text : List UInt8) :
    mask (· ^^^ ·) (blockStream key) text = Rc4Reference.crypt key text ↔
      ∀ n, n < text.length →
        Rc4Reference.cipherStream key n = Rc4Reference.cipherStream key (n%blockSize) := by
  have inj : ∀ letter : UInt8, Function.Injective (letter ^^^ ·) :=
    fun _ _ _ same => (UInt8.xor_right_inj _).mp same
  rw [Rc4Reference.crypt,mask_eq_iff inj]
  exact forall₂_congr fun _ _ => eq_comm

section CryptString

variable (text : List UInt8) (keyed : 1 ≤ key.length) (bounded : key.length ≤ 256)
include keyed bounded

theorem cryptString_result :
    let result := moCrypt_RC4_cryptString malloc (some key) key.length (some text) text.length
    (Allocated malloc 0 text.length → result = (0,mask (· ^^^ ·) (blockStream key) text)) ∧
      (¬Allocated malloc 0 text.length → result.1 = errMallocFailed) := by
  have right : isRightFormatKey key.length := by simp [isRightFormatKey,keyMinLen,keyMaxLen,keyed,bounded]
  have blocks := cryptBlocks_result malloc key [] text 0 text.length (by simp)
    (by simp) (by simp)
  simpa [moCrypt_RC4_cryptString,right] using blocks

/-- The routine is the continuous cipher exactly where the stream goes on after a block
as it began. -/
theorem cryptString_reference_iff :
    moCrypt_RC4_cryptString malloc (some key) key.length (some text) text.length =
        (0,Rc4Reference.crypt key text) ↔
      Allocated malloc 0 text.length ∧ ∀ n, n < text.length →
        Rc4Reference.cipherStream key n = Rc4Reference.cipherStream key (n%blockSize) := by
  obtain ⟨ok,failed⟩ := cryptString_result malloc key text keyed bounded
  by_cases buffers : Allocated malloc 0 text.length
  · rw [ok buffers,Prod.mk.injEq,blockStream_reference_iff]
    simp [buffers]
  · have error := failed buffers
    constructor
    · intro same
      rw [same] at error
      simp [errMallocFailed] at error
    · intro ⟨all,_⟩
      exact absurd all buffers

theorem cryptString_short (short : text.length ≤ blockSize) (allocated : Allocated malloc 0 text.length) :
    moCrypt_RC4_cryptString malloc (some key) key.length (some text) text.length =
      (0,Rc4Reference.crypt key text) := by
  rw [(cryptString_result malloc key text keyed bounded).1 allocated]
  congr 1
  rw [blockStream_reference_iff]
  intro n inside
  rw [Nat.mod_eq_of_lt (Nat.lt_of_lt_of_le inside short)]

/-- Whatever the stream is, the same call undoes itself. -/
theorem cryptString_twice (allocated : Allocated malloc 0 text.length) :
    let once := moCrypt_RC4_cryptString malloc (some key) key.length (some text) text.length
    moCrypt_RC4_cryptString malloc (some key) key.length (some once.2) once.2.length = (0,text) := by
  intro once
  have masked : once = (0,mask (· ^^^ ·) (blockStream key) text) :=
    (cryptString_result malloc key text keyed bounded).1 allocated
  have again := (cryptString_result malloc key once.2 keyed bounded).1
    (by simpa [masked] using allocated)
  have undo : ∀ letter symbol : UInt8, letter ^^^ symbol ^^^ symbol = letter := by
    intro letter symbol
    rw [UInt8.xor_assoc,UInt8.xor_self,UInt8.xor_zero]
  rw [again,masked,mask_mask undo]

end CryptString

theorem cryptString_reference_iff_one_byte :
    1 ≤ [(1 : UInt8)].length ∧ [(1 : UInt8)].length ≤ 256 ∧
      (moCrypt_RC4_cryptString (fun _ => true) (some [1]) [(1 : UInt8)].length (some [0])
          [(0 : UInt8)].length = (0,Rc4Reference.crypt [1] [0]) ↔
        Allocated (fun _ => true) 0 [(0 : UInt8)].length ∧ ∀ n, n < [(0 : UInt8)].length →
          Rc4Reference.cipherStream [1] n = Rc4Reference.cipherStream [1] (n%blockSize)) :=
  ⟨by decide,by decide,cryptString_reference_iff (fun _ => true) [1] [0] (by decide) (by decide)⟩

theorem packedSymbol_second_block : packedSymbol [1] 1024 ≠ packedSymbol [1] 0 := by decide +kernel

/-- One byte more than a block: the last byte is masked with the first byte of the stream. -/
theorem cryptString_second_block :
    moCrypt_RC4_cryptString (fun _ => true) (some [1]) 1 (some (List.replicate 1025 0)) 1025 ≠
      (0,Rc4Reference.crypt [1] (List.replicate 1025 0)) := by
  have result := (cryptString_result (fun _ => true) [1] (List.replicate 1025 0)
    (by decide) (by decide)).1 (fun _ _ _ => rfl)
  rw [List.length_replicate,List.length_singleton] at result
  intro same
  have masks := (Prod.mk.inj (result.symm.trans same)).2
  have symbols := (blockStream_reference_iff _ _).mp masks 1024 (by rw [List.length_replicate]; decide)
  apply packedSymbol_second_block
  rw [packedSymbol_eq,packedSymbol_eq,symbols]
  rfl

end MoCodes.Crypto.Rc4
