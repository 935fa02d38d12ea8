import MoCodes.Crypto.Rc4File

/-! moCrypt_RC4_cryptFile with one path for source and destination. The result lies in the
temporary file, and the copy back reads it through a stream that was opened with "wb". -/
namespace MoCodes.Crypto.Rc4File
open MoCodes.Lib.FileStore MoCodes.Lib.KeyStream MoCodes.Utils.File MoCodes.Crypto.Rc4
open MoCodes.Crypto.Base64File (Disk)

/-- The temporary name leads to the source itself, so that opening it empties the source. -/
def Aliased (world : World) (disk : Disk) (source : Nat) (tmp : Path) : Prop :=
  disk.fileOf (world.entryOf tmp) = some source

/-- Everything opens, the size is not negative as an `int`, and every block has its buffer,
for the text as it is once the temporary file is open. -/
structure Runs (world : World) (linkLen : Path → Option Nat) (malloc : Nat → Bool) (src tmp : Path)
    (opened : List UInt8) : Prop where
  written : writtenPath world src src = some tmp
  sized : 0 ≤ moUtils_File_getSize (linkLen src) opened.length
  buffers : Allocated malloc 0 opened.length

def CryptedInPlace (world : World) (linkLen : Path → Option Nat) (malloc : Nat → Bool) (key : List UInt8)
    (disk : Disk) (source : Nat) (src : Path) : Prop :=
  let result := moCrypt_RC4_cryptFile world linkLen malloc disk (some src) (some src) (some key) key.length
  let text := disk.content source
  result.1 = 0 → result.2.read (world.entryOf src) =
    some (moCrypt_RC4_cryptString (fun _ => true) (some key) key.length (some text) text.length).2

def openedText (world : World) (disk : Disk) (source : Nat) (tmp : Path) : List UInt8 :=
  if disk.fileOf (world.entryOf tmp) = some source then [] else disk.content source

section Opened

variable {world : World} {linkLen : Path → Option Nat} {malloc : Nat → Bool} {key : List UInt8} {disk : Disk}
  {source : Nat} {src tmp : Path} (leads : disk.fileOf (world.entryOf src) = some source)

include leads in
theorem truncate_openedText :
    (disk.truncate (world.entryOf tmp)).2.content source = openedText world disk source tmp :=
  truncate_content_of disk leads

include leads in
/-- What is written to the temporary file leaves the source as it was once that was open. -/
theorem read_openedText {text : List UInt8} (nothing : Aliased world disk source tmp → text = []) :
    ((disk.truncate (world.entryOf tmp)).2.put (disk.truncate (world.entryOf tmp)).1 text).read
      (world.entryOf src) = some (openedText world disk source tmp) := by
  rw [Files.read,put_fileOf,truncate_keeps disk leads,Option.map_some,truncate_put_content_of disk leads,openedText]
  congr 1
  exact if_ctx_congr Iff.rfl nothing fun _ => rfl

variable (linkLen malloc) in
include leads in
theorem cryptFile_inPlace (keyed : 1 ≤ key.length) (bounded : key.length ≤ 256)
    (written : writtenPath world src src = some tmp) :
    let text := openedText world disk source tmp
    let result := moCrypt_RC4_cryptFile world linkLen malloc disk (some src) (some src) (some key) key.length
    (Runs world linkLen malloc src tmp text → result.1 = 0 ∧ result.2.read (world.entryOf src) = some text) ∧
      (¬ Runs world linkLen malloc src tmp text → result.1 ≠ 0) := by
  intro text result
  have opened := (cryptFile_written linkLen malloc key leads).1 tmp written
  obtain ⟨ok,failed⟩ := cryptFileBlockly_result malloc keyed bounded
    (moUtils_File_getSize (linkLen src) text.length) text
  simp only [result,cryptFile_formatted linkLen malloc keyed bounded,opened,cryptOpened,
    truncate_openedText leads]
  constructor
  · intro runs
    rw [ok ⟨runs.sized,runs.buffers⟩]
    refine ⟨rfl,read_openedText leads fun aliased => ?_⟩
    have emptied : text = [] := if_pos aliased
    rw [emptied]
    rfl
  · intro missing
    exact failed fun both => missing ⟨written,both.1,both.2⟩

end Opened

section Claim

variable {world : World} {linkLen : Path → Option Nat} {malloc : Nat → Bool} {key : List UInt8} {disk : Disk}
  {source : Nat} {src : Path}

theorem mask_self_iff (stream : Nat → UInt8) (text : List UInt8) :
    text = mask (· ^^^ ·) stream text ↔ ∀ n < text.length, stream n = 0 := by
  have inj : ∀ letter : UInt8, Function.Injective (letter ^^^ ·) :=
    fun _ _ _ same => (UInt8.xor_right_inj _).mp same
  have plain : mask (· ^^^ ·) (fun _ => (0 : UInt8)) text = text := by
    apply List.ext_getElem <;> simp [mask]
  conv_lhs => lhs; rw [← plain]
  rw [mask_eq_iff inj]
  exact forall₂_congr fun _ _ => eq_comm

theorem openedText_crypted_iff (tmp : Path) :
    openedText world disk source tmp = mask (· ^^^ ·) (blockStream key) (disk.content source) ↔
      disk.content source = [] ∨
        ¬ Aliased world disk source tmp ∧ ∀ n < (disk.content source).length, blockStream key n = 0 := by
  by_cases aliased : Aliased world disk source tmp
  · have emptied : openedText world disk source tmp = [] := if_pos aliased
    have length : (mask (· ^^^ ·) (blockStream key) (disk.content source)).length = _ := mask_length _
    rw [emptied]
    simp only [aliased,not_true_eq_false,false_and,or_false]
    rw [eq_comm,← List.length_eq_zero_iff,length,List.length_eq_zero_iff]
  · have kept : openedText world disk source tmp = disk.content source := if_neg aliased
    rw [kept,mask_self_iff]
    simp only [aliased,not_false_eq_true,true_and]
    constructor
    · exact .inr
    · rintro (none | same)
      · rw [none]
        exact fun n inside => absurd inside (Nat.not_lt_zero n)
      · exact same

/-- A call that succeeds has crypted the file exactly when there was nothing to do. -/
theorem rc4_inPlace_iff (leads : disk.fileOf (world.entryOf src) = some source) (keyed : 1 ≤ key.length)
    (bounded : key.length ≤ 256) :
    CryptedInPlace world linkLen malloc key disk source src ↔
      ∀ tmp, Runs world linkLen malloc src tmp (openedText world disk source tmp) → disk.content source = [] ∨
        ¬ Aliased world disk source tmp ∧ ∀ n < (disk.content source).length, blockStream key n = 0 := by
  have wanted : (moCrypt_RC4_cryptString (fun _ => true) (some key) key.length (some (disk.content source))
      (disk.content source).length).2 = mask (· ^^^ ·) (blockStream key) (disk.content source) := by
    rw [(cryptString_result (fun _ => true) key (disk.content source) keyed bounded).1 fun _ _ _ => rfl]
  simp only [CryptedInPlace,wanted]
  constructor
  · intro crypted tmp runs
    obtain ⟨ok,read⟩ := (cryptFile_inPlace linkLen malloc leads keyed bounded runs.written).1 runs
    have same := crypted ok
    rw [read] at same
    exact (openedText_crypted_iff tmp).mp (Option.some.inj same)
  · intro idle ok
    cases written : writtenPath world src src with
    | none =>
      rw [cryptFile_formatted linkLen malloc keyed bounded] at ok
      exact absurd ok ((cryptFile_written linkLen malloc key leads).2 written)
    | some tmp =>
      obtain ⟨runs,fails⟩ := cryptFile_inPlace linkLen malloc leads keyed bounded written
      by_cases run : Runs world linkLen malloc src tmp (openedText world disk source tmp)
      · rw [(runs run).2,(openedText_crypted_iff tmp).mpr (idle tmp run)]
      · exact absurd ok (fails run)

def sevenDisk : Disk := { plainDisk with content := fun _ => [7] }

theorem packedSymbol_first : Rc4Packed.packedSymbol [1] 0 ≠ 0 := by decide +kernel

/-- The first symbol of the key 1 is not zero, so that no first byte is crypted to itself. -/
theorem mask_one_ne (letter : UInt8) : mask (· ^^^ ·) (blockStream [1]) [letter] ≠ [letter] := by
  intro same
  have symbol := (mask_self_iff (blockStream [1]) [letter]).mp same.symm 0 (by simp)
  apply packedSymbol_first
  rw [Rc4Packed.packedSymbol_eq]
  exact congrArg UInt8.toNat symbol

theorem rc4_inPlace_seven :
    let result := moCrypt_RC4_cryptFile plainWorld (fun _ => none) (fun _ => true) sevenDisk (some ['s'])
      (some ['s']) (some [1]) 1
    result.1 = 0 ∧ result.2.read 0 = some [7] ∧
      (moCrypt_RC4_cryptString (fun _ => true) (some [1]) 1 (some [7]) 1).2 ≠ [7] := by
  have leads : sevenDisk.fileOf (plainWorld.entryOf ['s']) = some 0 := rfl
  have written : writtenPath plainWorld ['s'] ['s'] = some ['t','e','m','p','_','s'] := by decide
  have text : openedText plainWorld sevenDisk 0 ['t','e','m','p','_','s'] = [7] := if_neg (by decide)
  have runs : Runs plainWorld (fun _ => none) (fun _ => true) ['s'] ['t','e','m','p','_','s'] [7] :=
    ⟨written,by decide,fun _ _ _ => rfl⟩
  have keyed : 1 ≤ [(1 : UInt8)].length := by decide
  obtain ⟨inPlace,_⟩ := cryptFile_inPlace (fun _ => none) (fun _ => true) leads keyed (by decide) written
  rw [text] at inPlace
  obtain ⟨ok,read⟩ := inPlace runs
  have crypted := (cryptString_result (fun _ => true) [1] [7] (by decide) (by decide)).1 fun _ _ _ => rfl
  refine ⟨ok,read,?_⟩
  have masked : (moCrypt_RC4_cryptString (fun _ => true) (some [1]) 1 (some [7]) 1).2 = _ := congrArg Prod.snd crypted
  rw [masked]
  exact mask_one_ne 7

theorem rc4_inPlace_empty : CryptedInPlace plainWorld (fun _ => none) (fun _ => true) [1] plainDisk 0 ['s'] :=
  (rc4_inPlace_iff rfl (by decide) (by decide)).mpr fun _ _ => .inl rfl

end Claim

end MoCodes.Crypto.Rc4File
