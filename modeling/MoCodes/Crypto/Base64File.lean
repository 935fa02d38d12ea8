import MoCodes.Crypto.Base64
import MoCodes.Utils.File

/-! moCrypt_BASE64_File of moCrypt_BASE64.c, called without a progress callback. fread and
fwrite transfer whole requests except at the end of a file, and the temporary path is no
symbolic link. A file is read as it is once both files are open: the file that is written
is another one, or opening it has emptied the source. -/
namespace MoCodes.Crypto.Base64File
open MoCodes.Lib.Blocks MoCodes.Lib.FileStore MoCodes.Utils.File
open MoCodes.Crypto.Base64 MoCodes.Crypto.Rfc4648

def cryptFileBlockSize : Nat := 768

def tempFilePrefix : Path := ['m','o','B','a','s','e','6','4','T','e','m','p','_']

abbrev Disk := Files Nat UInt8

def getTmpFilepath (pSrcFilepath : Path) : Path :=
  let info := getDirAndFilename pSrcFilepath
  info.1 ++ '/'::(tempFilePrefix++info.2)

def cryptChars (method : MOCRYPT_METHOD) (buf : List UInt8) : Option (List UInt8 × Nat) :=
  match method with
  | .encrypt => some (encryptChars buf buf.length)
  | .decrypt => decryptChars buf buf.length

/-- The `while` over what fread returns, with what has been written. -/
def cryptLoop (method : MOCRYPT_METHOD) : List (List UInt8) → List UInt8 → Int × List UInt8
  | [],written => (0,written)
  | buf::bufs,written => match cryptChars method buf with
    | some txt => cryptLoop method bufs (written ++ txt.1.take txt.2)
    | none => (base64ErrMallocFailed,written)

variable (world : World)

def openRead (disk : Disk) (path : Path) : Option Nat :=
  if world.canRead path then disk.fileOf (world.entryOf path) else none

def openWrite (disk : Disk) (path : Path) : Option (Nat × Disk) :=
  if world.canWrite path then some (disk.truncate (world.entryOf path)) else none

def cryptFileToSame (disk : Disk) (method : MOCRYPT_METHOD) (pSrcFilepath : Path) : Int × Disk :=
  let pTmpFilepath := getTmpFilepath pSrcFilepath
  match openRead world disk pSrcFilepath with
  | none => (base64ErrFileOpenFail,disk)
  | some fpSrc => match openWrite world disk pTmpFilepath with
    | none => (base64ErrFileOpenFail,disk)
    | some (fpTmp,opened) =>
      let result := cryptLoop method (chunks cryptFileBlockSize (opened.content fpSrc)) []
      let crypted := opened.put fpTmp result.2
      if result.1 ≠ 0 then (result.1,crypted)
      else match openWrite world crypted pSrcFilepath with
        | none => (base64ErrFileOpenFail,crypted)
        | some (fpSrc,emptied) => match openRead world emptied pTmpFilepath with
          | none => (base64ErrFileOpenFail,emptied)
          | some fpTmp =>
            let copied := emptied.put fpSrc (chunks cryptFileBlockSize (emptied.content fpTmp)).flatten
            (0,copied.unlink (world.entryOf pTmpFilepath))

def cryptFileToDiff (disk : Disk) (method : MOCRYPT_METHOD) (pSrcFilepath pDstFilepath : Path) :
    Int × Disk :=
  match openRead world disk pSrcFilepath with
  | none => (base64ErrFileOpenFail,disk)
  | some fpSrc => match openWrite world disk pDstFilepath with
    | none => (base64ErrFileOpenFail,disk)
    | some (fpDst,opened) =>
      let result := cryptLoop method (chunks cryptFileBlockSize (opened.content fpSrc)) []
      (result.1,opened.put fpDst result.2)

def cryptFile (disk : Disk) (method : MOCRYPT_METHOD) (pSrcFilepath pDstFilepath : Path) : Int × Disk :=
  let sameState := getFilepathSameState world pSrcFilepath pDstFilepath
  if sameState.1 ≠ 0 then (base64ErrGetFileDiffStateFail,disk)
  else match sameState.2 with
    | .same => cryptFileToSame world disk method pSrcFilepath
    | .diff => cryptFileToDiff world disk method pSrcFilepath pDstFilepath
    | .err => (base64ErrOther,disk)

def moCrypt_BASE64_File (disk : Disk) (method : MOCRYPT_METHOD)
    (pSrcFilepath pDstFilepath : Option Path) : Int × Disk :=
  match pSrcFilepath,pDstFilepath with
  | some pSrcFilepath,some pDstFilepath => cryptFile world disk method pSrcFilepath pDstFilepath
  | _,_ => (base64ErrInputNull,disk)

/-- What `moCrypt_BASE64_Chars` makes of the whole text at once. -/
def oneShot (plain : List UInt8) : List UInt8 :=
  ((moCrypt_BASE64_Chars .encrypt (some plain) plain.length).map Prod.fst).getD []

/-- What the source holds and what the destination is to hold. -/
def input (method : MOCRYPT_METHOD) (plain : List UInt8) : List UInt8 :=
  match method with
  | .encrypt => plain
  | .decrypt => oneShot plain

def output (method : MOCRYPT_METHOD) (plain : List UInt8) : List UInt8 :=
  match method with
  | .encrypt => oneShot plain
  | .decrypt => plain

theorem oneShot_encode {plain : List UInt8} (some : plain ≠ []) : oneShot plain = encode plain := by
  have long : plain.length ≠ 0 := fun none => some (List.length_eq_zero_iff.mp none)
  simp only [oneShot,moCrypt_BASE64_Chars,if_neg long,encryptChars_encode,Option.map_some,
    Option.getD_some]

theorem encrypt_chunk {buf : List UInt8} (short : buf.length ≤ cryptFileBlockSize)
    (bufs : List (List UInt8)) (written : List UInt8) :
    cryptLoop .encrypt (buf::bufs) written = cryptLoop .encrypt bufs (written ++ encode buf) := by
  have length := encode_length buf
  have bounded : (encode buf).length%2^32 = (encode buf).length := by
    simp only [cryptFileBlockSize] at short
    omega
  simp only [cryptLoop,cryptChars,encryptChars_encode,bounded,List.take_length]

theorem decrypt_chunk {plain : List UInt8} (some : plain ≠ [])
    (short : (encode plain).length ≤ cryptFileBlockSize) (bufs : List (List UInt8))
    (written : List UInt8) :
    cryptLoop .decrypt (encode plain::bufs) written = cryptLoop .decrypt bufs (written++plain) := by
  have small : (encode plain).length < 2^32 := Nat.lt_of_le_of_lt short (by decide)
  simp only [cryptLoop,cryptChars,decryptChars_encode some small,List.take_length]

/-- A chunk of 768 bytes ends with a group of three, so only the last one is padded. -/
theorem encryptLoop_encode {plain : List UInt8} (some : plain ≠ []) (written : List UInt8) :
    cryptLoop .encrypt (chunks cryptFileBlockSize plain) written = (0,written ++ encode plain) := by
  have positive : 0 < cryptFileBlockSize := by decide
  revert written
  refine last_induction (P := fun plain => ∀ written,
    cryptLoop .encrypt (chunks cryptFileBlockSize plain) written = (0,written ++ encode plain))
    positive ?_ ?_ some
  · intro last more short written
    rw [chunks_last more short,encrypt_chunk short]
    rfl
  · intro first rest full _ ih written
    have groups : first.length = 256*3 := full
    rw [chunks_block full positive,encrypt_chunk (Nat.le_of_eq full),ih,encode_append groups,
      List.append_assoc]

/-- A chunk of 768 symbols is the encoding of 576 bytes. -/
theorem decryptLoop_encode {plain : List UInt8} (some : plain ≠ []) (written : List UInt8) :
    cryptLoop .decrypt (chunks cryptFileBlockSize (encode plain)) written = (0,written++plain) := by
  have positive : 0 < cryptFileBlockSize := by decide
  revert written
  refine last_induction (P := fun plain => ∀ written,
    cryptLoop .decrypt (chunks cryptFileBlockSize (encode plain)) written = (0,written++plain))
    (by decide : 0 < 576) ?_ ?_ some
  · intro last more short written
    have fits : (encode last).length ≤ cryptFileBlockSize := by
      rw [encode_length,cryptFileBlockSize]
      omega
    rw [chunks_last (encode_ne_nil more) fits,decrypt_chunk more fits]
    rfl
  · intro first rest full _ ih written
    have groups : first.length = 192*3 := full
    have symbols : (encode first).length = cryptFileBlockSize := encode_whole_length groups
    have more : first ≠ [] := List.ne_nil_of_length_pos (by omega)
    rw [encode_append groups,chunks_block symbols positive,decrypt_chunk more (Nat.le_of_eq symbols),
      ih,List.append_assoc]

theorem cryptLoop_output (method : MOCRYPT_METHOD) {plain : List UInt8} (some : plain ≠ []) :
    cryptLoop method (chunks cryptFileBlockSize (input method plain)) [] = (0,output method plain) := by
  cases method with
  | encrypt => rw [input,output,oneShot_encode some,encryptLoop_encode some,List.nil_append]
  | decrypt => rw [input,output,oneShot_encode some,decryptLoop_encode some,List.nil_append]

theorem cryptLoop_nothing (method : MOCRYPT_METHOD) :
    cryptLoop method (chunks cryptFileBlockSize []) [] = (0,[]) := by
  rw [chunks_nil (by decide)]
  rfl

/-- The source file gets the text that is to be encrypted or decrypted. -/
def holding (disk : Disk) (source : Nat) (method : MOCRYPT_METHOD) (plain : List UInt8) : Disk :=
  disk.put source (input method plain)

def Right (disk : Disk) (source : Nat) (method : MOCRYPT_METHOD) (src dst : Path)
    (plain : List UInt8) : Prop :=
  let result := moCrypt_BASE64_File world (holding disk source method plain) method (some src) (some dst)
  result.1 = 0 ∧ result.2.read (world.entryOf dst) = some (output method plain)

/-- What the loop makes of the source once `entry` is open for writing: nothing where the entry
leads to the source too. -/
def openedText (disk : Disk) (source entry : Nat) (method : MOCRYPT_METHOD) (plain : List UInt8) :
    List UInt8 :=
  if disk.fileOf entry = some source then [] else output method plain

section Results

variable {disk : Disk} {source : Nat} {src dst : Path} (method : MOCRYPT_METHOD) {plain : List UInt8}
  (leads : disk.fileOf (world.entryOf src) = some source) (readable : world.canRead src = true)
  (more : plain ≠ [])

include leads in
omit more in
theorem cryptLoop_opened (more : plain ≠ []) (entry : Nat) :
    cryptLoop method (chunks cryptFileBlockSize
        (((holding disk source method plain).truncate entry).2.content source)) [] =
      (0,openedText disk source entry method plain) := by
  have target : ((holding disk source method plain).truncate entry).1 = source ↔
      disk.fileOf entry = some source := truncate_id (holding disk source method plain) leads
  rw [openedText]
  by_cases same : disk.fileOf entry = some source
  · have emptied := truncate_content (holding disk source method plain) entry
    rw [target.mpr same] at emptied
    rw [emptied,cryptLoop_nothing,if_pos same]
  · have apart : source ≠ ((holding disk source method plain).truncate entry).1 :=
      fun hit => same (target.mp hit.symm)
    rw [truncate_content_ne _ apart,holding,put_content,cryptLoop_output method more,if_neg same]

include leads readable in
theorem openRead_source (plain : List UInt8) : openRead world (holding disk source method plain) src = some source := by
  rw [openRead,if_pos readable]
  exact leads

include leads readable more in
/-- The result lands in the destination, unless opening that emptied the source. -/
theorem cryptFileToDiff_result (writable : world.canWrite dst = true) :
    let result := cryptFileToDiff world (holding disk source method plain) method src dst
    result.1 = 0 ∧ result.2.read (world.entryOf dst) =
      some (openedText disk source (world.entryOf dst) method plain) := by
  simp only [cryptFileToDiff,openRead_source world method leads readable,openWrite,if_pos writable,
    cryptLoop_opened world method leads more]
  refine ⟨trivial,?_⟩
  rw [Files.read,put_fileOf,truncate_fileOf,Option.map_some,put_content]

/-- The disk once the temporary file is written. -/
def cryptedDisk (disk : Disk) (source tmp : Nat) (method : MOCRYPT_METHOD) (plain : List UInt8) : Disk :=
  let opened := (holding disk source method plain).truncate tmp
  opened.2.put opened.1 (openedText disk source tmp method plain)

/-- The disk once the temporary file has been copied back and removed. -/
def sameDisk (disk : Disk) (source tmp : Nat) (method : MOCRYPT_METHOD) (plain : List UInt8) : Disk :=
  (((cryptedDisk disk source tmp method plain).put source []).put source
    (openedText disk source tmp method plain)).unlink tmp

theorem cryptedDisk_tmp (plain : List UInt8) (tmp : Nat) (leads : disk.fileOf (world.entryOf src) = some source) :
    ∃ id, (cryptedDisk disk source tmp method plain).fileOf tmp = some id ∧
      ((cryptedDisk disk source tmp method plain).put source []).content id =
        openedText disk source tmp method plain := by
  have target : ((holding disk source method plain).truncate tmp).1 = source ↔
      disk.fileOf tmp = some source := truncate_id (holding disk source method plain) leads
  refine ⟨_,truncate_fileOf (holding disk source method plain) tmp,?_⟩
  by_cases same : ((holding disk source method plain).truncate tmp).1 = source
  · rw [same,put_content,openedText,if_pos (target.mp same)]
  · rw [put_content_ne _ same,cryptedDisk,put_content]

include leads readable more in
theorem cryptFileToSame_result (tmpWritable : world.canWrite (getTmpFilepath src) = true)
    (writable : world.canWrite src = true) (tmpReadable : world.canRead (getTmpFilepath src) = true) :
    cryptFileToSame world (holding disk source method plain) method src =
      (0,sameDisk disk source (world.entryOf (getTmpFilepath src)) method plain) := by
  have loop := cryptLoop_opened world method leads more (world.entryOf (getTmpFilepath src))
  have keeps : (cryptedDisk disk source (world.entryOf (getTmpFilepath src)) method plain).fileOf
      (world.entryOf src) = some source :=
    truncate_keeps (holding disk source method plain) leads
  obtain ⟨fpTmp,tmpFile,tmpText⟩ := cryptedDisk_tmp world method plain
    (world.entryOf (getTmpFilepath src)) leads
  have crypted : ((holding disk source method plain).truncate (world.entryOf (getTmpFilepath src))).2.put
      ((holding disk source method plain).truncate (world.entryOf (getTmpFilepath src))).1
      (openedText disk source (world.entryOf (getTmpFilepath src)) method plain) =
      cryptedDisk disk source (world.entryOf (getTmpFilepath src)) method plain := rfl
  have emptied := truncate_found _ keeps
  have reopened : openRead world ((cryptedDisk disk source (world.entryOf (getTmpFilepath src)) method
      plain).put source []) (getTmpFilepath src) = some fpTmp := by
    rw [openRead,if_pos tmpReadable,put_fileOf,tmpFile]
  simp only [cryptFileToSame,openRead_source world method leads readable,openWrite,if_pos tmpWritable,
    if_pos writable,loop]
  simp only [crypted,ne_eq,not_true_eq_false,if_false,emptied,reopened,tmpText,
    chunks_flatten (by decide : 0 < cryptFileBlockSize)]
  rfl

/-- The result lands in the source file, by way of the temporary one; what else the disk holds
is as it was. -/
theorem sameDisk_read (tmp entry : Nat) :
    (sameDisk disk source tmp method plain).read entry =
      if entry = tmp then none
      else (disk.fileOf entry).map fun id =>
        if id = source then openedText disk source tmp method plain
        else if disk.fileOf tmp = some id then output method plain else disk.content id := by
  rw [sameDisk,Files.read]
  rcases eq_or_ne entry tmp with rfl | apart
  · rw [unlink_fileOf,if_pos rfl,Option.map_none]
  · rw [unlink_fileOf_ne _ apart,unlink_content,put_fileOf,put_fileOf,cryptedDisk,put_fileOf,
      truncate_fileOf_ne _ apart,if_neg apart,holding,put_fileOf,← holding]
    apply Option.map_congr
    intro id found
    have target : ((holding disk source method plain).truncate tmp).1 = id ↔
        disk.fileOf tmp = some id := truncate_id (holding disk source method plain) found
    by_cases self : id = source
    · rw [if_pos self,self,put_content]
    · rw [if_neg self,put_content_ne _ self,put_content_ne _ self]
      by_cases hit : disk.fileOf tmp = some id
      · have other : disk.fileOf tmp ≠ some source := by
          rw [hit]
          exact fun same => self (Option.some.inj same)
        rw [target.mpr hit,put_content,if_pos hit,openedText,if_neg other]
      · have apart : id ≠ ((holding disk source method plain).truncate tmp).1 :=
          fun same => hit (target.mp same.symm)
        rw [put_content_ne _ apart,truncate_content_ne _ apart,if_neg hit]
        exact put_content_ne _ self _

end Results

theorem output_ne_nil (method : MOCRYPT_METHOD) {plain : List UInt8} (more : plain ≠ []) :
    output method plain ≠ [] := by
  cases method with
  | encrypt =>
    rw [output,oneShot_encode more]
    exact encode_ne_nil more
  | decrypt => exact more

theorem output_avoids (method : MOCRYPT_METHOD) (text : List UInt8) :
    ∃ plain, plain ≠ [] ∧ output method plain ≠ text := by
  have more : List.replicate (text.length+1) (0 : UInt8) ≠ [] := by simp
  have length := encode_length (List.replicate (text.length+1) 0)
  refine ⟨_,more,fun same => ?_⟩
  have lengths := congrArg List.length same
  cases method with
  | encrypt =>
    rw [output,oneShot_encode more,length,List.length_replicate] at lengths
    omega
  | decrypt =>
    rw [output,List.length_replicate] at lengths
    omega

/-- The same-file test agrees with the disk, every file that is opened can be opened, and the
temporary file is not the source itself. -/
def Agrees (disk : Disk) (src dst : Path) : Prop :=
  let tmp := getTmpFilepath src
  world.canRead src = true ∧
    ((getFilepathSameState world src dst = (errOk,.diff) ∧ world.canWrite dst = true ∧
        disk.fileOf (world.entryOf dst) ≠ disk.fileOf (world.entryOf src)) ∨
      (getFilepathSameState world src dst = (errOk,.same) ∧ world.canWrite tmp = true ∧
        world.canWrite src = true ∧ world.canRead tmp = true ∧
        disk.fileOf (world.entryOf tmp) ≠ disk.fileOf (world.entryOf src) ∧
        world.entryOf dst ≠ world.entryOf tmp ∧ disk.fileOf (world.entryOf dst) ≠ none ∧
        (disk.fileOf (world.entryOf dst) = disk.fileOf (world.entryOf src) ∨
          disk.fileOf (world.entryOf dst) = disk.fileOf (world.entryOf tmp))))

section Exact

variable {disk : Disk} {source : Nat} {src dst : Path} (method : MOCRYPT_METHOD)

theorem file_diff {plain : List UInt8} (state : getFilepathSameState world src dst = (errOk,.diff)) :
    moCrypt_BASE64_File world (holding disk source method plain) method (some src) (some dst) =
      cryptFileToDiff world (holding disk source method plain) method src dst := by
  simp only [moCrypt_BASE64_File,cryptFile,state,errOk,ne_eq,not_true_eq_false,if_false]

theorem file_same {plain : List UInt8} (state : getFilepathSameState world src dst = (errOk,.same)) :
    moCrypt_BASE64_File world (holding disk source method plain) method (some src) (some dst) =
      cryptFileToSame world (holding disk source method plain) method src := by
  simp only [moCrypt_BASE64_File,cryptFile,state,errOk,ne_eq,not_true_eq_false,if_false]

theorem agrees_right (leads : disk.fileOf (world.entryOf src) = some source)
    (agrees : Agrees world disk src dst) {plain : List UInt8} (more : plain ≠ []) :
    Right world disk source method src dst plain := by
  obtain ⟨readable,⟨state,writable,apart⟩ | ⟨state,tmpWritable,writable,tmpReadable,tmpApart,entries,
    there,lands⟩⟩ := agrees
  · have result := cryptFileToDiff_result world method leads readable more writable
    rw [leads] at apart
    rw [openedText,if_neg apart] at result
    rwa [Right,file_diff world method state]
  · have result := cryptFileToSame_result world method leads readable more tmpWritable writable tmpReadable
    rw [leads] at tmpApart
    rw [Right,file_same world method state,result]
    refine ⟨rfl,?_⟩
    rw [sameDisk_read,if_neg entries]
    rcases lands with self | other
    · rw [self,leads,Option.map_some,if_pos rfl,openedText,if_neg tmpApart]
    · obtain ⟨id,found⟩ := Option.ne_none_iff_exists'.mp there
      rw [found] at other
      have notSource : id ≠ source := by
        rintro rfl
        exact tmpApart other.symm
      rw [found,Option.map_some,if_neg notSource,if_pos other.symm]

theorem diff_opens {plain : List UInt8}
    (ok : (cryptFileToDiff world (holding disk source method plain) method src dst).1 = 0) :
    world.canRead src = true ∧ world.canWrite dst = true := by
  constructor
  · by_contra unreadable
    simp [cryptFileToDiff,openRead,unreadable,base64ErrFileOpenFail] at ok
  · by_contra unwritable
    unfold cryptFileToDiff at ok
    split at ok
    · simp [base64ErrFileOpenFail] at ok
    · simp [openWrite,unwritable,base64ErrFileOpenFail] at ok

theorem same_opens (leads : disk.fileOf (world.entryOf src) = some source) {plain : List UInt8}
    (more : plain ≠ [])
    (ok : (cryptFileToSame world (holding disk source method plain) method src).1 = 0) :
    world.canRead src = true ∧ world.canWrite (getTmpFilepath src) = true ∧
      world.canWrite src = true ∧ world.canRead (getTmpFilepath src) = true := by
  have readable : world.canRead src = true := by
    by_contra unreadable
    simp [cryptFileToSame,openRead,unreadable,base64ErrFileOpenFail] at ok
  have opened := openRead_source world method leads readable plain
  have tmpWritable : world.canWrite (getTmpFilepath src) = true := by
    by_contra unwritable
    simp [cryptFileToSame,opened,openWrite,unwritable,base64ErrFileOpenFail] at ok
  have loop := cryptLoop_opened world method leads more (world.entryOf (getTmpFilepath src))
  have writable : world.canWrite src = true := by
    by_contra unwritable
    simp [cryptFileToSame,opened,openWrite,tmpWritable,loop,unwritable,base64ErrFileOpenFail] at ok
  refine ⟨readable,tmpWritable,writable,?_⟩
  by_contra unreadable
  have missing : ∀ disk : Disk, openRead world disk (getTmpFilepath src) = none := by
    intro disk
    rw [openRead,if_neg unreadable]
  simp [cryptFileToSame,opened,openWrite,tmpWritable,loop,writable,missing,base64ErrFileOpenFail] at ok

/-- Where a rewritten source reads right for every text, its temporary file is another file
and the output's entry leads to one of the two, not through the temporary name. -/
theorem sameDisk_entries {tmp dst : Nat}
    (reads : ∀ plain, plain ≠ [] → (sameDisk disk source tmp method plain).read dst = some (output method plain)) :
    disk.fileOf tmp ≠ some source ∧ dst ≠ tmp ∧ disk.fileOf dst ≠ none ∧
      (disk.fileOf dst = some source ∨ disk.fileOf dst = disk.fileOf tmp) := by
  simp only [sameDisk_read] at reads
  have entries : dst ≠ tmp := by
    intro same
    have removed := reads [0] (by decide)
    rw [if_pos same] at removed
    cases removed
  simp only [if_neg entries] at reads
  cases found : disk.fileOf dst with
  | none =>
    have missing := reads [0] (by decide)
    rw [found] at missing
    cases missing
  | some id =>
    simp only [found,Option.map_some,Option.some.injEq] at reads
    obtain ⟨avoiding,more,avoids⟩ := output_avoids method (disk.content id)
    have untouched := reads avoiding more
    have zeroText := reads [0] (by decide)
    by_cases self : id = source
    · rw [if_pos self] at zeroText
      refine ⟨?_,entries,by simp,.inl (by rw [self])⟩
      intro tmpSource
      rw [openedText,if_pos tmpSource] at zeroText
      exact output_ne_nil method (by decide) zeroText.symm
    · rw [if_neg self] at untouched
      by_cases other : disk.fileOf tmp = some id
      · refine ⟨?_,entries,by simp,.inr other.symm⟩
        rw [other]
        exact fun same => self (Option.some.inj same)
      · rw [if_neg other] at untouched
        exact absurd untouched.symm avoids

theorem right_agrees (leads : disk.fileOf (world.entryOf src) = some source)
    (right : ∀ plain, plain ≠ [] → Right world disk source method src dst plain) :
    Agrees world disk src dst := by
  have zero := right [0] (by decide)
  rcases getFilepathSameState_cases world src dst with failed | same | diff
  · obtain ⟨ok,_⟩ := zero
    simp [moCrypt_BASE64_File,cryptFile,failed,errMallocFailed,base64ErrGetFileDiffStateFail] at ok
  · have ok := zero.1
    rw [file_same world method same] at ok
    obtain ⟨readable,tmpWritable,writable,tmpReadable⟩ := same_opens world method leads (by decide) ok
    refine ⟨readable,.inr ⟨same,tmpWritable,writable,tmpReadable,?_⟩⟩
    rw [leads]
    apply sameDisk_entries method
    intro plain more
    have result := cryptFileToSame_result world method leads readable more tmpWritable writable tmpReadable
    have wanted := (right plain more).2
    rwa [file_same world method same,result] at wanted
  · have ok := zero.1
    rw [file_diff world method diff] at ok
    obtain ⟨readable,writable⟩ := diff_opens world method ok
    refine ⟨readable,.inl ⟨diff,writable,?_⟩⟩
    intro same
    have result := cryptFileToDiff_result world method leads readable (by decide : [(0 : UInt8)] ≠ []) writable
    have wanted := zero.2
    rw [file_diff world method diff,result.2,openedText,if_pos (same.trans leads)] at wanted
    exact output_ne_nil method (by decide) (Option.some.inj wanted).symm

end Exact

/-- Both directions are right for every text exactly where the test agrees with the disk. -/
theorem base64File_right_iff (disk : Disk) (source : Nat) (src dst : Path) (method : MOCRYPT_METHOD)
    (leads : disk.fileOf (world.entryOf src) = some source) :
    (∀ plain, plain ≠ [] → Right world disk source method src dst plain) ↔ Agrees world disk src dst :=
  ⟨right_agrees world method leads,fun agrees _ more => agrees_right world method leads agrees more⟩

/-- The file that encryption leaves is decrypted to what was encrypted, into any third path
or in place. -/
theorem base64File_roundTrip {disk : Disk} {source : Nat} {src dst out : Path} {plain : List UInt8}
    (leads : disk.fileOf (world.entryOf src) = some source) (more : plain ≠ [])
    (agrees : Agrees world disk src dst) :
    let encoded := moCrypt_BASE64_File world (holding disk source .encrypt plain) .encrypt
      (some src) (some dst)
    Agrees world encoded.2 dst out →
      let decoded := moCrypt_BASE64_File world encoded.2 .decrypt (some dst) (some out)
      encoded.1 = 0 ∧ decoded.1 = 0 ∧ decoded.2.read (world.entryOf out) = some plain := by
  intro encoded agreesAfter decoded
  obtain ⟨ok,written⟩ := agrees_right world .encrypt leads agrees more
  obtain ⟨id,found,text⟩ := (read_eq_some encoded.2).mp written
  have held : holding encoded.2 id .decrypt plain = encoded.2 := put_same encoded.2 text
  have right := agrees_right world .decrypt found agreesAfter more
  rw [Right,held] at right
  exact ⟨ok,right⟩

/-- A directory name with a space, which the shell does not enter. -/
def spaceWorld : World where
  entryOf := fun path => if path = ['a',' ','b','/','x'] then 0 else if path = ['x'] then 1 else 2
  canRead := fun _ => true
  canWrite := fun _ => true
  isDir := fun _ => true
  pwd := fun _ => ['/','d','\n']

def spaceDisk : Disk where
  fileOf := fun entry => if entry = 0 then some 0 else none
  content := fun _ => []
  next := 1
  used := by
    intro entry id leads
    split at leads
    · cases leads
      decide
    · cases leads

theorem base64File_right_iff_space :
    spaceDisk.fileOf (spaceWorld.entryOf ['a',' ','b','/','x']) = some 0 ∧
      ((∀ plain, plain ≠ [] → Right spaceWorld spaceDisk 0 .encrypt ['a',' ','b','/','x'] ['x'] plain) ↔
        Agrees spaceWorld spaceDisk ['a',' ','b','/','x'] ['x']) :=
  ⟨rfl,base64File_right_iff spaceWorld spaceDisk 0 ['a',' ','b','/','x'] ['x'] .encrypt rfl⟩

theorem space_state :
    getFilepathSameState spaceWorld ['a',' ','b','/','x'] ['x'] = (errOk,.same) := by
  have printed : readPwd ['/','d','\n'] 0 = ['/','d'] := by
    rw [readPwd]
    rfl
  simp only [getFilepathSameState,getAbsFilePath,getAbsDirPath,spaceWorld,printed]
  decide

/-- The destination is another path and no file, the code rewrites the source instead. -/
theorem base64File_space_in_directory :
    ¬Right spaceWorld spaceDisk 0 .encrypt ['a',' ','b','/','x'] ['x'] [0] := by
  intro right
  have leads : spaceDisk.fileOf (spaceWorld.entryOf ['a',' ','b','/','x']) = some 0 := rfl
  have result := cryptFileToSame_result spaceWorld .encrypt leads rfl (by decide : [(0 : UInt8)] ≠ [])
    rfl rfl rfl
  have written := right.2
  rw [file_same spaceWorld .encrypt space_state,result,sameDisk_read] at written
  cases written

end MoCodes.Crypto.Base64File
