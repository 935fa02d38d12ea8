import MoCodes.Crypto.Base64File
import MoCodes.Crypto.Rc4
import Mathlib.Algebra.Group.Nat.Defs
import Mathlib.Algebra.Group.Int.Defs

/-! moCrypt_RC4_cryptFile of moCrypt_RC4.c, called without a progress callback. fread and
fwrite transfer whole requests except at the end of a file, and a path that opens names a
regular file or a symbolic link to one; `linkLen` is the length of the link's own text,
which lstat gives as its size. `malloc` is asked once for every block. -/
namespace MoCodes.Crypto.Rc4File
open MoCodes.Lib.Blocks MoCodes.Lib.FileStore MoCodes.Lib.KeyStream
open MoCodes.Utils.File hiding errMallocFailed
open MoCodes.Crypto.Rc4
open MoCodes.Crypto.Base64File (Disk openRead openWrite)

def errGetFileDiffStateFail : Int := 0 - 20005

def errGenTmpFile : Int := 0 - 20006

def errOpenFileFailed : Int := 0 - 20007

def tempFilePrefix : Path := ['t','e','m','p','_']

/-- The file name, and the directory with its last '/'. -/
def getFileNameDirFromPath (srcFilepath : Path) : Option (Path × Path) :=
  if srcFilepath.length = 0 then none
  else if '/' ∈ srcFilepath then
    let srcFilename := srcFilepath.rtakeWhile (· != '/')
    if srcFilename.length = 0 then none else some (srcFilename,srcFilepath.rdropWhile (· != '/'))
  else some (srcFilepath,[])

def genTempDstFilepath (srcFilepath : Path) : Option Path :=
  (getFileNameDirFromPath srcFilepath).map fun names => names.2 ++ tempFilePrefix ++ names.1

/-- `st_size` is returned as an `int`. -/
def moUtils_File_getSize (linkLen : Option Nat) (size : Nat) : Int :=
  (BitVec.ofNat 32 (linkLen.getD size)).toInt

/-- The `while` over what fread returns, with what has been written. -/
def cryptFileLoop (malloc : Nat → Bool) (key : List UInt8) (keylen : Nat) :
    List (List UInt8) → Nat → List UInt8 → Int × List UInt8
  | [],_,written => (0,written)
  | readBuf::bufs,blockNum,written =>
    let crypted := moCrypt_RC4_cryptString (fun _ => malloc blockNum) (some key) keylen (some readBuf)
      readBuf.length
    if crypted.1 ≠ 0 then (crypted.1,written)
    else cryptFileLoop malloc key keylen bufs (blockNum+1) (written++crypted.2)

def cryptFileBlockly (malloc : Nat → Bool) (key : List UInt8) (keylen : Nat) (srcFilesize : Int)
    (content : List UInt8) : Int × List UInt8 :=
  if srcFilesize < 0 then (errInputParamNull,[])
  else cryptFileLoop malloc key keylen (chunks blockSize content) 0 []

/-- The blocks fread counts, none on a stream that is open for writing only. -/
def freadBlocks (readable : Bool) (content : List UInt8) : List (List UInt8) :=
  if readable then cut blockSize (content.length/blockSize) content else []

/-- Every block that is read puts one byte into the source, as `readLen` counts blocks. -/
def copyContentsToDstfile (disk : Disk) (srcFd : Nat) (blocks : List (List UInt8)) : Int × Disk :=
  let bytes := blocks.map (·.headD 0)
  (0,disk.put srcFd (bytes ++ (disk.content srcFd).drop bytes.length))

section Routines

variable (world : World) (linkLen : Path → Option Nat) (malloc : Nat → Bool)

def openUpdate (disk : Disk) (path : Path) : Option Nat :=
  if world.canRead path && world.canWrite path then disk.fileOf (world.entryOf path) else none

/-- Source and destination are open. -/
def cryptOpened (disk : Disk) (srcFilepath : Path) (srcFd dstFd : Nat) (key : List UInt8) (keylen : Nat) :
    Int × Disk :=
  let srcFilesize := moUtils_File_getSize (linkLen srcFilepath) (disk.content srcFd).length
  let result := cryptFileBlockly malloc key keylen srcFilesize (disk.content srcFd)
  (result.1,disk.put dstFd result.2)

def cryptFile (disk : Disk) (srcFilepath dstFilepath : Path) (key : List UInt8) (keylen : Nat) : Int × Disk :=
  let diffState := getFilepathSameState world srcFilepath dstFilepath
  if diffState.1 ≠ errOk then (errGetFileDiffStateFail,disk)
  else if diffState.2 = .same then
    match genTempDstFilepath srcFilepath with
    | none => (errGenTmpFile,disk)
    | some tempDstFilepath => match openUpdate world disk srcFilepath with
      | none => (errOpenFileFailed,disk)
      | some srcFd => match openWrite world disk tempDstFilepath with
        | none => (errOpenFileFailed,disk)
        | some (dstFd,opened) =>
          let crypted := cryptOpened linkLen malloc opened srcFilepath srcFd dstFd key keylen
          if crypted.1 ≠ 0 then crypted
          -- the temporary stream was opened with "wb", so the copy reads nothing
          else copyContentsToDstfile crypted.2 srcFd (freadBlocks false (crypted.2.content dstFd))
  else match openRead world disk srcFilepath with
    | none => (errOpenFileFailed,disk)
    | some srcFd => match openWrite world disk dstFilepath with
      | none => (errOpenFileFailed,disk)
      | some (dstFd,opened) => cryptOpened linkLen malloc opened srcFilepath srcFd dstFd key keylen

def moCrypt_RC4_cryptFile (disk : Disk) (pSrcFilepath pDstFilepath : Option Path)
    (pKey : Option (List UInt8)) (keyLen : Nat) : Int × Disk :=
  match pSrcFilepath,pDstFilepath,pKey with
  | some pSrcFilepath,some pDstFilepath,some pKey =>
    if isRightFormatKey keyLen then cryptFile world linkLen malloc disk pSrcFilepath pDstFilepath pKey keyLen
    else (errInvalidKey,disk)
  | _,_,_ => (errInputParamNull,disk)

end Routines

theorem getSize_nonneg_iff (linkLen : Option Nat) (size : Nat) :
    0 ≤ moUtils_File_getSize linkLen size ↔ linkLen.getD size % 2^32 < 2^31 := by
  rw [moUtils_File_getSize,BitVec.toInt_eq_toNat_cond,BitVec.toNat_ofNat]
  split <;> omega

section Loop

variable (malloc : Nat → Bool) {key : List UInt8} (keyed : 1 ≤ key.length) (bounded : key.length ≤ 256)
include keyed bounded

theorem cryptString_block {readBuf : List UInt8} (more : readBuf ≠ []) (blockNum : Nat) :
    let crypted := moCrypt_RC4_cryptString (fun _ => malloc blockNum) (some key) key.length (some readBuf)
      readBuf.length
    (malloc blockNum = true → crypted = (0,mask (· ^^^ ·) (blockStream key) readBuf)) ∧
      (malloc blockNum = false → crypted.1 = errMallocFailed) := by
  obtain ⟨ok,failed⟩ := cryptString_result (fun _ => malloc blockNum) key readBuf keyed bounded
  refine ⟨fun buffer => ok fun _ _ _ => buffer,fun missing => failed ?_⟩
  intro allocated
  have long := List.length_pos_of_ne_nil more
  have buffer : malloc blockNum = true := allocated 0 (Nat.le_refl 0) (by omega)
  rw [buffer] at missing
  cases missing

/-- The file loop crypts what is left just as the loop over the memory does. -/
theorem cryptFileLoop_result (text : List UInt8) (blockNum : Nat) (written : List UInt8) :
    let result := cryptFileLoop malloc key key.length (chunks blockSize text) blockNum written
    let whole := blockNum*blockSize+text.length
    (Allocated malloc blockNum whole → result = (0,written ++ mask (· ^^^ ·) (blockStream key) text)) ∧
      (¬Allocated malloc blockNum whole → result.1 = errMallocFailed) := by
  have positive : 0 < blockSize := by decide
  rcases eq_or_ne text [] with rfl | more
  · refine ⟨?_,fun missing => absurd ?_ missing⟩
    · intro _
      rw [chunks_nil positive]
      simp [cryptFileLoop,mask]
    · intro n later inside
      have reached := Nat.mul_le_mul_right blockSize later
      rw [List.length_nil] at inside
      omega
  · revert blockNum written
    refine last_induction (P := fun text => ∀ blockNum written,
      let result := cryptFileLoop malloc key key.length (chunks blockSize text) blockNum written
      let whole := blockNum*blockSize+text.length
      (Allocated malloc blockNum whole → result = (0,written ++ mask (· ^^^ ·) (blockStream key) text)) ∧
        (¬Allocated malloc blockNum whole → result.1 = errMallocFailed)) positive ?_ ?_ more
    · intro last more short blockNum written
      have long := List.length_pos_of_ne_nil more
      obtain ⟨ok,failed⟩ := cryptString_block malloc keyed bounded more blockNum
      simp only [chunks_last more short,cryptFileLoop]
      constructor
      · intro allocated
        simp [ok (allocated blockNum le_rfl (by omega))]
      · intro missing
        have none : malloc blockNum = false := by
          by_contra buffer
          refine missing fun n later inside => ?_
          have here : n = blockNum := by
            by_contra after
            have reached := Nat.mul_le_mul_right blockSize (by omega : blockNum+1 ≤ n)
            rw [Nat.succ_mul] at reached
            omega
          rw [here]
          exact Bool.eq_true_of_not_eq_false buffer
        simp [failed none,errMallocFailed]
    · intro first rest full _ ih blockNum written
      have filled : first ≠ [] := List.ne_nil_of_length_pos (by omega)
      obtain ⟨ok,failed⟩ := cryptString_block malloc keyed bounded filled blockNum
      have whole : blockNum*blockSize+(first++rest).length = (blockNum+1)*blockSize+rest.length := by
        rw [List.length_append,full,Nat.succ_mul,Nat.add_assoc]
      have masked : mask (· ^^^ ·) (blockStream key) (first++rest) =
          mask (· ^^^ ·) (blockStream key) first ++ mask (· ^^^ ·) (blockStream key) rest := by
        rw [mask_append]
        congr 1
        refine mask_congr fun n _ => ?_
        rw [full,blockStream,restart_add_size]
      simp only [chunks_block full positive,cryptFileLoop,whole,masked]
      rw [allocated_step malloc (by rw [Nat.succ_mul]; omega)]
      by_cases buffer : malloc blockNum = true
      · have next := ih (blockNum+1) (written ++ mask (· ^^^ ·) (blockStream key) first)
        rw [List.append_assoc] at next
        rw [ok buffer,if_neg (by simp)]
        simpa only [buffer,true_and] using next
      · have error := failed (Bool.eq_false_of_not_eq_true buffer)
        rw [if_pos (by rw [error]; decide),error]
        simp [buffer]

theorem cryptFileBlockly_result (srcFilesize : Int) (text : List UInt8) :
    let result := cryptFileBlockly malloc key key.length srcFilesize text
    (0 ≤ srcFilesize ∧ Allocated malloc 0 text.length →
        result = (0,mask (· ^^^ ·) (blockStream key) text)) ∧
      (¬(0 ≤ srcFilesize ∧ Allocated malloc 0 text.length) → result.1 ≠ 0) := by
  obtain ⟨ok,failed⟩ := cryptFileLoop_result malloc keyed bounded text 0 []
  rw [Nat.zero_mul,Nat.zero_add] at ok failed
  rw [List.nil_append] at ok
  rw [cryptFileBlockly]
  constructor
  · intro ⟨sized,allocated⟩
    rw [if_neg (Int.not_lt.mpr sized),ok allocated]
  · intro missing
    by_cases negative : srcFilesize < 0
    · rw [if_pos negative]
      decide
    · rw [if_neg negative,failed fun allocated => missing ⟨Int.not_lt.mp negative,allocated⟩]
      decide

end Loop

/-- The path that is opened for writing, where everything that is opened can be. -/
def writtenPath (world : World) (src dst : Path) : Option Path :=
  if getFilepathSameState world src dst = (errOk,.diff) then
    if world.canRead src && world.canWrite dst then some dst else none
  else if getFilepathSameState world src dst = (errOk,.same) then
    (genTempDstFilepath src).filter fun tmp => world.canRead src && world.canWrite src && world.canWrite tmp
  else none

/-- What is written under `target` can be read under `dst`. -/
def Reaches (disk : Disk) (dst target : Nat) : Prop :=
  dst = target ∨ ∃ id, disk.fileOf dst = some id ∧ disk.fileOf target = some id

/-- The result for a source of `size` bytes goes to the destination: the test takes the paths
for different, or the temporary file happens to be the destination. -/
def Served (world : World) (linkLen : Path → Option Nat) (disk : Disk) (src dst : Path) (size : Nat) : Prop :=
  (∃ target, writtenPath world src dst = some target ∧
    Reaches disk (world.entryOf dst) (world.entryOf target)) ∧
  0 ≤ moUtils_File_getSize (linkLen src) size

def holding (disk : Disk) (content : Nat → List UInt8) : Disk := { disk with content := content }

section Results

variable (world : World) (linkLen : Path → Option Nat) (malloc : Nat → Bool) (key : List UInt8)

/-- Whatever the other files hold, the destination gets `wanted`. -/
def Produces (disk : Disk) (source : Nat) (src dst : Path) (text wanted : List UInt8) : Prop :=
  ∀ content : Nat → List UInt8, content source = text →
    let result := moCrypt_RC4_cryptFile world linkLen malloc (holding disk content) (some src) (some dst)
      (some key) key.length
    result.1 = 0 ∧ result.2.read (world.entryOf dst) = some wanted

/-- The file routine gives what the memory routine gives, and both undo themselves. -/
def Right (disk : Disk) (source : Nat) (src dst : Path) (text : List UInt8) : Prop :=
  let crypted := moCrypt_RC4_cryptString malloc (some key) key.length (some text) text.length
  Produces world linkLen malloc key disk source src dst text crypted.2 ∧
    Produces world linkLen malloc key disk source src dst crypted.2 text ∧
    moCrypt_RC4_cryptString malloc (some key) key.length (some crypted.2) crypted.2.length = (0,text)

variable {world} {disk : Disk} {source : Nat} {src dst : Path}
  (leads : disk.fileOf (world.entryOf src) = some source)

include leads in
theorem cryptFile_written :
    let result := cryptFile world linkLen malloc disk src dst key key.length
    (∀ target, writtenPath world src dst = some target →
      let opened := disk.truncate (world.entryOf target)
      result = cryptOpened linkLen malloc opened.2 src source opened.1 key key.length) ∧
    (writtenPath world src dst = none → result.1 ≠ 0) := by
  simp only [cryptFile,writtenPath]
  rcases getFilepathSameState_cases world src dst with failed | same | diff
  · simp [failed,errOk,Utils.File.errMallocFailed,errGetFileDiffStateFail]
  · simp only [same,ne_eq,not_true_eq_false,if_false,if_true,Prod.mk.injEq,true_and,reduceCtorEq]
    cases named : genTempDstFilepath src with
    | none => simp [errGenTmpFile]
    | some tmp =>
      by_cases opens : (world.canRead src && world.canWrite src) = true
      · by_cases writable : world.canWrite tmp = true
        · simp only [openUpdate,openWrite,opens,writable,leads,Option.filter_some]
          refine ⟨?_,by simp⟩
          rintro target ⟨⟩
          simp only [if_true]
          split
          · rfl
          · rename_i ok
            simp only [freadBlocks,copyContentsToDstfile]
            exact Prod.ext (not_not.mp ok).symm (put_same _ rfl)
        · simp [openUpdate,openWrite,opens,writable,leads,errOpenFileFailed]
      · simp [openUpdate,opens,errOpenFileFailed]
  · simp only [diff,ne_eq,not_true_eq_false,if_false,if_true,reduceCtorEq]
    by_cases readable : world.canRead src = true
    · by_cases writable : world.canWrite dst = true
      · simp [openRead,openWrite,readable,writable,leads]
      · simp [openRead,openWrite,readable,writable,leads,errOpenFileFailed]
    · simp [openRead,readable,errOpenFileFailed]

variable {key} (other : disk.fileOf (world.entryOf dst) ≠ some source)
  (keyed : 1 ≤ key.length) (bounded : key.length ≤ 256)

include leads keyed bounded in
/-- With the target another file than the source, the target gets the masked source. -/
theorem cryptOpened_result {target : Nat} (apart : disk.fileOf target ≠ some source) :
    let opened := disk.truncate target
    let text := disk.content source
    let result := cryptOpened linkLen malloc opened.2 src source opened.1 key key.length
    (0 ≤ moUtils_File_getSize (linkLen src) text.length ∧ Allocated malloc 0 text.length →
        result = (0,opened.2.put opened.1 (mask (· ^^^ ·) (blockStream key) text))) ∧
      (¬(0 ≤ moUtils_File_getSize (linkLen src) text.length ∧ Allocated malloc 0 text.length) →
        result.1 ≠ 0) := by
  intro opened text result
  have untouched : source ≠ opened.1 := fun hit => apart ((truncate_id disk leads).mp hit.symm)
  have kept : opened.2.content source = text := truncate_content_ne disk untouched
  obtain ⟨ok,failed⟩ := cryptFileBlockly_result malloc keyed bounded
    (moUtils_File_getSize (linkLen src) text.length) text
  simp only [result,cryptOpened,kept]
  exact ⟨fun sized => by rw [ok sized],failed⟩

include keyed bounded in
theorem cryptFile_formatted :
    moCrypt_RC4_cryptFile world linkLen malloc disk (some src) (some dst) (some key) key.length =
      cryptFile world linkLen malloc disk src dst key key.length := by
  have right : isRightFormatKey key.length := by simp [isRightFormatKey,keyMinLen,keyMaxLen,keyed,bounded]
  rw [moCrypt_RC4_cryptFile,if_pos right]

include leads other keyed bounded in
theorem served_produces {text : List UInt8} (served : Served world linkLen disk src dst text.length)
    (allocated : Allocated malloc 0 text.length) :
    Produces world linkLen malloc key disk source src dst text (mask (· ^^^ ·) (blockStream key) text) := by
  intro content held result
  obtain ⟨⟨target,written,reaches⟩,sized⟩ := served
  have apart : disk.fileOf (world.entryOf target) ≠ some source := by
    rcases reaches with same | ⟨id,found,there⟩
    · rwa [← same]
    · rw [there,← found]
      exact other
  have holds : (holding disk content).fileOf (world.entryOf src) = some source := leads
  have opened := (cryptFile_written linkLen malloc key holds).1 target written
  have done := (cryptOpened_result linkLen malloc holds keyed bounded apart).1
  simp only [show (holding disk content).content source = text from held] at done
  simp only [result,cryptFile_formatted linkLen malloc keyed bounded,opened,done ⟨sized,allocated⟩]
  exact ⟨trivial,truncate_put_read_same (holding disk content) _ reaches⟩

include leads other keyed bounded in
/-- Where the destination is right whatever the other files hold, it is what was written. -/
theorem produces_served {text wanted : List UInt8}
    (produces : Produces world linkLen malloc key disk source src dst text wanted) :
    Served world linkLen disk src dst text.length ∧ Allocated malloc 0 text.length := by
  have holds : ∀ content, (holding disk content).fileOf (world.entryOf src) = some source :=
    fun _ => leads
  cases written : writtenPath world src dst with
  | none =>
    have failed := (cryptFile_written linkLen malloc key (holds fun _ => text)).2 written
    obtain ⟨ok,_⟩ := produces (fun _ => text) rfl
    rw [cryptFile_formatted linkLen malloc keyed bounded] at ok
    exact absurd ok failed
  | some target =>
    have opened : ∀ content : Nat → List UInt8,
        moCrypt_RC4_cryptFile world linkLen malloc (holding disk content) (some src) (some dst)
          (some key) key.length =
        cryptOpened linkLen malloc ((holding disk content).truncate (world.entryOf target)).2 src source
          ((holding disk content).truncate (world.entryOf target)).1 key key.length := by
      intro content
      rw [cryptFile_formatted linkLen malloc keyed bounded]
      exact (cryptFile_written linkLen malloc key (holds content)).1 target written
    have reaches : Reaches disk (world.entryOf dst) (world.entryOf target) := by
      by_contra astray
      rw [Reaches,not_or] at astray
      obtain ⟨entries,files⟩ := astray
      -- a file the run does not touch keeps anything, so also something that is not wanted
      have untouched : ∀ content : Nat → List UInt8, content source = text →
          (holding disk content).read (world.entryOf dst) = some wanted := by
        intro content held
        have right := (produces content held).2
        rw [opened] at right
        exact (truncate_put_read_apart (holding disk content) _ entries
          fun id found there => files ⟨id,found,there⟩).symm.trans right
      cases found : disk.fileOf (world.entryOf dst) with
      | none =>
        have missing := untouched (fun _ => text) rfl
        simp [Files.read,holding,found] at missing
      | some id =>
        have distinct : source ≠ id := fun same => other (by rw [found,same])
        have filled := untouched (Function.update (fun _ => text) id (0::wanted))
          (Function.update_of_ne distinct _ _)
        simp [Files.read,holding,found] at filled
    have apart : disk.fileOf (world.entryOf target) ≠ some source := by
      rcases reaches with same | ⟨id,found,there⟩
      · rwa [← same]
      · rw [there,← found]
        exact other
    have done := (cryptOpened_result linkLen malloc (holds fun _ => text) keyed bounded apart).2
    obtain ⟨ok,_⟩ := produces (fun _ => text) rfl
    rw [opened] at ok
    have sized := not_not.mp fun missing => done missing ok
    exact ⟨⟨⟨target,written,reaches⟩,sized.1⟩,sized.2⟩

end Results

/-- What the first run leaves in its destination a second run turns back, into any third file. -/
theorem rc4File_roundTrip {world : World} {linkLen : Path → Option Nat} {malloc : Nat → Bool}
    {key : List UInt8} {disk : Disk} {source : Nat} {src dst back : Path}
    (leads : disk.fileOf (world.entryOf src) = some source)
    (other : disk.fileOf (world.entryOf dst) ≠ some source)
    (keyed : 1 ≤ key.length) (bounded : key.length ≤ 256)
    (served : Served world linkLen disk src dst (disk.content source).length)
    (allocated : Allocated malloc 0 (disk.content source).length) :
    let first := moCrypt_RC4_cryptFile world linkLen malloc disk (some src) (some dst) (some key) key.length
    first.2.fileOf (world.entryOf back) ≠ first.2.fileOf (world.entryOf dst) →
    Served world linkLen first.2 dst back (disk.content source).length →
    let second := moCrypt_RC4_cryptFile world linkLen malloc first.2 (some dst) (some back) (some key)
      key.length
    first.1 = 0 ∧ second.1 = 0 ∧ second.2.read (world.entryOf back) = some (disk.content source) := by
  intro first third servedBack second
  have undo : ∀ letter symbol : UInt8, letter ^^^ symbol ^^^ symbol = letter := by
    intro letter symbol
    rw [UInt8.xor_assoc,UInt8.xor_self,UInt8.xor_zero]
  obtain ⟨ok,written⟩ := served_produces linkLen malloc leads other keyed bounded served allocated
    disk.content rfl
  obtain ⟨id,found,text⟩ := (read_eq_some first.2).mp written
  have same : (mask (· ^^^ ·) (blockStream key) (disk.content source)).length =
      (disk.content source).length := mask_length _
  rw [← same] at servedBack allocated
  obtain ⟨okBack,restored⟩ := served_produces linkLen malloc found (by rwa [found] at third) keyed bounded
    servedBack allocated first.2.content text
  rw [mask_mask undo] at restored
  exact ⟨ok,okBack,restored⟩

def plainWorld : World where
  entryOf := fun path => if path = ['s'] then 0 else 1
  canRead := fun _ => true
  canWrite := fun _ => true
  isDir := fun _ => true
  pwd := fun _ => ['/','\n']

theorem plainDisk_used (entry id : Nat) (leads : (if entry = 0 then some 0 else none) = some id) : id < 1 := by
  split at leads
  · cases leads
    decide
  · cases leads

def plainDisk : Disk where
  fileOf := fun entry => if entry = 0 then some 0 else none
  content := fun _ => []
  next := 1
  used := plainDisk_used

end MoCodes.Crypto.Rc4File
