import MoCodes.CryptFileTool.ReqQueue
import MoCodes.Crypto.Rc4File
import MoCodes.Utils.SameFile

/-! What the requests of cftProt.cpp do to the files. Every crypt thread is created, and `doRequest`
returns when the thread of its own request has ended, with the result of that thread. -/
namespace MoCodes.CryptFileTool.CftRequest
open Lib.FileStore Lib.KeyStream Utils.File Crypto
open Utils.SameFile (last_slash getDirAndFilename_slash getDirAndFilename_plain)
open Crypto.Base64File (Disk openRead openWrite oneShot cryptLoop_output cryptLoop_nothing)

def mocryptFilepathLen : Nat := 256

def cftProtCipherFileSuffix : List UInt8 := [46,99,102,116,67,105,112,104,101,114]

def cftProtCipherFileSuffixLen : Nat := 10

def cftProtPlainFileSuffix : List UInt8 := [46,99,102,116,80,108,97,105,110]

def cftProtPlainFileSuffixLen : Nat := 9

def cftProtSuffix : MocryptMethod → List UInt8 × Nat
  | .encrypt => (cftProtCipherFileSuffix,cftProtCipherFileSuffixLen)
  | .decrypt => (cftProtPlainFileSuffix,cftProtPlainFileSuffixLen)

def mocryptMethod : MocryptMethod → MOCRYPT_METHOD
  | .encrypt => .encrypt
  | .decrypt => .decrypt

def pathOf (filepath : List UInt8) : Path := filepath.map fun byte => Char.ofNat byte.toNat

/-- There is no result where sprintf puts the '\0' behind the array, which the check lets pass. -/
def getDstFilepath (pSrcFilepath : List UInt8) (method : MocryptMethod) : Option (Int × List UInt8) :=
  let suffix := cftProtSuffix method
  if pSrcFilepath.length+suffix.2 > mocryptFilepathLen then some (cftProtInputInvalid,[])
  else
    let pDstFilepath := pSrcFilepath ++ suffix.1
    if pDstFilepath.length < mocryptFilepathLen then some (0,pDstFilepath) else none

section Requests

variable (world : World) (linkLen : Path → Option Nat) (malloc : Nat → Bool)

/-- `doRequest` waits for ever for a BASE64 thread that cannot compare the paths. -/
def doBase64Request (disk : Disk) (pSrcFilepath : List UInt8) (method : MocryptMethod) : Option (Int × Disk) :=
  (getDstFilepath pSrcFilepath method).bind fun (ret,pDstFilepath) =>
    if ret ≠ 0 then some (ret,disk)
    else
      let crypted := Base64File.moCrypt_BASE64_File world disk (mocryptMethod method) (some (pathOf pSrcFilepath))
        (some (pathOf pDstFilepath))
      if crypted.1 = base64ErrGetFileDiffStateFail then none else some crypted

def doRc4Request (disk : Disk) (pSrcFilepath pPasswd : List UInt8) (method : MocryptMethod) : Option (Int × Disk) :=
  (getDstFilepath pSrcFilepath method).map fun (ret,pDstFilepath) =>
    if ret ≠ 0 then (ret,disk)
    else Rc4File.moCrypt_RC4_cryptFile world linkLen malloc disk (some (pathOf pSrcFilepath))
      (some (pathOf pDstFilepath)) (some pPasswd) pPasswd.length

def doRequest (disk : Disk) (req : CftRequestInfo) : Option (Int × Disk) :=
  match req.algoNo with
  | .base64 => doBase64Request world disk req.srcFilepath req.cryptMethod
  | .rc4 => doRc4Request world linkLen malloc disk req.srcFilepath req.passwd req.cryptMethod
  | .des => some (cftProtInputInvalid,disk)
  | .des3 => some (cftProtInputInvalid,disk)

/-- The values of `doRequest` for the requests that are taken; the first error clears the queue. -/
def thDoRequests (disk : Disk) : List CftRequestInfo → Option (List Int × Disk)
  | [] => some ([],disk)
  | req :: rest =>
    (doRequest world linkLen malloc disk req).bind fun (ret,after) =>
      if ret ≠ 0 then some ([ret],after)
      else (thDoRequests after rest).map fun (rets,last) => (0 :: rets,last)

end Requests

theorem cftProtSuffix_length (method : MocryptMethod) : (cftProtSuffix method).1.length = (cftProtSuffix method).2 := by
  cases method <;> rfl

theorem getDstFilepath_ok {pSrcFilepath : List UInt8} {method : MocryptMethod}
    (room : pSrcFilepath.length+(cftProtSuffix method).2 < mocryptFilepathLen) :
    getDstFilepath pSrcFilepath method = some (0,pSrcFilepath ++ (cftProtSuffix method).1) := by
  have short : (pSrcFilepath ++ (cftProtSuffix method).1).length < mocryptFilepathLen := by
    rwa [List.length_append,cftProtSuffix_length]
  rw [getDstFilepath,if_neg (not_lt.mpr room.le),if_pos short]

/-- The check is short by the '\0': paths of exactly 256 bytes leave the array. -/
theorem getDstFilepath_none_iff (pSrcFilepath : List UInt8) (method : MocryptMethod) :
    getDstFilepath pSrcFilepath method = none ↔
      (pSrcFilepath ++ (cftProtSuffix method).1).length = mocryptFilepathLen := by
  simp only [getDstFilepath,List.length_append,cftProtSuffix_length]
  split_ifs
  · refine iff_of_false (by simp) ?_
    omega
  · refine iff_of_false (by simp) ?_
    omega
  · refine iff_of_true rfl ?_
    omega

section Paths

variable {filepath suffix : List UInt8}

theorem pathOf_append : pathOf (filepath ++ suffix) = pathOf filepath ++ pathOf suffix := List.map_append

/-- A suffix without a slash stays in the directory. -/
theorem getDirAndFilename_append (path : Path) {name : Path} (plain : '/' ∉ name) :
    getDirAndFilename (path ++ name) = ((getDirAndFilename path).1,(getDirAndFilename path).2 ++ name) := by
  by_cases slash : '/' ∈ path
  · obtain ⟨front,last,rfl,plain'⟩ := last_slash slash
    have joined : '/' ∉ last ++ name := by
      rw [List.mem_append,not_or]
      exact ⟨plain',plain⟩
    rw [List.append_assoc,List.cons_append,getDirAndFilename_slash joined,
      getDirAndFilename_slash plain']
  · have joined : '/' ∉ path ++ name := by
      rw [List.mem_append,not_or]
      exact ⟨slash,plain⟩
    rw [getDirAndFilename_plain joined,getDirAndFilename_plain slash]

theorem pathOf_suffix (method : MocryptMethod) :
    '/' ∉ pathOf (cftProtSuffix method).1 ∧ pathOf (cftProtSuffix method).1 ≠ [] := by
  cases method <;> decide

/-- The two paths of a request lie in one directory, so the comparison never fails to tell them apart. -/
theorem getFilepathSameState_suffix {world : World} {path name : Path} (plain : '/' ∉ name) (more : name ≠ [])
    (dir : world.isDir (getDirAndFilename path).1 = true) :
    getFilepathSameState world path (path ++ name) = (errOk,.diff) := by
  have longer : (getDirAndFilename path).2 ≠ (getDirAndFilename path).2 ++ name := fun same =>
    more (List.self_eq_append_right.mp same)
  rw [getFilepathSameState,if_neg fun same => more (List.self_eq_append_right.mp same)]
  simp [getAbsFilePath,getDirAndFilename_append path plain,getAbsDirPath,dir,longer]

end Paths

def entryOf (world : World) (filepath : List UInt8) : Nat := world.entryOf (pathOf filepath)

def cipherText (algoNo : MoCftAlgo) (passwd text : List UInt8) : List UInt8 :=
  match algoNo with
  | .rc4 => mask (· ^^^ ·) (Rc4.blockStream passwd) text
  | _ => oneShot text

/-- What a request finds and what it leaves, by the plain text of the two. -/
def foundText (algoNo : MoCftAlgo) (passwd : List UInt8) (method : MocryptMethod) (plain : List UInt8) : List UInt8 :=
  match method with
  | .encrypt => plain
  | .decrypt => cipherText algoNo passwd plain

def leftText (algoNo : MoCftAlgo) (passwd : List UInt8) (method : MocryptMethod) (plain : List UInt8) : List UInt8 :=
  match method with
  | .encrypt => cipherText algoNo passwd plain
  | .decrypt => plain

/-- The algorithm is supported, and a file of this size can be crypted with the key. -/
def Crypts (linkLen : Path → Option Nat) (malloc : Nat → Bool) (algoNo : MoCftAlgo) (passwd filepath : List UInt8)
    (size : Nat) : Prop :=
  match algoNo with
  | .base64 => True
  | .rc4 => (1 ≤ passwd.length ∧ passwd.length ≤ 256) ∧
    0 ≤ Rc4File.moUtils_File_getSize (linkLen (pathOf filepath)) size ∧ Rc4.Allocated malloc 0 size
  | .des => False
  | .des3 => False

structure Ready (world : World) (filepath : List UInt8) (method : MocryptMethod) : Prop where
  room : filepath.length+(cftProtSuffix method).2 < mocryptFilepathLen
  dir : world.isDir (getDirAndFilename (pathOf filepath)).1 = true
  readable : world.canRead (pathOf filepath) = true
  writable : world.canWrite (pathOf (filepath ++ (cftProtSuffix method).1)) = true

section Steps

variable {world : World} {linkLen : Path → Option Nat} {malloc : Nat → Bool} {disk : Disk} {src dst : Path}
  (state : getFilepathSameState world src dst = (errOk,.diff)) (readable : world.canRead src = true)
  (writable : world.canWrite dst = true)
  (apart : ∀ id, disk.fileOf (world.entryOf src) = some id → disk.fileOf (world.entryOf dst) ≠ some id)

include state readable writable apart

theorem base64_write (method : MOCRYPT_METHOD) {plain : List UInt8}
    (found : disk.read (world.entryOf src) = some (Base64File.input method plain)) :
    Base64File.moCrypt_BASE64_File world disk method (some src) (some dst) =
      (0,disk.write (world.entryOf dst) (Base64File.output method plain)) := by
  obtain ⟨id,leads,text⟩ := (read_eq_some disk).mp found
  have untouched : id ≠ (disk.truncate (world.entryOf dst)).1 := fun hit =>
    apart id leads ((truncate_id disk leads).mp hit.symm)
  have kept := (truncate_content_ne disk untouched).trans text
  have looped : Base64File.cryptLoop method
      (Lib.Blocks.chunks Base64File.cryptFileBlockSize (Base64File.input method plain)) [] =
        (0,Base64File.output method plain) := by
    rcases eq_or_ne plain [] with rfl | more
    · cases method <;> exact cryptLoop_nothing _
    · exact cryptLoop_output method more
  simp only [Base64File.moCrypt_BASE64_File,Base64File.cryptFile,state,errOk,ne_eq,not_true_eq_false,if_false,
    Base64File.cryptFileToDiff,openRead,openWrite,if_pos readable,if_pos writable,leads,kept,looped]
  rfl

theorem rc4_write {key text : List UInt8} (keyed : 1 ≤ key.length) (bounded : key.length ≤ 256)
    (sized : 0 ≤ Rc4File.moUtils_File_getSize (linkLen src) text.length)
    (allocated : Rc4.Allocated malloc 0 text.length) (found : disk.read (world.entryOf src) = some text) :
    Rc4File.moCrypt_RC4_cryptFile world linkLen malloc disk (some src) (some dst) (some key) key.length =
      (0,disk.write (world.entryOf dst) (mask (· ^^^ ·) (Rc4.blockStream key) text)) := by
  obtain ⟨id,leads,rfl⟩ := (read_eq_some disk).mp found
  have written : Rc4File.writtenPath world src dst = some dst := by
    rw [Rc4File.writtenPath,if_pos state,readable,writable]
    rfl
  have opened := (Rc4File.cryptFile_written linkLen malloc key leads).1 dst written
  have crypted := (Rc4File.cryptOpened_result linkLen malloc leads keyed bounded (apart id leads)).1 ⟨sized,allocated⟩
  rw [Rc4File.cryptFile_formatted linkLen malloc keyed bounded,opened,crypted]
  rfl

end Steps

section Request

variable {world : World} {linkLen : Path → Option Nat} {malloc : Nat → Bool} {disk : Disk} {filepath : List UInt8}
  {method : MocryptMethod}

theorem rc4_left (passwd plain : List UInt8) :
    mask (· ^^^ ·) (Rc4.blockStream passwd) (foundText .rc4 passwd method plain) = leftText .rc4 passwd method plain := by
  cases method with
  | encrypt => rfl
  | decrypt =>
    apply mask_mask
    intro letter symbol
    rw [UInt8.xor_assoc,UInt8.xor_self,UInt8.xor_zero]

/-- A request writes the one file it is to write. -/
theorem doRequest_write (ready : Ready world filepath method) {algoNo : MoCftAlgo} {passwd plain : List UInt8}
    (crypts : Crypts linkLen malloc algoNo passwd filepath (foundText algoNo passwd method plain).length)
    (found : disk.read (entryOf world filepath) = some (foundText algoNo passwd method plain))
    (apart : ∀ id, disk.fileOf (entryOf world filepath) = some id →
      disk.fileOf (entryOf world (filepath ++ (cftProtSuffix method).1)) ≠ some id) :
    doRequest world linkLen malloc disk ⟨filepath,passwd,algoNo,method⟩ =
      some (0,disk.write (entryOf world (filepath ++ (cftProtSuffix method).1)) (leftText algoNo passwd method plain)) := by
  have dst := getDstFilepath_ok ready.room
  have state := getFilepathSameState_suffix (pathOf_suffix method).1 (pathOf_suffix method).2 ready.dir
  rw [← pathOf_append] at state
  cases algoNo with
  | base64 =>
    have input : foundText .base64 passwd method plain = Base64File.input (mocryptMethod method) plain := by
      cases method <;> rfl
    have output : leftText .base64 passwd method plain = Base64File.output (mocryptMethod method) plain := by
      cases method <;> rfl
    have crypted := base64_write state ready.readable ready.writable apart (mocryptMethod method) (input ▸ found)
    simp only [doRequest,doBase64Request,dst,Option.bind_some,ne_eq,not_true_eq_false,if_false,crypted,output]
    rfl
  | rc4 =>
    obtain ⟨⟨keyed,bounded⟩,sized,allocated⟩ := crypts
    have crypted := rc4_write state ready.readable ready.writable apart keyed bounded sized allocated found
    simp only [doRequest,doRc4Request,dst,Option.map_some,ne_eq,not_true_eq_false,if_false,crypted,rc4_left]
    rfl
  | des => exact crypts.elim
  | des3 => exact crypts.elim

end Request

def cipherFile (file : List UInt8) : List UInt8 := file ++ (cftProtSuffix .encrypt).1

def plainFile (file : List UInt8) : List UInt8 := cipherFile file ++ (cftProtSuffix .decrypt).1

/-- The entries that the requests for the files write. -/
def targets (world : World) (files : List (List UInt8)) : List Nat :=
  files.map (fun file => entryOf world (cipherFile file)) ++ files.map fun file => entryOf world (plainFile file)

/-- The files can be encrypted and decrypted beside each other. -/
structure Batch (world : World) (files : List (List UInt8)) (entries : List Nat) : Prop where
  encrypts : ∀ file ∈ files, Ready world file .encrypt
  decrypts : ∀ file ∈ files, Ready world (cipherFile file) .decrypt
  sources : ∀ file ∈ files, entryOf world file ∈ entries ∧ entryOf world file ∉ targets world files
  among : ∀ entry ∈ targets world files, entry ∈ entries
  distinct : (targets world files).Nodup

section Batches

variable {world : World} {linkLen : Path → Option Nat} {malloc : Nat → Bool} {entries : List Nat}

theorem thDoRequests_ok {disk next : Disk} {req : CftRequestInfo} (done : doRequest world linkLen malloc disk req = some (0,next))
    (rest : List CftRequestInfo) : thDoRequests world linkLen malloc disk (req :: rest) =
      (thDoRequests world linkLen malloc next rest).map fun (rets,last) => (0 :: rets,last) := by
  rw [thDoRequests,done]
  rfl

theorem thDoRequests_append {front : List CftRequestInfo} {disk after : Disk} (rest : List CftRequestInfo)
    (ok : thDoRequests world linkLen malloc disk front = some (List.replicate front.length 0,after)) :
    thDoRequests world linkLen malloc disk (front ++ rest) =
      (thDoRequests world linkLen malloc after rest).map fun (rets,last) => (List.replicate front.length 0 ++ rets,last) := by
  induction front generalizing disk with
  | nil =>
    cases ok
    exact Option.map_id'.symm
  | cons req front ih =>
    obtain ⟨⟨ret,next⟩,done,served⟩ := Option.bind_eq_some_iff.mp ok
    rw [List.length_cons,List.replicate_succ] at served ⊢
    by_cases good : ret = 0
    · obtain rfl := good
      obtain ⟨⟨rets,last⟩,served,same⟩ := Option.map_eq_some_iff.mp served
      cases same
      rw [List.cons_append,thDoRequests_ok done,ih served,Option.map_map]
      rfl
    · dsimp only at served
      rw [if_pos good,Option.some.injEq,Prod.mk.injEq,List.cons.injEq] at served
      exact absurd served.1.1 good

/-- Requests that each write a file of their own leave the other files as they are. -/
theorem thDoRequests_each {files : List (List UInt8)} {request : List UInt8 → CftRequestInfo}
    {source target : List UInt8 → Nat} {found left : List UInt8 → List UInt8}
    (does : ∀ file ∈ files, ∀ disk : Disk, disk.Separate entries → disk.read (source file) = some (found file) →
      doRequest world linkLen malloc disk (request file) = some (0,disk.write (target file) (left file)))
    (sources : ∀ file ∈ files, source file ∈ entries ∧ source file ∉ files.map target)
    (among : ∀ file ∈ files, target file ∈ entries) (distinct : (files.map target).Nodup) {disk : Disk}
    (separate : disk.Separate entries) (holds : ∀ file ∈ files, disk.read (source file) = some (found file)) :
    ∃ after, thDoRequests world linkLen malloc disk (files.map request) = some (List.replicate files.length 0,after) ∧
      after.Separate entries ∧ (∀ file ∈ files, after.read (target file) = some (left file)) ∧
      ∀ entry ∈ entries, entry ∉ files.map target → after.read entry = disk.read entry := by
  induction files generalizing disk with
  | nil => exact ⟨disk,rfl,separate,by simp,fun _ _ _ => rfl⟩
  | cons file files ih =>
    have here := @List.mem_cons_self _ file files
    have behind {other : List UInt8} (member : other ∈ files) : other ∈ file :: files := List.mem_cons_of_mem file member
    obtain ⟨alone,distinct⟩ := List.nodup_cons.mp distinct
    have first := does file here disk separate (holds file here)
    have next := separate.write (among file here) (left file)
    have still (other : List UInt8) (member : other ∈ files) :
        (disk.write (target file) (left file)).read (source other) = some (found other) := by
      have apart : source other ≠ target file := fun same => (sources other (behind member)).2 (by simp [same])
      rw [separate.read_write (among file here) _ (sources other (behind member)).1,if_neg apart]
      exact holds other (behind member)
    obtain ⟨after,served,kept,written,others⟩ := ih (fun other member => does other (behind member))
      (fun other member => ⟨(sources other (behind member)).1,
        fun inside => (sources other (behind member)).2 (List.mem_cons_of_mem _ inside)⟩)
      (fun other member => among other (behind member)) distinct next still
    refine ⟨after,?_,kept,?_,?_⟩
    · rw [List.map_cons,thDoRequests_ok first,served]
      rfl
    · intro other member
      rcases List.mem_cons.mp member with rfl | member
      · rw [others _ (among other here) alone,separate.read_write (among other here) _ (among other here),if_pos rfl]
      · exact written other member
    · intro entry member outside
      rw [List.map_cons,List.mem_cons,not_or] at outside
      rw [others entry member outside.2,separate.read_write (among file here) _ member,if_neg outside.1]

end Batches

/-- Every path is an entry of its own length. -/
def lengthWorld : World := ⟨List.length,fun _ => true,fun _ => true,fun _ => true,fun _ => ['/','\n']⟩

def twoFiles : Disk where
  fileOf entry := if entry = 1 then some 0 else if entry = 2 then some 1 else none
  content id := if id = 0 then [7] else [8,9]
  next := 2
  used entry id leads := by
    split_ifs at leads
    all_goals cases leads; decide

theorem twoFiles_separate (entries : List Nat) : twoFiles.Separate entries := by
  intro entry _ other _ id leads leads'
  simp only [twoFiles] at leads leads'
  split_ifs at leads leads'
  all_goals first | omega | (cases leads; cases leads')

end MoCodes.CryptFileTool.CftRequest
