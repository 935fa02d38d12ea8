import MoCodes.Crypto.Rc4File
import MoCodes.Utils.SameFile

/-! What cryptFile of moCrypt_RC4.c and of moCrypt_BASE64.c have open at the same time when the path routines tell
source and destination apart. -/
namespace MoCodes.Crypto.SeparateFiles
open Lib.FileStore Lib.PathTree Utils.File Utils.SameFile Base64File

/-- The source and a destination of its own. -/
def separate (world : World) (disk : Disk) (srcFilepath dstFilepath : Path) : Option (Nat × Nat) :=
  if getFilepathSameState world srcFilepath dstFilepath = (errOk,.diff) then
    match openRead world disk srcFilepath with
    | none => none
    | some srcFd => (openWrite world disk dstFilepath).map fun opened => (srcFd,opened.1)
  else none

section Open

variable {world : World} {disk : Disk} {srcFilepath dstFilepath : Path} {srcFd dstFd : Nat}

theorem separate_some (opens : separate world disk srcFilepath dstFilepath = some (srcFd,dstFd)) :
    getFilepathSameState world srcFilepath dstFilepath = (errOk,.diff) ∧ openRead world disk srcFilepath = some srcFd ∧
      ∃ opened, openWrite world disk dstFilepath = some (dstFd,opened) := by
  rw [separate] at opens
  split at opens
  · rename_i state
    cases reads : openRead world disk srcFilepath with
    | none =>
      rw [reads] at opens
      cases opens
    | some fd =>
      rw [reads] at opens
      obtain ⟨⟨fd,opened⟩,writes,same⟩ := Option.map_eq_some_iff.mp opens
      obtain ⟨rfl,rfl⟩ := Prod.mk.inj same
      exact ⟨state,rfl,opened,writes⟩
  · cases opens

theorem rc4_separate (linkLen : Path → Option Nat) (malloc : Nat → Bool) (key : List UInt8) (keylen : Nat)
    (opens : separate world disk srcFilepath dstFilepath = some (srcFd,dstFd)) :
    ∃ opened, openWrite world disk dstFilepath = some (dstFd,opened) ∧
      Rc4File.cryptFile world linkLen malloc disk srcFilepath dstFilepath key keylen =
        Rc4File.cryptOpened linkLen malloc opened srcFilepath srcFd dstFd key keylen := by
  obtain ⟨state,reads,opened,writes⟩ := separate_some opens
  refine ⟨opened,writes,?_⟩
  rw [Rc4File.cryptFile,state,if_neg (by decide),if_neg (by decide),reads]
  dsimp only
  rw [writes]

theorem base64_separate (method : MOCRYPT_METHOD)
    (opens : separate world disk srcFilepath dstFilepath = some (srcFd,dstFd)) :
    ∃ opened, openWrite world disk dstFilepath = some (dstFd,opened) ∧
      cryptFile world disk method srcFilepath dstFilepath =
        let result := cryptLoop method (Lib.Blocks.chunks cryptFileBlockSize (opened.content srcFd)) []
        (result.1,opened.put dstFd result.2) := by
  obtain ⟨state,reads,opened,writes⟩ := separate_some opens
  refine ⟨opened,writes,?_⟩
  rw [cryptFile,state,if_neg (by decide)]
  dsimp only
  rw [cryptFileToDiff,reads]
  dsimp only
  rw [writes]

end Open

variable (system : System)

/-- On the disk different files are different, too. -/
def Holds (entryOf : Path → Nat) (disk : Disk) : Prop :=
  ∀ path other src dst id, system.denote path = some src → system.denote other = some dst → src ≠ dst →
    disk.fileOf (entryOf path) = some id → disk.fileOf (entryOf other) ≠ some id

/-- Whatever files there are: the same ones are told to be the same and no others, and a source is never
written as a separate destination. -/
structure Detects : Prop where
  exact : ∀ entryOf canRead canWrite, system.Exact (system.world entryOf canRead canWrite)
  apart : ∀ entryOf canRead canWrite disk, Holds system entryOf disk →
    ∀ srcFilepath dstFilepath srcFd dstFd, system.denote srcFilepath ≠ none → system.denote dstFilepath ≠ none →
      separate (system.world entryOf canRead canWrite) disk srcFilepath dstFilepath = some (srcFd,dstFd) → srcFd ≠ dstFd

variable {system}

theorem apart_of_exact {entryOf : Path → Nat} {canRead canWrite : Path → Bool}
    (exact : system.Exact (system.world entryOf canRead canWrite)) {disk : Disk} (holds : Holds system entryOf disk)
    {srcFilepath dstFilepath : Path} {srcFd dstFd : Nat} (src : system.denote srcFilepath ≠ none)
    (dst : system.denote dstFilepath ≠ none)
    (opens : separate (system.world entryOf canRead canWrite) disk srcFilepath dstFilepath = some (srcFd,dstFd)) :
    srcFd ≠ dstFd := by
  obtain ⟨state,reads,opened,writes⟩ := separate_some opens
  obtain ⟨source,src⟩ := Option.ne_none_iff_exists'.mp src
  obtain ⟨destination,dst⟩ := Option.ne_none_iff_exists'.mp dst
  have told := exact.same _ _ _ _ src dst
  have other : source ≠ destination := by
    intro same
    rw [state,if_pos same] at told
    cases told
  have reading : disk.fileOf (entryOf srcFilepath) = some srcFd := by
    rw [openRead] at reads
    exact (Option.ite_none_right_eq_some.mp reads).2
  have writing : disk.truncate (entryOf dstFilepath) = (dstFd,opened) := by
    rw [openWrite] at writes
    exact Option.some.inj (Option.ite_none_right_eq_some.mp writes).2
  rintro rfl
  rw [Files.truncate] at writing
  cases found : disk.fileOf (entryOf dstFilepath) with
  | none =>
    rw [found] at writing
    have used := disk.used _ _ reading
    rw [(Prod.mk.inj writing).1] at used
    exact absurd used (Nat.lt_irrefl _)
  | some id =>
    rw [found] at writing
    obtain rfl := (Prod.mk.inj writing).1
    exact holds _ _ _ _ _ src dst other reading found

/-- The directory `a` with the file `f`, and the link `b` to the directory. -/
def linkedTree : LinkTree Name where
  entries := [([['a']],.dir),([['a'],['f']],.file 0),([['b']],.link (route ['/','a']))]
  closed place name entered := by
    obtain ⟨node,here⟩ := Option.ne_none_iff_exists'.mp entered
    rcases lookup_entry here with ⟨root,_⟩ | among
    · exact absurd root (List.concat_ne_nil _ _)
    · have deep := List.mem_map_of_mem (f := Prod.fst) among
      simp only [List.map_cons,List.map_nil,List.mem_cons,List.not_mem_nil,or_false] at deep
      rcases deep with same | same | same
      · obtain ⟨rfl,_⟩ := List.append_inj' (show place ++ [name] = [] ++ [['a']] from same) rfl
        rfl
      · obtain ⟨rfl,_⟩ := List.append_inj' (show place ++ [name] = [['a']] ++ [['f']] from same) rfl
        rfl
      · obtain ⟨rfl,_⟩ := List.append_inj' (show place ++ [name] = [] ++ [['b']] from same) rfl
        rfl

def linked : System :=
  .atRoot linkedTree 40 true (by decide) fun place target here => by
    rcases LinkTree.node_entry here with ⟨_,other⟩ | among
    · cases other
    · have last : place = [['b']] ∧ target = route ['/','a'] := by simpa [linkedTree] using among
      exact ⟨['/','a'],last.2⟩

def linkedDisk : Disk := ⟨fun _ => some 0,fun _ => [7],1,fun _ _ same => by cases same; decide⟩

end MoCodes.Crypto.SeparateFiles
