import MoCodes.Lib.DirTree
import MoCodes.Lib.LinkedList
import Mathlib.Data.Int.DivMod

/-! The tables of the file manager: a list of file nodes for each type, built from the
sub-directories, and the array of records that is handed out. The head nodes come from
`malloc` as they are. A routine without a result is one that reads or writes memory that
is not its own; otherwise a negative return value is a failure. -/
namespace MoCodes.Cps.Server.FileMgr
open MoCodes.Lib.LinkedList MoCodes.Lib.DirTree

inductive FileType where
  | video | audio | pic | others
  deriving DecidableEq,Repr

def FileType.value : FileType → Nat
  | .video => 0
  | .audio => 1
  | .pic => 2
  | .others => 3

def FileType.all : List FileType := [.video,.audio,.pic,.others]

def gSubDirName : FileType → Path
  | .video => ['V','i','d','e','o','s']
  | .audio => ['A','u','d','i','o','s']
  | .pic => ['P','i','c','t','u','r','e','s']
  | .others => ['O','t','h','e','r','s']

def dirpathMaxlen : Nat := 256

def filenameMaxlen : Nat := 256

def filepathMaxlen : Nat := dirpathMaxlen+filenameMaxlen

def fmMemIncSize : Nat := 1*1024*1024

structure BasicFileInfo where
  size : Int
  filename : Path
  type : FileType
  deriving DecidableEq,Repr

/-- `sizeof(MOCPS_BASIC_FILEINFO)`, with the padding behind the type. -/
def basicFileInfoSize : Nat := 272

structure FileInfo where
  basicInfo : BasicFileInfo
  fp : Option Nat
  readHdrNum : Int
  deriving DecidableEq,Repr

/-- Nodes are allocated at increasing addresses; `used` is the next one. -/
structure DirFileList where
  heap : Heap FileInfo
  used : Nat
  dirPath : Path
  pFileList : FileType → Option Nat
  fileNum : FileType → Nat

structure DirFileInfo where
  dirPath : Path
  sumFileNum : Nat
  fileInfoLen : Int
  curMemSize : Int
  pFileInfo : List BasicFileInfo

structure Fm where
  gDirFileList : DirFileList
  gDirFileInfo : DirFileInfo
  gIsInited : Bool

section Listing

variable (dirs : Dirs)

def isDir (pDirpath pSubdirName : Path) : Bool :=
  isKind dirs .dir (cut filepathMaxlen (join pDirpath pSubdirName))

def isRegFile (pDirpath pSubFileName : Path) : Bool :=
  isKind dirs .reg (cut filepathMaxlen (join pDirpath pSubFileName))

def getSubdirPath (dirPath : Path) (filetype : FileType) : Path := join dirPath (gSubDirName filetype)

/-- The path is printed without a bound, so one that does not fit runs over the buffer. -/
def getFileInfo (pDirpath pFilename : Path) (filetype : FileType) : Option (Except Int FileInfo) :=
  let filepath := join pDirpath pFilename
  if filepathMaxlen ≤ filepath.length then none
  else match dirs.stat filepath with
    | none => some (.error (-2))
    | some curStat => some (.ok ⟨⟨curStat.size,pFilename.take (filenameMaxlen-1),filetype⟩,none,0⟩)

/-- A new node behind `pCurNode`, which it becomes. -/
def appendNode (list : DirFileList) (filetype : FileType) (pCurNode : Nat) (info : FileInfo) :
    Option DirFileList :=
  match list.heap pCurNode with
  | none => none
  | some node => some {list with
      heap := write (write list.heap list.used ⟨info,none⟩) pCurNode {node with next := some list.used}
      used := list.used+1
      fileNum := Function.update list.fileNum filetype (list.fileNum filetype+1)}

/-- The `readdir` loop over the names that are left. -/
def readSubDir (subdirpath : Path) (filetype : FileType) :
    List Path → Nat → DirFileList → Option (DirFileList × Int)
  | [],_,list => some (list,0)
  | d_name::names,pCurNode,list =>
    if isDot d_name then readSubDir subdirpath filetype names pCurNode list
    else if isRegFile dirs subdirpath d_name then
      match getFileInfo dirs subdirpath d_name filetype with
      | none => none
      | some (.error _) => some (list,-5)
      | some (.ok info) =>
        match appendNode list filetype pCurNode info with
        | none => none
        | some after => readSubDir subdirpath filetype names list.used after
    else readSubDir subdirpath filetype names pCurNode list

def getSubDirFilelist (filetype : FileType) (list : DirFileList) : Option (DirFileList × Int) :=
  let subdirpath := getSubdirPath list.dirPath filetype
  match list.pFileList filetype with
  | none => some (list,-2)
  | some pHeadNode =>
    match dirs.opendir subdirpath with
    | none => some (list,-4)
    | some names => readSubDir dirs subdirpath filetype names pHeadNode list

/-- The directory can be made. The new head node is not put into the table, and one that is
there already is taken for an error. -/
def createSubDir (filetype : FileType) (list : DirFileList) : DirFileList × Int :=
  match list.pFileList filetype with
  | some _ => (list,-4)
  | none => ({list with fileNum := Function.update list.fileNum filetype 0},0)

def typeNamed (d_name : Path) : Option FileType := FileType.all.find? (gSubDirName · = d_name)

def existState (pDirpath : Path) : List Path → Nat → Except Int Nat
  | [],state => .ok state
  | d_name::names,state =>
    if isDot d_name then existState pDirpath names state
    else match typeNamed d_name with
      | none => existState pDirpath names state
      | some filetype =>
        if isDir dirs pDirpath d_name then existState pDirpath names (state ||| 1 <<< filetype.value)
        else .error (-2-filetype.value)

def getSubdirExistState (pDirpath : Path) : Except Int Nat :=
  match dirs.opendir pDirpath with
  | none => .error (-1)
  | some names => existState dirs pDirpath names 0

/-- The loop over the types, which a failure breaks off. -/
def initSubDirs (subdirExistState : Nat) : List FileType → DirFileList → Option (DirFileList × Int)
  | [],list => some (list,0)
  | filetype::types,list =>
    match (if subdirExistState.testBit filetype.value then getSubDirFilelist dirs filetype list
      else some (createSubDir filetype list)) with
    | none => none
    | some (after,ret) => if ret < 0 then some (after,ret) else initSubDirs subdirExistState types after

end Listing

section Freeing

/-- Every pass frees a node, so there are no more passes than nodes were allocated. -/
def freeNodes : Nat → Heap FileInfo → Option Nat → Option (Heap FileInfo)
  | _,heap,none => some heap
  | 0,_,some _ => none
  | fuel+1,heap,some pNextNode =>
    match heap pNextNode with
    | none => none
    | some node => freeNodes fuel (free heap pNextNode) node.next

def freeDirfileList (filetype : FileType) (list : DirFileList) : Option DirFileList :=
  match list.pFileList filetype with
  | none => some list
  | some pHeadNode =>
    match list.heap pHeadNode with
    | none => none
    | some head =>
      match freeNodes list.used list.heap head.next with
      | none => none
      | some heap => if heap pHeadNode = none then none else some {list with heap := free heap pHeadNode}

def freeLists (list : DirFileList) : Option DirFileList :=
  FileType.all.foldlM (fun list filetype => freeDirfileList filetype list) list

def unInitDirfileList (list : DirFileList) : Option DirFileList :=
  (freeLists list).map fun freed => {freed with fileNum := fun _ => 0,dirPath := []}

end Freeing

section Records

/-- `int` is what the low 32 bits say. -/
@[irreducible] def toInt (value : Int) : Int := value.bmod (2^32)

def noRecord : BasicFileInfo := ⟨0,[],.video⟩

/-- The copies of one list into the array, from slot `slot` on; a slot behind the array is
memory of someone else. -/
def copyList (heap : Heap FileInfo) :
    Nat → Option Nat → Nat → List BasicFileInfo → Option (List BasicFileInfo)
  | 0,_,_,pFileInfo => some pFileInfo
  | count+1,pCurNode,slot,pFileInfo =>
    match pCurNode.bind heap with
    | none => none
    | some node =>
      match node.next.bind heap with
      | none => none
      | some cur =>
        if slot < pFileInfo.length then
          copyList heap count node.next (slot+1) (pFileInfo.set slot cur.info.basicInfo)
        else none

def startSlot (list : DirFileList) (filetype : FileType) : Nat :=
  ((FileType.all.take filetype.value).map list.fileNum).sum

def copyLists (list : DirFileList) : List FileType → List BasicFileInfo → Option (List BasicFileInfo)
  | [],pFileInfo => some pFileInfo
  | filetype::types,pFileInfo =>
    match copyList list.heap (list.fileNum filetype) (list.pFileList filetype) (startSlot list filetype)
      pFileInfo with
    | none => none
    | some after => copyLists list types after

/-- The check finds an `int` sum that went over; no memory of negative size can be had. -/
def initDirfileInfo (list : DirFileList) : Option (Except Int DirFileInfo) :=
  let sumFileNum := (FileType.all.map list.fileNum).sum
  let fileInfoLen := toInt (sumFileNum*basicFileInfoSize)
  let curMemSize := toInt (fileInfoLen+fmMemIncSize)
  if curMemSize < fileInfoLen then some (.error (-1))
  else if curMemSize < 0 then some (.error (-2))
  else
    let zeroed := List.replicate (curMemSize.toNat/basicFileInfoSize) noRecord
    (copyLists list FileType.all zeroed).map fun pFileInfo =>
      .ok ⟨list.dirPath,sumFileNum,fileInfoLen,curMemSize,pFileInfo⟩

end Records

section Interface

variable (dirs : Dirs) (uninit : FileType → Node FileInfo)

/-- The table with a head node for each type, whose contents `malloc` does not set. -/
def mallocHeads (pDirpath : Path) : DirFileList where
  heap := fun addr => (FileType.all[addr]?).map uninit
  used := FileType.all.length
  dirPath := pDirpath
  pFileList := fun filetype => some filetype.value
  fileNum := fun _ => 0

def initDirfileList (pDirpath : Path) : Option (Except Int DirFileList) :=
  let list := mallocHeads uninit pDirpath
  match getSubdirExistState dirs pDirpath with
  | .error _ => (freeLists list).map fun _ => .error (-1)
  | .ok subdirExistState =>
    match initSubDirs dirs subdirExistState FileType.all list with
    | none => none
    | some (after,ret) =>
      if ret ≠ 0 then (unInitDirfileList after).map fun _ => .error (-2) else some (.ok after)

/-- What follows the copy of the records. The thread that is started does nothing yet. -/
def fmStart (list : DirFileList) : Option (Except Int DirFileInfo) → Option (Except Int Fm)
  | none => none
  | some (.error _) => (unInitDirfileList list).map fun _ => .error (-3)
  | some (.ok info) => some (.ok ⟨list,info,true⟩)

def fmInit (pDirpath : Path) : Option (Except Int Fm) :=
  if dirpathMaxlen ≤ pDirpath.length then some (.error (-2))
  else match initDirfileList dirs uninit pDirpath with
    | none => none
    | some (.error _) => some (.error (-2))
    | some (.ok list) => fmStart list (initDirfileInfo list)

def fmGetFileinfoLength (fm : Fm) : Option Int :=
  if fm.gIsInited then some fm.gDirFileInfo.fileInfoLen else none

/-- The return value and the records that are copied to the caller. -/
def fmGetFileinfo (fm : Fm) (len : Int) : Option (Int × List BasicFileInfo) :=
  if !fm.gIsInited then some (-1,[])
  else if len ≠ fm.gDirFileInfo.fileInfoLen then some (fm.gDirFileInfo.fileInfoLen,[])
  else if fm.gDirFileInfo.fileInfoLen < 0 then none
  else some (0,fm.gDirFileInfo.pFileInfo.take (fm.gDirFileInfo.fileInfoLen.toNat/basicFileInfoSize))

end Interface

end MoCodes.Cps.Server.FileMgr
