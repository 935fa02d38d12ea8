import MoCodes.MoCloud.Proto
import Mathlib.Data.List.Nodup

/-! The download tasks of moCloudClientLib.c, as the sections under gDwldTasksMutex leave the
list in memory and the records of the dwldInfo file. The file stays below 2 GiB, and `offset`
counts whole records. -/
namespace MoCodes.MoCloud.Client

/-- MOCLOUDCLIENT_DWLD_INFO. -/
structure DwldInfo where
  fileKey : FileinfoKey
  fileLength : Nat
  localFilepath : Text
  unitId : Int
  isDwlding : Bool
  deriving DecidableEq

/-- DWLD_FILE_UNIT_INFO. -/
structure DwldFileUnitInfo where
  mark : Text
  isUsing : Bool
  dwldInfo : DwldInfo
  checkSum : UInt8
  deriving DecidableEq

/-- DWLD_TASK_INFO_NODE; `node` is its address. -/
structure DwldTaskInfo where
  dwldInfo : DwldInfo
  offset : Nat
  fileId : Int
  node : Nat
  deriving DecidableEq

abbrev DwldTaskInfo.key (task : DwldTaskInfo) : FileinfoKey := task.dwldInfo.fileKey

abbrev DwldFileUnitInfo.key (unit : DwldFileUnitInfo) : FileinfoKey := unit.dwldInfo.fileKey

/-- CHECKSUM_STUB_VALUE. -/
def checksumStubValue : UInt8 := 0xa

/-- The record that `memset` leaves. -/
def zeroUnit : DwldFileUnitInfo := ⟨[],false,⟨⟨0,[]⟩,0,[],0,false⟩,0⟩

abbrev DwldInfoFile := List DwldFileUnitInfo

/-- `fseek` and `fread` into a buffer that was set to 0. -/
def readUnit (file : DwldInfoFile) (offset : Nat) : DwldFileUnitInfo := file.getD offset zeroUnit

/-- `fseek` and `fwrite`. -/
def writeUnit (file : DwldInfoFile) (offset : Nat) (unit : DwldFileUnitInfo) : DwldInfoFile :=
  if offset < file.length then file.set offset unit
  else file ++ List.replicate (offset-file.length) zeroUnit ++ [unit]

/-- `tasks` is the list behind gDwldTasksInfoListHead, `nodes` the number of nodes made so far. -/
structure DwldStore where
  tasks : List DwldTaskInfo := []
  file : DwldInfoFile := []
  nodes : Nat := 0
  deriving DecidableEq

namespace DwldStore

/-- What is read in one turn of initDwldTasksInfo. -/
def rightFormat (unit : DwldFileUnitInfo) : Bool := unit.mark == markDwld && unit.checkSum == checksumStubValue

/-- The records that were read put into the list, from `offset` on; a task that was dwlding is
written back as one that is not. -/
def restore : DwldInfoFile → Nat → DwldStore → DwldStore
  | [],_,store => store
  | unit :: units,offset,store =>
    if unit.isUsing then
      let info := { unit.dwldInfo with isDwlding := false }
      restore units (offset+1)
        { tasks := ⟨info,offset,-1,store.nodes⟩ :: store.tasks
          file := store.file ++ [{ unit with dwldInfo := info }]
          nodes := store.nodes+1 }
    else restore units (offset+1) { store with file := store.file ++ [unit] }

/-- `leftover` tells that the file does not end with a whole record. A file in wrong format is
cleared. -/
def initDwldTasksInfo (file : DwldInfoFile) (leftover : Bool) : DwldStore :=
  if file.all rightFormat && !leftover then restore file 0 {} else {}

variable (store : DwldStore)

/-- `pTask` at the end of the loop of getOneDwldNode. -/
def taskOf (key : FileinfoKey) : Option DwldTaskInfo := (store.tasks.filter fun task => task.key = key).getLast?

/-- The first record that is not used, or the end of the file. -/
def firstFree (file : DwldInfoFile) : Nat := file.findIdx fun unit => !unit.isUsing

def newInfo (key : FileinfoKey) (filesize : Nat) (pLocalFilepath : Text) : DwldInfo where
  fileKey := key
  fileLength := filesize
  localFilepath := pLocalFilepath
  unitId := 0
  isDwlding := true

/-- A record with the mark and the checksum. -/
def marked (isUsing : Bool) (info : DwldInfo) : DwldFileUnitInfo := ⟨markDwld,isUsing,info,checksumStubValue⟩

def addTask (key : FileinfoKey) (filesize : Nat) (pLocalFilepath : Text) : DwldStore where
  tasks := ⟨newInfo key filesize pLocalFilepath,firstFree store.file,-1,store.nodes⟩ :: store.tasks
  file := writeUnit store.file (firstFree store.file) (marked true (newInfo key filesize pLocalFilepath))
  nodes := store.nodes+1

def resumeTask (task : DwldTaskInfo) : DwldStore :=
  let unit := readUnit store.file task.offset
  { store with
    tasks := store.tasks.map fun other =>
      if other.node = task.node then { other with dwldInfo := { other.dwldInfo with isDwlding := true } } else other
    file := writeUnit store.file task.offset
      { unit with isUsing := true, dwldInfo := { unit.dwldInfo with isDwlding := true } } }

/-- `sizeof(MOCLOUD_DATA_UNIT_LEN)`, of an `int`. -/
def sizeofDataUnitLen : Int := 4

/-- What is put into `*ppDwldTaskInfoNode` and `*pStartOffset`, or the negative code. -/
def getOneDwldNode (key : FileinfoKey) (filesize : Nat) (pLocalFilepath : Text) (malloc : Bool) :
    Except Int (DwldStore × Nat × Int) :=
  if dwldTaskMaxNum ≤ store.tasks.countP fun task => task.dwldInfo.isDwlding then .error (-1)
  else
    match store.taskOf key with
    | none =>
      if !malloc then .error (-2) else .ok (store.addTask key filesize pLocalFilepath,store.nodes,0)
    | some task =>
      if task.dwldInfo.isDwlding then .error (-3)
      else .ok (store.resumeTask task,task.node,toInt (task.dwldInfo.unitId*sizeofDataUnitLen))

/-- `pDwldNode->dwldTaskInfo.fileId` set by cliDataStartDwld, without the mutex; nothing is kept
of what is written to a node that was freed. -/
def setFileId (node : Nat) (fileId : Int) : DwldStore :=
  { store with tasks := store.tasks.map fun task => if task.node = node then { task with fileId := fileId } else task }

/-- The code, and what is left; nobody looks at the code. -/
def delDwldNode (key : FileinfoKey) : Int × DwldStore :=
  match store.tasks.find? fun task => task.key = key with
  | none => (-1,store)
  | some task =>
    let unit := readUnit store.file task.offset
    (0,{ store with
      tasks := store.tasks.eraseP fun task => task.key = key
      file := writeUnit store.file task.offset
        { unit with
          isUsing := false
          dwldInfo := { unit.dwldInfo with isDwlding := false }
          checkSum := checksumStubValue } })

/-- `fileId` and `localFilepath`, or the code; `none` is a loop without end, since nothing
advances `pCurNode`. -/
def getDwldFileInfo (key : FileinfoKey) : Option (Except Int (Int × Text)) :=
  match store.tasks with
  | [] => some (.error (-2))
  | task :: _ => if task.key = key then some (.ok (task.fileId,task.dwldInfo.localFilepath)) else none

/-- The section of setDwldProgress: the key is that of the task that is found, if it is
dwlding. -/
def setDwldProgress (fileId unitId : Int) (isEof : Bool) : DwldStore × Option FileinfoKey :=
  match store.tasks.find? fun task => task.fileId = fileId with
  | none => (store,none)
  | some task =>
    if !task.dwldInfo.isDwlding then (store,none)
    else
      ({ store with
        tasks := store.tasks.map fun other =>
          if other.node = task.node then { other with dwldInfo := { other.dwldInfo with unitId := unitId } } else other
        file := writeUnit store.file task.offset (marked (!isEof) { task.dwldInfo with unitId := unitId }) },
        some task.key)

end DwldStore

end MoCodes.MoCloud.Client
