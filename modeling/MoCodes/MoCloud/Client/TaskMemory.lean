import MoCodes.Lib.Machine
import MoCodes.Lib.Owners
import MoCodes.MoCloud.Client.DwldInfoFile

/-! The nodes behind gDwldTasksInfoListHead of moCloudClientLib.c and those that
moCloudClient_getAllDwldTasks and moCloudClient_getDwldingTasks give out, in one memory. The loops that
allocate or free are taken pass by pass, so that those of other callers come in between. -/
namespace MoCodes.MoCloud.Client
open Lib.LinkedList Lib.Owners Lib.Machine

inductive DwldNode where
  /-- the head of the tasks -/
  | head
  | task (dwldInfo : DwldInfo) (offset : Nat) (fileId : Int)
  /-- MOCLOUDCLIENT_DWLD_INFO_NODE -/
  | copy (dwldInfo : DwldInfo)
  deriving DecidableEq

namespace DwldNode

/-- What nodes of every kind begin with. -/
def dwldInfo : DwldNode → DwldInfo
  | .head => zeroUnit.dwldInfo
  | .task dwldInfo _ _ => dwldInfo
  | .copy dwldInfo => dwldInfo

def offset : DwldNode → Nat
  | .task _ offset _ => offset
  | _ => 0

def fileId : DwldNode → Int
  | .task _ _ fileId => fileId
  | _ => 0

def setInfo (change : DwldInfo → DwldInfo) : DwldNode → DwldNode
  | .task dwldInfo offset fileId => .task (change dwldInfo) offset fileId
  | node => node

def setFileId (fileId : Int) : DwldNode → DwldNode
  | .task dwldInfo offset _ => .task dwldInfo offset fileId
  | node => node

end DwldNode

def setDwlding (info : DwldInfo) : DwldInfo := {info with isDwlding := true}

def setUnitId (unitId : Int) (info : DwldInfo) : DwldInfo := {info with unitId}

/-- Where a caller stands, with the pointers it has. -/
inductive TaskPlace where
  | idle
  /-- in moCloudClient_startDownloadFile, after getOneDwldNode -/
  | starting (pDwldNode : Nat)
  /-- in the loop over the tasks, with the mutex -/
  | copying (dwldingOnly : Bool) (pRet pCurNode : Option Nat)
  /-- freeing what was copied, with the mutex -/
  | undoing (pRet : Nat) (pDelNode : Option Nat)
  | holding (pTasks : Nat)
  /-- in the loop of moCloudClient_freeDwldTasks -/
  | freeing (pTasks : Nat) (pNextNode : Option Nat)
  deriving DecidableEq

/-- `gDwldTasksMutex` is the caller in one of the loops that copy. -/
structure TaskMemory (ι : Type) where
  memory : Memory DwldNode
  gDwldTasksInfoListHead : Nat
  gDwldInfofile : DwldInfoFile
  gDwldTasksMutex : Option ι
  places : ι → TaskPlace

inductive TaskCall (ι : Type) where
  | startDownloadFile (caller : ι) (key : FileinfoKey) (filesize : Nat) (pLocalFilepath : Text) (malloc : Bool)
  /-- a start for which this fails goes on to delDwldNode, and is over -/
  | cliDataStartDwld (caller : ι) (fileId : Option Int)
  /-- the `fileId` of the node for doStartDwld or, after that has failed, for cliDataStopDwld -/
  | readFileId (caller : ι) (returns : Bool)
  | delDwldNode (key : FileinfoKey)
  | setDwldProgress (fileId unitId : Int) (isEof : Bool)
  | getDwldTasks (caller : ι) (dwldingOnly : Bool)
  /-- the next pass of the caller's loop -/
  | pass (caller : ι) (malloc : Bool)
  | readTasks (caller : ι)
  | freeDwldTasks (caller : ι)

inductive TaskAnswer where
  /-- the caller is not there, or cannot have the mutex -/
  | blocked
  | going
  | code (code : Int)
  | found (key : Option FileinfoKey)
  | null
  | given
  | tasks (infos : List DwldInfo)
  deriving DecidableEq

namespace TaskMemory

variable {ι : Type} (s : TaskMemory ι)

/-- The nodes that the loops from `gDwldTasksInfoListHead->next` on come to. -/
def nodes : Option (List (Cell DwldNode)) :=
  (s.memory.heap s.gDwldTasksInfoListHead).bind fun head => s.memory.cells head.next

/-- What is put into `*ppDwldTaskInfoNode` and `*pStartOffset`, or the negative code. -/
def getOneDwldNode (key : FileinfoKey) (filesize : Nat) (pLocalFilepath : Text) (malloc : Bool) :
    Option (Except Int (TaskMemory ι × Nat × Int)) :=
  s.nodes.bind fun nodes =>
    if dwldTaskMaxNum ≤ nodes.countP fun cell => cell.2.dwldInfo.isDwlding then some (.error (-1))
    else
      match (nodes.filter fun cell => cell.2.dwldInfo.fileKey = key).getLast? with
      | none =>
        if !malloc then some (.error (-2))
        else
          let offset := DwldStore.firstFree s.gDwldInfofile
          let info := DwldStore.newInfo key filesize pLocalFilepath
          (s.memory.insertAfter s.gDwldTasksInfoListHead (.task info offset (-1))).map fun memory =>
            let gDwldInfofile := writeUnit s.gDwldInfofile offset (DwldStore.marked true info)
            .ok ({s with memory, gDwldInfofile},s.memory.limit,0)
      | some (pTask,info) =>
        if info.dwldInfo.isDwlding then some (.error (-3))
        else (s.memory.heap pTask).map fun node =>
          let unit := readUnit s.gDwldInfofile node.info.offset
          .ok
            ({ s with
                memory := s.memory.store {node with info := node.info.setInfo setDwlding} pTask
                gDwldInfofile := writeUnit s.gDwldInfofile node.info.offset
                  {unit with isUsing := true, dwldInfo := setDwlding unit.dwldInfo} },
              pTask,toInt (node.info.dwldInfo.unitId*DwldStore.sizeofDataUnitLen))

/-- `pPreNode` is the last node before, or the head. -/
def delDwldNode (key : FileinfoKey) : Option (Int × TaskMemory ι) :=
  s.nodes.bind fun nodes =>
    match nodes.find? fun cell => cell.2.dwldInfo.fileKey = key with
    | none => some (-1,s)
    | some (pCurNode,info) =>
      let before := nodes.takeWhile fun cell => !(cell.2.dwldInfo.fileKey = key)
      let unit := readUnit s.gDwldInfofile info.offset
      (s.memory.unlink ((addrs before).getLastD s.gDwldTasksInfoListHead) pCurNode).map fun (memory,_) =>
        (0,{ s with
          memory
          gDwldInfofile := writeUnit s.gDwldInfofile info.offset
            { unit with
              isUsing := false
              dwldInfo := {unit.dwldInfo with isDwlding := false}
              checkSum := checksumStubValue } })

/-- The section of setDwldProgress, with the key of the task that it finds dwlding. -/
def setDwldProgress (fileId unitId : Int) (isEof : Bool) : Option (Option FileinfoKey × TaskMemory ι) :=
  s.nodes.bind fun nodes =>
    match nodes.find? fun cell => cell.2.fileId = fileId with
    | none => some (none,s)
    | some (pCurNode,info) =>
      if !info.dwldInfo.isDwlding then some (none,s)
      else (s.memory.heap pCurNode).map fun node =>
        let info := setUnitId unitId node.info.dwldInfo
        (some info.fileKey,{ s with
          memory := s.memory.store {node with info := node.info.setInfo (setUnitId unitId)} pCurNode
          gDwldInfofile := writeUnit s.gDwldInfofile node.info.offset (DwldStore.marked (!isEof) info) })

section Steps

variable [DecidableEq ι] (caller : ι)

def move (place : TaskPlace) : TaskMemory ι := {s with places := Function.update s.places caller place}

/-- With the mutex given back. -/
def leave (place : TaskPlace) : TaskMemory ι := {s.move caller place with gDwldTasksMutex := none}

/-- One pass of the loop over the tasks. -/
def copyPass (dwldingOnly : Bool) (pRet pCurNode : Option Nat) (malloc : Bool) : Option (TaskAnswer × TaskMemory ι) :=
  match pCurNode with
  | none => some (match pRet with
    | none => (.null,s.leave caller .idle)
    | some pTasks => (.given,s.leave caller (.holding pTasks)))
  | some pCurNode => (s.memory.heap pCurNode).bind fun node =>
    if dwldingOnly && !node.info.dwldInfo.isDwlding then
      some (.going,s.move caller (.copying dwldingOnly pRet node.next))
    else
      match pRet,malloc with
      | none,false => some (.null,s.leave caller .idle)
      | some pRet,false => (s.memory.heap pRet).map fun first => (.going,s.move caller (.undoing pRet first.next))
      | none,true =>
        let memory := s.memory.malloc ⟨.copy node.info.dwldInfo,none⟩
        some (.going,{s with memory}.move caller (.copying dwldingOnly (some s.memory.limit) node.next))
      | some pRet,true => (s.memory.insertAfter pRet (.copy node.info.dwldInfo)).map fun memory =>
        (.going,{s with memory}.move caller (.copying dwldingOnly (some pRet) node.next))

/-- `free`, of something that was allocated. -/
def freeNode (addr : Nat) : Option (Memory DwldNode) := (s.memory.heap addr).map fun _ => s.memory.release addr

/-- One pass of the loop that frees what was copied before malloc failed. -/
def undoPass (pRet : Nat) (pDelNode : Option Nat) : Option (TaskAnswer × TaskMemory ι) :=
  match pDelNode with
  | none => (s.freeNode pRet).map fun memory => (.null,{s with memory}.leave caller .idle)
  | some pDelNode => (s.memory.heap pDelNode).map fun node =>
    (.going,{s with memory := s.memory.release pDelNode}.move caller (.undoing pRet node.next))

def freePass (pTasks : Nat) (pNextNode : Option Nat) : Option (TaskAnswer × TaskMemory ι) :=
  match pNextNode with
  | none => (s.freeNode pTasks).map fun memory => (.null,{s with memory}.move caller .idle)
  | some pNextNode => (s.memory.unlink pTasks pNextNode).map fun (memory,next) =>
    (.going,{s with memory}.move caller (.freeing pTasks next))

def pass (malloc : Bool) : Option (TaskAnswer × TaskMemory ι) :=
  match s.places caller with
  | .copying dwldingOnly pRet pCurNode => s.copyPass caller dwldingOnly pRet pCurNode malloc
  | .undoing pRet pDelNode => s.undoPass caller pRet pDelNode
  | .freeing pTasks pNextNode => s.freePass caller pTasks pNextNode
  | _ => some (.blocked,s)

end Steps

end TaskMemory

/-- A step that goes wrong is an access to memory that is not allocated. -/
def taskMemory {ι : Type} [DecidableEq ι] : Device (TaskMemory ι) (TaskCall ι) TaskAnswer
  | s,.startDownloadFile caller key filesize pLocalFilepath malloc =>
    match s.places caller,s.gDwldTasksMutex with
    | .idle,none => (s.getOneDwldNode key filesize pLocalFilepath malloc).map fun
      | .error code => (.code code,s)
      | .ok (after,pDwldNode,startOffset) => (.code startOffset,after.move caller (.starting pDwldNode))
    | _,_ => some (.blocked,s)
  | s,.cliDataStartDwld caller fileId =>
    match s.places caller with
    | .starting pDwldNode => match fileId with
      | none => some (.going,s.move caller .idle)
      | some fileId => (s.memory.heap pDwldNode).map fun node =>
        (.going,{s with memory := s.memory.store {node with info := node.info.setFileId fileId} pDwldNode})
    | _ => some (.blocked,s)
  | s,.readFileId caller returns =>
    match s.places caller with
    | .starting pDwldNode => (s.memory.heap pDwldNode).map fun node =>
      (.code node.info.fileId,if returns then s.move caller .idle else s)
    | _ => some (.blocked,s)
  | s,.delDwldNode key =>
    match s.gDwldTasksMutex with
    | none => (s.delDwldNode key).map fun (ret,after) => (.code ret,after)
    | some _ => some (.blocked,s)
  | s,.setDwldProgress fileId unitId isEof =>
    match s.gDwldTasksMutex with
    | none => (s.setDwldProgress fileId unitId isEof).map fun (key,after) => (.found key,after)
    | some _ => some (.blocked,s)
  | s,.getDwldTasks caller dwldingOnly =>
    match s.places caller,s.gDwldTasksMutex with
    | .idle,none => (s.memory.heap s.gDwldTasksInfoListHead).map fun head =>
      (.going,{s.move caller (.copying dwldingOnly none head.next) with gDwldTasksMutex := some caller})
    | _,_ => some (.blocked,s)
  | s,.pass caller malloc => s.pass caller malloc
  | s,.readTasks caller =>
    match s.places caller with
    | .holding pTasks => (s.memory.cells (some pTasks)).map fun cells =>
      (.tasks (cells.map fun cell => cell.2.dwldInfo),s)
    | _ => some (.blocked,s)
  | s,.freeDwldTasks caller =>
    match s.places caller with
    | .holding pTasks => (s.memory.heap pTasks).map fun node => (.going,s.move caller (.freeing pTasks node.next))
    | _ => some (.blocked,s)

/-- The tasks of the dwldInfo file put into the list, from `offset` on, and the records as they are
written back. -/
def restoreNodes (head : Nat) : DwldInfoFile → Nat → Memory DwldNode × DwldInfoFile →
    Option (Memory DwldNode × DwldInfoFile)
  | [],_,state => some state
  | unit :: units,offset,(memory,file) =>
    if unit.isUsing then
      let dwldInfo := {unit.dwldInfo with isDwlding := false}
      (memory.insertAfter head (.task dwldInfo offset (-1))).bind fun memory =>
        restoreNodes head units (offset+1) (memory,file ++ [{unit with dwldInfo}])
    else restoreNodes head units (offset+1) (memory,file ++ [unit])

/-- The head alone. -/
def emptyTasks : Memory DwldNode := (Memory.mk (fun _ => none) 0).malloc ⟨.head,none⟩

/-- After moCloudClient_init, with memory for all the nodes; what a file in wrong format has put into
the list is freed again. -/
def initTaskMemory (ι : Type) (file : DwldInfoFile) (leftover : Bool) : Option (TaskMemory ι) :=
  (if file.all DwldStore.rightFormat && !leftover then restoreNodes 0 file 0 (emptyTasks,[])
    else some (emptyTasks,[])).map fun (memory,gDwldInfofile) =>
      { memory, gDwldInfofile, gDwldTasksInfoListHead := 0, gDwldTasksMutex := none, places := fun _ => .idle }

end MoCodes.MoCloud.Client
