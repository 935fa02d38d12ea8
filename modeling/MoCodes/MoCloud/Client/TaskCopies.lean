import MoCodes.MoCloud.Client.TaskMemory

/-! What the copies of the download tasks are for: a caller holds the tasks as they were when it had
the mutex, whatever happens to them afterwards. -/
namespace MoCodes.MoCloud.Client
open Lib.LinkedList Lib.Owners Lib.Machine

/-- The first item, then the others from the last on. -/
def copyOrder {β : Type} : List β → List β
  | [] => []
  | first :: rest => first :: rest.reverse

def wanted (dwldingOnly : Bool) (info : DwldInfo) : Bool := !dwldingOnly || info.isDwlding

def snapshot (dwldingOnly : Bool) (infos : List DwldInfo) : List DwldInfo :=
  copyOrder (infos.filter (wanted dwldingOnly))

/-- Where a caller stands; `left` is how many nodes are still to be freed besides the first. -/
inductive CopyPlace where
  | idle
  | starting (node : Nat)
  /-- with the number of tasks that the loop has passed -/
  | copying (dwldingOnly : Bool) (passed : Nat)
  | undoing (left : Nat)
  | holding (infos : List DwldInfo)
  | freeing (left : Nat)

structure TaskCopies (ι : Type) where
  store : DwldStore
  gDwldTasksMutex : Option ι
  places : ι → CopyPlace

namespace TaskCopies

variable {ι : Type} [DecidableEq ι] (s : TaskCopies ι) (caller : ι)

def move (place : CopyPlace) : TaskCopies ι := {s with places := Function.update s.places caller place}

def leave (place : CopyPlace) : TaskCopies ι := {s.move caller place with gDwldTasksMutex := none}

def infos : List DwldInfo := s.store.tasks.map DwldTaskInfo.dwldInfo

/-- The copy is of the tasks as they are when it is given out. -/
def copyPass (dwldingOnly : Bool) (passed : Nat) (malloc : Bool) : TaskAnswer × TaskCopies ι :=
  match s.infos[passed]? with
  | none => match snapshot dwldingOnly s.infos with
    | [] => (.null,s.leave caller .idle)
    | infos => (.given,s.leave caller (.holding infos))
  | some info =>
    if wanted dwldingOnly info && !malloc then
      match snapshot dwldingOnly (s.infos.take passed) with
      | [] => (.null,s.leave caller .idle)
      | _ :: rest => (.going,s.move caller (.undoing rest.length))
    else (.going,s.move caller (.copying dwldingOnly (passed+1)))

def pass (malloc : Bool) : TaskAnswer × TaskCopies ι :=
  match s.places caller with
  | .copying dwldingOnly passed => s.copyPass caller dwldingOnly passed malloc
  | .undoing 0 => (.null,s.leave caller .idle)
  | .undoing (left+1) => (.going,s.move caller (.undoing left))
  | .freeing 0 => (.null,s.move caller .idle)
  | .freeing (left+1) => (.going,s.move caller (.freeing left))
  | _ => (.blocked,s)

end TaskCopies

/-- The only thing that goes wrong is a start whose task another caller has deleted. -/
def taskCopies {ι : Type} [DecidableEq ι] : Device (TaskCopies ι) (TaskCall ι) TaskAnswer
  | s,.startDownloadFile caller key filesize pLocalFilepath malloc =>
    match s.places caller,s.gDwldTasksMutex with
    | .idle,none => some (match s.store.getOneDwldNode key filesize pLocalFilepath malloc with
      | .error code => (.code code,s)
      | .ok (store,node,startOffset) => (.code startOffset,{s with store}.move caller (.starting node)))
    | _,_ => some (.blocked,s)
  | s,.cliDataStartDwld caller fileId =>
    match s.places caller with
    | .starting node => match fileId with
      | none => some (.going,s.move caller .idle)
      | some fileId => (s.store.tasks.find? fun task => task.node = node).map fun _ =>
        (.going,{s with store := s.store.setFileId node fileId})
    | _ => some (.blocked,s)
  | s,.readFileId caller returns =>
    match s.places caller with
    | .starting node => (s.store.tasks.find? fun task => task.node = node).map fun task =>
      (.code task.fileId,if returns then s.move caller .idle else s)
    | _ => some (.blocked,s)
  | s,.delDwldNode key =>
    match s.gDwldTasksMutex with
    | none => some (.code (s.store.delDwldNode key).1,{s with store := (s.store.delDwldNode key).2})
    | some _ => some (.blocked,s)
  | s,.setDwldProgress fileId unitId isEof =>
    match s.gDwldTasksMutex with
    | none =>
      let (store,key) := s.store.setDwldProgress fileId unitId isEof
      some (.found key,{s with store})
    | some _ => some (.blocked,s)
  | s,.getDwldTasks caller dwldingOnly =>
    match s.places caller,s.gDwldTasksMutex with
    | .idle,none => some (.going,{s.move caller (.copying dwldingOnly 0) with gDwldTasksMutex := some caller})
    | _,_ => some (.blocked,s)
  | s,.pass caller malloc => some (s.pass caller malloc)
  | s,.readTasks caller =>
    match s.places caller with
    | .holding infos => some (.tasks infos,s)
    | _ => some (.blocked,s)
  | s,.freeDwldTasks caller =>
    match s.places caller with
    | .holding infos => some (.going,s.move caller (.freeing (infos.length-1)))
    | _ => some (.blocked,s)

def initTaskCopies (ι : Type) (file : DwldInfoFile) (leftover : Bool) : TaskCopies ι where
  store := DwldStore.initDwldTasksInfo file leftover
  gDwldTasksMutex := none
  places := fun _ => .idle

/-- The nodes of the list, each with the task it holds. -/
abbrev Entries := List (Nat × DwldTaskInfo)

def content (task : DwldTaskInfo) : DwldNode := .task task.dwldInfo task.offset task.fileId

def cellsOf (entries : Entries) : List (Cell DwldNode) := entries.map fun entry => (entry.1,content entry.2)

def infosOf (entries : Entries) : List DwldInfo := entries.map fun entry => entry.2.dwldInfo

def copies (infos : List DwldInfo) : List DwldNode := infos.map .copy

/-- The pointer of a caller against the place it is at, and the cells that only this caller has. -/
inductive Stands (memory : Memory DwldNode) (entries : Entries) (nodes : Nat) :
    List (Cell DwldNode) → TaskPlace → CopyPlace → Prop
  | idle : Stands memory entries nodes [] .idle .idle
  | starting {pDwldNode node : Nat} (given : pDwldNode < memory.limit) (made : node < nodes)
      (same : ∀ entry ∈ entries, entry.1 = pDwldNode ↔ entry.2.node = node)
      (there : memory.heap pDwldNode = none ∨ ∃ task, (pDwldNode,task) ∈ entries) :
      Stands memory entries nodes [] (.starting pDwldNode) (.starting node)
  | copying {cells : List (Cell DwldNode)} {dwldingOnly : Bool} {pRet pCurNode : Option Nat} {passed todo : Entries}
      (split : entries = passed ++ todo) (rest : Seg memory.heap pCurNode (cellsOf todo) none)
      (seg : Seg memory.heap pRet cells none)
      (copied : cells.map Prod.snd = copies (snapshot dwldingOnly (infosOf passed))) :
      Stands memory entries nodes cells (.copying dwldingOnly pRet pCurNode)
        (.copying dwldingOnly passed.length)
  | undoing {pRet : Nat} {pDelNode : Option Nat} {info : DwldNode} {rest : List (Cell DwldNode)}
      (seg : Seg memory.heap pDelNode rest none) :
      Stands memory entries nodes ((pRet,info) :: rest) (.undoing pRet pDelNode) (.undoing rest.length)
  | holding {pTasks : Nat} {infos : List DwldInfo} {cells : List (Cell DwldNode)}
      (seg : Seg memory.heap (some pTasks) cells none) (copied : cells.map Prod.snd = copies infos) :
      Stands memory entries nodes cells (.holding pTasks) (.holding infos)
  | freeing {pTasks : Nat} {pNextNode : Option Nat} {info : DwldNode} {rest : List (Cell DwldNode)}
      (first : memory.heap pTasks = some ⟨info,pNextNode⟩) (seg : Seg memory.heap pNextNode rest none) :
      Stands memory entries nodes ((pTasks,info) :: rest) (.freeing pTasks pNextNode) (.freeing rest.length)

/-- Who has which cells: the list of the tasks, with its head, and each caller. -/
def owners {ι : Type} (head : Nat) (entries : Entries) (own : ι → List (Cell DwldNode)) : Option ι → List Nat
  | none => head :: addrs (cellsOf entries)
  | some caller => addrs (own caller)

/-- In one of the loops that have the mutex. -/
def CopyPlace.Locks : CopyPlace → Prop
  | .copying .. => True
  | .undoing _ => True
  | _ => False

structure Reads {ι : Type} (s : TaskMemory ι) (shown : TaskCopies ι) (entries : Entries)
    (own : ι → List (Cell DwldNode)) : Prop where
  tasks : shown.store.tasks = entries.map Prod.snd
  chain : Seg s.memory.heap (some s.gDwldTasksInfoListHead) ((s.gDwldTasksInfoListHead,.head) :: cellsOf entries) none
  owned : Owned s.memory (owners s.gDwldTasksInfoListHead entries own)
  once : (entries.map fun entry => entry.2.node).Nodup
  made : ∀ entry ∈ entries, entry.2.node < shown.store.nodes
  file : s.gDwldInfofile = shown.store.file
  mutex : s.gDwldTasksMutex = shown.gDwldTasksMutex
  locked : ∀ caller, (shown.places caller).Locks → shown.gDwldTasksMutex = some caller
  stands : ∀ caller, Stands s.memory entries shown.store.nodes (own caller) (s.places caller) (shown.places caller)

/-- All that is allocated is the head, the nodes of the tasks, and the copies that callers have. -/
def Shows {ι : Type} (s : TaskMemory ι) (shown : TaskCopies ι) : Prop := ∃ entries own, Reads s shown entries own

end MoCodes.MoCloud.Client
