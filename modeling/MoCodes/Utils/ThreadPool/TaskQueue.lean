import MoCodes.Lib.LinkedList
import Mathlib.Algebra.Group.Nat.Defs

/-! taskQueue.c, of a queue that is there. The nodes lie in a memory, and an access to a node
that is not allocated is a fault, shown as `none`; what malloc returns is given. -/
namespace MoCodes.Utils.ThreadPool
open MoCodes.Lib.Loop MoCodes.Lib.LinkedList

variable {α : Type}

def MOUTILS_TP_ERR_OK : Int := 0

def MOUTILS_TP_ERR_MALLOCFAILED : Int := 0 - 10003

structure TASKNODE (α : Type) where
  taskInfo : α
  prev : Option Nat
  next : Option Nat

structure TASKDQUEUE where
  head : Option Nat
  tail : Option Nat
  taskNum : Nat

abbrev Memory (α : Type) := Nat → Option (TASKNODE α)

def taskQueueInit : TASKDQUEUE := ⟨none,none,0⟩

def unsignedInt : Nat := 2^32

def taskQueueAddTask (taskInfo : α) (malloc : Option Nat) (memory : Memory α) (queue : TASKDQUEUE) :
    Option (Int × Memory α × TASKDQUEUE) :=
  match malloc with
  | none => some (MOUTILS_TP_ERR_MALLOCFAILED,memory,queue)
  | some newNode =>
    let memory := Function.update memory newNode (some ⟨taskInfo,none,none⟩)
    match queue.head with
    | none => some (MOUTILS_TP_ERR_OK,memory,⟨some newNode,some newNode,1⟩)
    | some curHeadNode =>
      let memory := Function.update memory newNode (some ⟨taskInfo,none,some curHeadNode⟩)
      match memory curHeadNode with
      | none => none
      | some node =>
        some (MOUTILS_TP_ERR_OK,Function.update memory curHeadNode (some { node with prev := some newNode }),
          { queue with head := some newNode, taskNum := (queue.taskNum+1) % unsignedInt })

def taskQueueGetTask (memory : Memory α) (queue : TASKDQUEUE) : Option (Option Nat × TASKDQUEUE) :=
  match queue.tail with
  | none => some (none,queue)
  | some lastNode =>
    match memory lastNode with
    | none => none
    | some node =>
      match node.prev with
      | none => some (some lastNode,⟨none,none,0⟩)
      | some newLastNode =>
        -- the next pointer of the new last node stays as it is
        some (some lastNode,
          { queue with tail := some newLastNode, taskNum := (queue.taskNum+unsignedInt-1) % unsignedInt })

/-- What is left of the memory, pCurNode, and the nodes freed so far. -/
structure UnInit (α : Type) where
  memory : Memory α
  curNode : Option Nat
  freed : List Nat

def unInitBody (state : UnInit α) : Outcome (UnInit α) (Option (Memory α × List Nat)) :=
  match state.curNode with
  | none => .done (some (state.memory,state.freed))
  | some curNode =>
    match state.memory curNode with
    | none => .done none
    | some node => .next ⟨Function.update state.memory curNode none,node.next,state.freed ++ [curNode]⟩

/-- The memory after the call and the nodes it freed, `none` for a fault. -/
def taskQueueUnInit (memory : Memory α) (queue : TASKDQUEUE) (result : Option (Memory α × List Nat)) : Prop :=
  Returns unInitBody ⟨memory,queue.head,[]⟩ result

section Views

def prevView (memory : Memory α) : Heap α := fun addr =>
  (memory addr).map fun node => ⟨node.taskInfo,node.prev⟩

def nextView (memory : Memory α) : Heap α := fun addr =>
  (memory addr).map fun node => ⟨node.taskInfo,node.next⟩

variable (memory : Memory α) (addr : Nat)

@[simp] theorem prevView_update (node : TASKNODE α) :
    prevView (Function.update memory addr (some node)) =
      write (prevView memory) addr ⟨node.taskInfo,node.prev⟩ := by
  funext other
  by_cases same : other = addr <;> simp [prevView,write,same]

@[simp] theorem nextView_update (node : TASKNODE α) :
    nextView (Function.update memory addr (some node)) =
      write (nextView memory) addr ⟨node.taskInfo,node.next⟩ := by
  funext other
  by_cases same : other = addr <;> simp [nextView,write,same]

@[simp] theorem prevView_free : prevView (Function.update memory addr none) = free (prevView memory) addr := by
  funext other
  by_cases same : other = addr <;> simp [prevView,free,same]

@[simp] theorem nextView_free : nextView (Function.update memory addr none) = free (nextView memory) addr := by
  funext other
  by_cases same : other = addr <;> simp [nextView,free,same]

end Views

/-- The tasks of the queue, the oldest first, as they are found from the tail on. -/
structure Queued (memory : Memory α) (queue : TASKDQUEUE) (cells : List (Cell α)) : Prop where
  backward : Seg (prevView memory) queue.tail cells none
  newest : queue.head = cells.getLast?.map Prod.fst

/-- The same tasks are found from the head on, and counted. -/
structure Linked (memory : Memory α) (queue : TASKDQUEUE) (cells : List (Cell α)) : Prop
    extends Queued memory queue cells where
  forward : Seg (nextView memory) queue.head cells.reverse none
  number : queue.taskNum = cells.length

section Operations

variable {memory : Memory α} {queue : TASKDQUEUE} {cells : List (Cell α)}

theorem queued_allocated (queued : Queued memory queue cells) {addr : Nat} (member : addr ∈ addrs cells) :
    memory addr ≠ none := by
  intro absent
  exact seg_allocated queued.backward member (by rw [prevView,absent,Option.map_none])

theorem queued_first {cell : Cell α} (queued : Queued memory queue (cell::cells)) :
    queue.tail = some cell.1 ∧ ∃ node, memory cell.1 = some node ∧ node.taskInfo = cell.2 ∧
      Seg (prevView memory) node.prev cells none := by
  obtain ⟨here,prev,view,rest⟩ := queued.backward
  refine ⟨here,?_⟩
  obtain ⟨node,found,same⟩ := Option.map_eq_some_iff.mp view
  obtain ⟨info,rfl⟩ := Node.mk.inj same
  exact ⟨node,found,info,rest⟩

theorem getTask_empty (queued : Queued memory queue []) :
    taskQueueGetTask memory queue = some (none,queue) := by
  have empty : queue.tail = none := queued.backward
  simp only [taskQueueGetTask,empty]

theorem getTask_one {cell : Cell α} (queued : Queued memory queue [cell]) :
    taskQueueGetTask memory queue = some (some cell.1,taskQueueInit) := by
  obtain ⟨tail,node,found,_,rest⟩ := queued_first queued
  rw [Seg] at rest
  simp only [taskQueueGetTask,tail,found,rest]
  rfl

theorem getTask_more {cell next : Cell α} (queued : Queued memory queue (cell::next::cells)) :
    taskQueueGetTask memory queue = some (some cell.1,
      { queue with tail := some next.1, taskNum := (queue.taskNum+unsignedInt-1) % unsignedInt }) := by
  obtain ⟨tail,node,found,_,rest⟩ := queued_first queued
  simp only [taskQueueGetTask,tail,found,rest.1]

theorem getTask_queued {cell : Cell α} (queued : Queued memory queue (cell::cells)) :
    ∃ after, taskQueueGetTask memory queue = some (some cell.1,after) ∧ Queued memory after cells := by
  cases cells with
  | nil => exact ⟨_,getTask_one queued,rfl,rfl⟩
  | cons next cells =>
    obtain ⟨_,_,_,_,rest⟩ := queued_first queued
    refine ⟨_,getTask_more queued,?_,?_⟩
    · rwa [rest.1] at rest
    · rw [queued.newest,List.getLast?_cons_cons]

theorem addTask_empty (taskInfo : α) (newNode : Nat) (empty : queue.head = none) :
    taskQueueAddTask taskInfo (some newNode) memory queue =
      some (MOUTILS_TP_ERR_OK,Function.update memory newNode (some ⟨taskInfo,none,none⟩),
        ⟨some newNode,some newNode,1⟩) := by
  simp only [taskQueueAddTask,empty]

theorem addTask_more (taskInfo : α) {newNode curHeadNode : Nat} {node : TASKNODE α}
    (head : queue.head = some curHeadNode) (found : memory curHeadNode = some node)
    (fresh : memory newNode = none) :
    taskQueueAddTask taskInfo (some newNode) memory queue =
      some (MOUTILS_TP_ERR_OK,
        Function.update (Function.update memory newNode (some ⟨taskInfo,none,some curHeadNode⟩)) curHeadNode
          (some { node with prev := some newNode }),
        { queue with head := some newNode, taskNum := (queue.taskNum+1) % unsignedInt }) := by
  have apart : curHeadNode ≠ newNode := by
    rintro rfl
    rw [fresh] at found
    cases found
  simp only [taskQueueAddTask,head,Function.update_idem,Function.update_of_ne apart,found]

theorem addTask_queued (queued : Queued memory queue cells) (taskInfo : α) {newNode : Nat}
    (fresh : memory newNode = none) :
    ∃ after queue', taskQueueAddTask taskInfo (some newNode) memory queue =
        some (MOUTILS_TP_ERR_OK,after,queue') ∧
      Queued after queue' (cells++[(newNode,taskInfo)]) ∧
      after newNode ≠ none ∧
      ∀ addr, addr ≠ newNode → (after addr = none ↔ memory addr = none) := by
  rcases List.eq_nil_or_concat cells with rfl | ⟨front,last,rfl⟩
  · refine ⟨_,_,addTask_empty taskInfo newNode queued.newest,⟨?_,rfl⟩,by simp,?_⟩
    · rw [prevView_update]
      exact ⟨rfl,none,Function.update_self ..,rfl⟩
    · intro addr other
      rw [Function.update_of_ne other]
  · rw [List.concat_eq_append] at queued ⊢
    have head : queue.head = some last.1 := by
      rw [queued.newest,List.getLast?_concat]
      rfl
    obtain ⟨mid,before,here,prev,view,ends⟩ := seg_append.mp queued.backward
    obtain ⟨node,found,same⟩ := Option.map_eq_some_iff.mp view
    obtain ⟨info,_⟩ := Node.mk.inj same
    have nodup := seg_nodup queued.backward
    have apart : newNode ≠ last.1 := by
      rintro rfl
      rw [fresh] at found
      cases found
    have lastNew : last.1 ∉ addrs front := by
      intro member
      rw [addrs,List.map_append,List.nodup_append] at nodup
      exact nodup.2.2 _ member _ (by simp) rfl
    have newNew : newNode ∉ addrs front := by
      intro member
      apply queued_allocated queued _ fresh
      rw [addrs,List.map_append]
      exact List.mem_append_left _ member
    refine ⟨_,_,addTask_more taskInfo head found fresh,⟨?_,by simp⟩,?_,?_⟩
    · rw [prevView_update,prevView_update,List.append_assoc]
      refine seg_append.mpr ⟨mid,seg_write lastNew (seg_write newNew before),here,some newNode,?_,rfl,none,?_,rfl⟩
      · rw [write,Function.update_self,info]
      · rw [write,Function.update_of_ne apart,write,Function.update_self]
    · rw [Function.update_of_ne apart,Function.update_self]
      exact Option.some_ne_none _
    · intro addr other
      by_cases atLast : addr = last.1
      · rw [atLast,Function.update_self,found]
        simp
      · rw [Function.update_of_ne atLast,Function.update_of_ne other]

theorem free_queued (queued : Queued memory queue cells) {node : Nat} (apart : node ∉ addrs cells) :
    Queued (Function.update memory node none) queue cells := by
  refine ⟨?_,queued.newest⟩
  rw [prevView_free]
  apply seg_frame _ queued.backward
  intro addr member
  exact Function.update_of_ne (by rintro rfl; exact apart member) ..

end Operations

end MoCodes.Utils.ThreadPool
