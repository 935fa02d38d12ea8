import MoCodes.Utils.ThreadPool.TaskQueue
import MoCodes.Lib.Transition

/-! The task queue as a list linked in both directions, over any sequence of calls. -/
namespace MoCodes.Utils.ThreadPool
open MoCodes.Lib.Loop MoCodes.Lib.LinkedList MoCodes.Lib.Transition

variable {α : Type}

section Linked

variable {memory : Memory α} {queue : TASKDQUEUE} {cells : List (Cell α)}

theorem addTask_linked (linked : Linked memory queue cells) (taskInfo : α) {newNode : Nat}
    (fresh : memory newNode = none) (room : queue.taskNum+1 < unsignedInt) :
    ∃ after queue', taskQueueAddTask taskInfo (some newNode) memory queue =
      some (MOUTILS_TP_ERR_OK,after,queue') ∧ Linked after queue' (cells++[(newNode,taskInfo)]) := by
  obtain ⟨after,queue',added,queued,_⟩ := addTask_queued linked.toQueued taskInfo fresh
  suffices forward : Seg (nextView after) queue'.head (cells++[(newNode,taskInfo)]).reverse none ∧
      queue'.taskNum = (cells++[(newNode,taskInfo)]).length by
    exact ⟨after,queue',added,queued,forward.1,forward.2⟩
  rcases List.eq_nil_or_concat cells with rfl | ⟨front,last,rfl⟩
  · rw [addTask_empty taskInfo newNode linked.newest] at added
    cases added
    refine ⟨?_,rfl⟩
    rw [nextView_update]
    exact ⟨rfl,none,Function.update_self ..,rfl⟩
  · rw [List.concat_eq_append] at linked ⊢
    have forward := linked.forward
    rw [List.reverse_append,List.reverse_singleton,List.singleton_append] at forward
    obtain ⟨head,next,view,_⟩ := id forward
    obtain ⟨node,found,same⟩ := Option.map_eq_some_iff.mp view
    rw [addTask_more taskInfo head found fresh] at added
    cases added
    have newNew : newNode ∉ addrs (last::front.reverse) := by
      intro member
      exact seg_allocated forward member (by rw [nextView,fresh,Option.map_none])
    have apart : newNode ≠ last.1 := fun equal => newNew (equal ▸ List.mem_cons_self)
    constructor
    · rw [nextView_update,nextView_update,List.reverse_append,List.reverse_append]
      refine ⟨rfl,some last.1,?_,?_⟩
      · rw [write,Function.update_of_ne apart,write,Function.update_self]
      · rw [head] at forward
        apply seg_frame _ forward
        intro addr member
        by_cases atLast : addr = last.1
        · rw [atLast,view,write,Function.update_self,← same]
        · have other : addr ≠ newNode := fun equal => newNew (equal ▸ member)
          rw [write,Function.update_of_ne atLast,write,Function.update_of_ne other]
    · rw [linked.number] at room ⊢
      simp only [List.length_append,List.length_singleton] at room ⊢
      exact Nat.mod_eq_of_lt room

theorem addTask_number {taskInfo : α} {newNode : Nat} {ret : Int} {after : Memory α} {queue' : TASKDQUEUE}
    (added : taskQueueAddTask taskInfo (some newNode) memory queue = some (ret,after,queue')) :
    queue'.taskNum < unsignedInt := by
  simp only [taskQueueAddTask] at added
  split at added
  · cases added
    change 1 < unsignedInt
    decide
  · split at added
    · cases added
    · cases added
      exact Nat.mod_lt _ (by decide)

theorem init_linked (memory : Memory α) : Linked memory taskQueueInit [] := ⟨⟨rfl,rfl⟩,rfl,rfl⟩

/-- The next pointer of the new last node leads to the node that was taken. -/
theorem getTask_unlinked (linked : Linked memory queue cells) (many : 1 < queue.taskNum)
    {lastNode : Option Nat} {after : TASKDQUEUE} (got : taskQueueGetTask memory queue = some (lastNode,after))
    (others : List (Cell α)) : ¬Linked memory after others := by
  intro again
  rw [linked.number] at many
  match cells,linked with
  | [],linked => cases many
  | [cell],linked => simp at many
  | cell::next::cells,linked =>
    have result := getTask_more linked.toQueued
    rw [got] at result
    cases result
    have reached := seg_unique again.forward linked.forward
    obtain ⟨_,taken,behind⟩ := getTask_queued linked.toQueued
    rw [got] at taken
    cases taken
    have left := seg_unique again.backward behind.backward
    have size := congrArg List.length reached
    rw [left] at size
    simp at size

theorem unInit_seg {link : Option Nat} (seg : Seg (nextView memory) link cells none) (freed : List Nat) :
    ∃ after, Returns unInitBody ⟨memory,link,freed⟩ (some (after,freed ++ addrs cells)) ∧
      ∀ addr, after addr = if addr ∈ addrs cells then none else memory addr := by
  induction cells generalizing link memory freed with
  | nil =>
    rw [Seg] at seg
    subst seg
    refine ⟨memory,returns_done ?_,by simp [addrs]⟩
    simp [unInitBody,addrs]
  | cons cell cells ih =>
    have nodup := seg_nodup seg
    obtain ⟨rfl,next,view,rest⟩ := seg
    obtain ⟨node,found,same⟩ := Option.map_eq_some_iff.mp view
    obtain ⟨_,rfl⟩ := Node.mk.inj same
    obtain ⟨once,_⟩ := List.nodup_cons.mp nodup
    have left : Seg (nextView (Function.update memory cell.1 none)) node.next cells none := by
      rw [nextView_free]
      apply seg_frame _ rest
      intro addr member
      exact Function.update_of_ne (by rintro rfl; exact once member) ..
    obtain ⟨after,returned,spec⟩ := ih left (freed++[cell.1])
    have step : unInitBody ⟨memory,some cell.1,freed⟩ =
        .next ⟨Function.update memory cell.1 none,node.next,freed++[cell.1]⟩ := by
      simp only [unInitBody,found]
    refine ⟨after,?_,?_⟩
    · rw [returns_next step]
      rwa [List.append_assoc] at returned
    · intro addr
      have members : addr ∈ addrs (cell::cells) ↔ addr = cell.1 ∨ addr ∈ addrs cells := List.mem_cons
      rw [spec addr]
      by_cases here : addr = cell.1
      · subst here
        simp [members]
      · simp [members,here]

theorem unInit_linked (linked : Linked memory queue cells) :
    ∃ after, taskQueueUnInit memory queue (some (after,addrs cells.reverse)) ∧
      ∀ addr, after addr = if addr ∈ addrs cells.reverse then none else memory addr :=
  unInit_seg linked.forward []

end Linked

/-- The queue with its memory, and the nodes that were taken and are not yet freed. -/
structure Pool (α : Type) where
  memory : Memory α
  queue : TASKDQUEUE
  taken : List Nat

inductive Call (α : Type) where
  | addTask (taskInfo : α) (malloc : Option Nat)
  | getTask
  | free (node : Nat)

/-- malloc returns what is not allocated, and a caller frees only what it was given. -/
def Pool.Permits (pool : Pool α) : Call α → Prop
  | .addTask _ none => True
  | .addTask _ (some newNode) => pool.memory newNode = none
  | .getTask => True
  | .free node => node ∈ pool.taken

def Pool.call (pool : Pool α) : Call α → Option (Pool α)
  | .addTask taskInfo malloc => (taskQueueAddTask taskInfo malloc pool.memory pool.queue).map fun result =>
      { pool with memory := result.2.1, queue := result.2.2 }
  | .getTask => (taskQueueGetTask pool.memory pool.queue).map fun result =>
      { pool with queue := result.2, taken := pool.taken ++ result.1.toList }
  | .free node =>
      some { pool with memory := Function.update pool.memory node none, taken := pool.taken.erase node }

/-- The calls in any order; nothing follows a fault. -/
def calls (α : Type) : System (Option (Pool α)) (Call α) where
  Enabled state call := ∃ pool, state = some pool ∧ pool.Permits call
  next state call := state.bind fun pool => pool.call call

def initialPool (memory : Memory α) : Pool α := ⟨memory,taskQueueInit,[]⟩

/-- Nobody holds a node of the queue. -/
structure Held (memory : Memory α) (cells : List (Cell α)) (taken : List Nat) : Prop where
  once : taken.Nodup
  allocated : ∀ node ∈ taken, memory node ≠ none
  apart : ∀ node ∈ taken, node ∉ addrs cells

section Holding

variable {pool : Pool α} {cells : List (Cell α)}

theorem addTask_held (queued : Queued pool.memory pool.queue cells)
    (held : Held pool.memory cells pool.taken) (taskInfo : α) {newNode : Nat}
    (fresh : pool.memory newNode = none) :
    ∃ after, pool.call (.addTask taskInfo (some newNode)) = some after ∧
      Queued after.memory after.queue (cells++[(newNode,taskInfo)]) ∧
      Held after.memory (cells++[(newNode,taskInfo)]) after.taken ∧ after.taken = pool.taken := by
  obtain ⟨memory,queue,added,queuedAfter,_,frame⟩ := addTask_queued queued taskInfo fresh
  refine ⟨⟨memory,queue,pool.taken⟩,by simp only [Pool.call,added,Option.map_some],queuedAfter,?_,rfl⟩
  have other : ∀ node ∈ pool.taken, node ≠ newNode := by
    rintro node member rfl
    exact held.allocated node member fresh
  refine ⟨held.once,?_,?_⟩
  · intro node member absent
    exact held.allocated node member ((frame node (other node member)).mp absent)
  · intro node member inside
    rw [addrs,List.map_append,List.mem_append] at inside
    rcases inside with old | new
    · exact held.apart node member old
    · exact other node member (List.mem_singleton.mp new)

theorem getTask_held {cell : Cell α} (queued : Queued pool.memory pool.queue (cell::cells))
    (held : Held pool.memory (cell::cells) pool.taken) :
    ∃ after, pool.call .getTask = some after ∧ Queued after.memory after.queue cells ∧
      Held after.memory cells after.taken ∧ after.memory = pool.memory ∧
      after.taken = pool.taken ++ [cell.1] := by
  obtain ⟨queue,got,queuedAfter⟩ := getTask_queued queued
  have nodup := seg_nodup queued.backward
  obtain ⟨once,_⟩ := List.nodup_cons.mp nodup
  refine ⟨⟨pool.memory,queue,pool.taken++[cell.1]⟩,by simp only [Pool.call,got,Option.map_some,Option.toList],
    queuedAfter,?_,rfl,rfl⟩
  refine ⟨?_,?_,?_⟩
  · rw [List.nodup_append]
    refine ⟨held.once,by simp,?_⟩
    rintro node member other new rfl
    exact held.apart node member (List.mem_singleton.mp new ▸ List.mem_cons_self)
  · intro node member
    rcases List.mem_append.mp member with old | new
    · exact held.allocated node old
    · rw [List.mem_singleton.mp new]
      exact queued_allocated queued List.mem_cons_self
  · intro node member
    rcases List.mem_append.mp member with old | new
    · exact fun inside => held.apart node old (List.mem_cons_of_mem _ inside)
    · rw [List.mem_singleton.mp new]
      exact once

theorem getTask_held_empty (queued : Queued pool.memory pool.queue []) : pool.call .getTask = some pool := by
  simp only [Pool.call,getTask_empty queued,Option.map_some,Option.toList,List.append_nil]

theorem free_held (queued : Queued pool.memory pool.queue cells) (held : Held pool.memory cells pool.taken)
    {node : Nat} (member : node ∈ pool.taken) :
    let after : Pool α :=
      { pool with memory := Function.update pool.memory node none, taken := pool.taken.erase node }
    Queued after.memory after.queue cells ∧ Held after.memory cells after.taken := by
  refine ⟨free_queued queued (held.apart node member),held.once.erase node,?_,?_⟩
  · intro other remains
    obtain ⟨differ,inside⟩ := held.once.mem_erase_iff.mp remains
    change Function.update pool.memory node none other ≠ none
    rw [Function.update_of_ne differ]
    exact held.allocated other inside
  · exact fun other remains => held.apart other (List.mem_of_mem_erase remains)

end Holding

/-- The end of the queue frees its nodes, each once, and leaves all others alone. -/
def FreesQueued (pool : Pool α) (cells : List (Cell α)) : Prop :=
  ∃ after, taskQueueUnInit pool.memory pool.queue (some (after,addrs cells.reverse)) ∧
    (addrs cells.reverse).Nodup ∧ ∀ addr, after addr = if addr ∈ addrs cells.reverse then none else pool.memory addr

/-- The next pointers lead from the head to the tail through the counted nodes, the prev
pointers back, no node that was taken is among these, and just these will be freed. -/
def Sound (state : Option (Pool α)) : Prop :=
  ∃ pool cells, state = some pool ∧ Linked pool.memory pool.queue cells ∧
    Held pool.memory cells pool.taken ∧ FreesQueued pool cells

/-- No task is taken from a queue of several, and none is added that makes the count wrap. -/
def OneAtMost : Option (Pool α) → Call α → Prop
  | some pool,.getTask => pool.queue.taskNum ≤ 1
  | some pool,.addTask _ (some _) => pool.queue.taskNum+1 < unsignedInt
  | _,_ => True

theorem sound_of_linked {pool : Pool α} {cells : List (Cell α)} (linked : Linked pool.memory pool.queue cells)
    (held : Held pool.memory cells pool.taken) : Sound (some pool) := by
  obtain ⟨after,returned,frame⟩ := unInit_linked linked
  exact ⟨pool,cells,rfl,linked,held,after,returned,seg_nodup linked.forward,frame⟩

section Steps

variable {pool : Pool α} {cells : List (Cell α)} (linked : Linked pool.memory pool.queue cells)
  (held : Held pool.memory cells pool.taken)
include linked held

theorem addTask_sound (taskInfo : α) {newNode : Nat} (fresh : pool.memory newNode = none) :
    Sound (pool.call (.addTask taskInfo (some newNode))) ↔ pool.queue.taskNum+1 < unsignedInt := by
  obtain ⟨after,called,queuedAfter,heldAfter,_⟩ := addTask_held linked.toQueued held taskInfo fresh
  constructor
  · intro ⟨again,others,same,linkedAgain,_⟩
    rw [called] at same
    cases same
    obtain ⟨result,added,rfl⟩ := Option.map_eq_some_iff.mp called
    have number := addTask_number added
    have whole := seg_unique linkedAgain.backward queuedAfter.backward
    have counted := linkedAgain.number
    rw [whole,List.length_append,List.length_singleton,← linked.number] at counted
    exact counted ▸ number
  · intro room
    obtain ⟨memory,queue,added,linkedAfter⟩ := addTask_linked linked taskInfo fresh room
    rw [called]
    rw [Pool.call,added] at called
    cases called
    exact sound_of_linked linkedAfter heldAfter

theorem getTask_sound : Sound (pool.call .getTask) ↔ pool.queue.taskNum ≤ 1 := by
  constructor
  · intro ⟨after,others,same,linkedAfter,_⟩
    by_contra many
    obtain ⟨result,got,rfl⟩ := Option.map_eq_some_iff.mp same
    exact getTask_unlinked linked (Nat.lt_of_not_le many) got others linkedAfter
  · intro few
    rw [linked.number] at few
    match cells,linked,held with
    | [],linked,held =>
      rw [getTask_held_empty linked.toQueued]
      exact sound_of_linked linked held
    | [cell],linked,held =>
      obtain ⟨after,called,_,heldAfter,unchanged,_⟩ := getTask_held linked.toQueued held
      rw [called]
      rw [Pool.call,getTask_one linked.toQueued] at called
      cases called
      exact sound_of_linked (init_linked _) heldAfter
    | cell::next::cells,_,_ => simp at few

theorem free_sound {node : Nat} (member : node ∈ pool.taken) : Sound (pool.call (.free node)) := by
  obtain ⟨queuedAfter,heldAfter⟩ := free_held linked.toQueued held member
  refine sound_of_linked ⟨queuedAfter,?_,linked.number⟩ heldAfter
  change Seg (nextView (Function.update pool.memory node none)) _ _ _
  rw [nextView_free]
  apply seg_frame _ linked.forward
  intro addr inside
  apply Function.update_of_ne
  rintro rfl
  rw [addrs,List.map_reverse,List.mem_reverse] at inside
  exact held.apart _ member inside

end Steps

theorem call_sound {state : Option (Pool α)} {call : Call α} (sound : Sound state)
    (enabled : (calls α).Enabled state call) :
    Sound ((calls α).next state call) ↔ OneAtMost state call := by
  obtain ⟨pool,cells,rfl,linked,held,_⟩ := sound
  obtain ⟨_,same,permitted⟩ := enabled
  cases same
  match call,permitted with
  | .addTask taskInfo none,_ => exact iff_of_true (sound_of_linked linked held) trivial
  | .addTask taskInfo (some newNode),fresh => exact addTask_sound linked held taskInfo fresh
  | .getTask,_ => exact getTask_sound linked held
  | .free node,member => exact iff_of_true (free_sound linked held member) trivial

theorem init_sound (memory : Memory α) : Sound (some (initialPool memory)) :=
  sound_of_linked (init_linked memory) ⟨List.nodup_nil,by simp [initialPool],by simp [initialPool]⟩

/-- The queue is well linked after every call exactly when no task is ever taken from a
queue of several and the count never wraps. -/
theorem queue_sound_iff (memory : Memory α) {sequence : List (Call α)}
    (permitted : (calls α).Follows anyEvent (some (initialPool memory)) sequence) :
    (∀ front, front <+: sequence → Sound (front.foldl (calls α).next (some (initialPool memory)))) ↔
      (calls α).Follows OneAtMost (some (initialPool memory)) sequence :=
  follows_iff_prefixes call_sound (init_sound memory) permitted

theorem queue_sound_one :
    (calls Nat).Follows anyEvent (some (initialPool fun _ => none)) [.addTask 7 (some 0),.getTask,.free 0] ∧
      ∀ front, front <+: [Call.addTask 7 (some 0),.getTask,.free 0] →
        Sound (front.foldl (calls Nat).next (some (initialPool fun _ => none))) := by
  have permitted : (calls Nat).Follows anyEvent (some (initialPool fun _ => none))
      [.addTask 7 (some 0),.getTask,.free 0] :=
    ⟨⟨⟨_,rfl,rfl⟩,trivial⟩,⟨⟨_,rfl,trivial⟩,trivial⟩,⟨⟨_,rfl,List.mem_singleton_self 0⟩,trivial⟩,trivial⟩
  refine ⟨permitted,(queue_sound_iff (fun _ => none) permitted).mpr ?_⟩
  refine ⟨⟨⟨_,rfl,rfl⟩,?_⟩,⟨⟨_,rfl,trivial⟩,?_⟩,⟨⟨_,rfl,List.mem_singleton_self 0⟩,trivial⟩,trivial⟩
  · change 0+1 < unsignedInt
    decide
  · exact Nat.le_refl 1

/-- Two tasks are added and one is taken. -/
theorem queue_two_tasks :
    (calls Nat).Follows anyEvent (some (initialPool fun _ => none))
        [.addTask 7 (some 0),.addTask 8 (some 1),.getTask] ∧
      ¬Sound ([Call.addTask 7 (some 0),.addTask 8 (some 1),.getTask].foldl (calls Nat).next
        (some (initialPool fun _ => none))) := by
  refine ⟨⟨⟨⟨_,rfl,rfl⟩,trivial⟩,⟨⟨_,rfl,rfl⟩,trivial⟩,⟨⟨_,rfl,trivial⟩,trivial⟩,trivial⟩,?_⟩
  intro ⟨pool,cells,same,linked,_⟩
  cases same
  obtain ⟨cell,rfl⟩ := List.length_eq_one_iff.mp linked.number.symm
  obtain ⟨here,next,view,ends⟩ := linked.forward
  have first : cell.1 = 1 := (Option.some.inj here).symm
  rw [Seg] at ends
  have last := congrArg (Option.map Node.next) view
  rw [first,ends] at last
  change some (some 0) = some none at last
  cases last

end MoCodes.Utils.ThreadPool
