import MoCodes.Utils.ThreadPool.QueueLinks

/-! thMgr.c while the pool runs: any number of threads that add tasks and of work threads.
A call of the queue under its mutex is one step, and so are a post and a wait. -/
namespace MoCodes.Utils.ThreadPool
open MoCodes.Lib.Loop MoCodes.Lib.LinkedList MoCodes.Lib.Transition

variable {α : Type} {addNum thNum : Nat}

/-- Where a thread is that adds tasks: `semPost` after the queue has the task. -/
inductive AddTh where
  | idle
  | semPost
  deriving DecidableEq

/-- Where a work thread is in the loop of workTh. -/
inductive WorkTh where
  | semWait
  | getTask
  | doTask (taskNode : Nat)
  | freeTask (taskNode : Nat)
  deriving DecidableEq

def WorkTh.node : WorkTh → Option Nat
  | .doTask taskNode => some taskNode
  | .freeTask taskNode => some taskNode
  | _ => none

/-- THMGR_INFO with its threads, the tasks added so far, and who got which so far. -/
structure THMGR_INFO (α : Type) (addNum thNum : Nat) where
  pool : Pool α
  sem : Nat
  adders : Fin addNum → AddTh
  workers : Fin thNum → WorkTh
  added : List α
  got : List (Fin thNum × α)

inductive Step (α : Type) (addNum thNum : Nat) where
  | addTask (adder : Fin addNum) (taskInfo : α) (malloc : Option Nat)
  | semPost (adder : Fin addNum)
  | semWait (worker : Fin thNum)
  | getTask (worker : Fin thNum)
  | doTask (worker : Fin thNum)
  | freeTask (worker : Fin thNum)

def THMGR_INFO.Permits (mgr : THMGR_INFO α addNum thNum) : Step α addNum thNum → Prop
  | .addTask adder taskInfo malloc => mgr.adders adder = .idle ∧ mgr.pool.Permits (.addTask taskInfo malloc)
  | .semPost adder => mgr.adders adder = .semPost
  | .semWait worker => mgr.workers worker = .semWait ∧ 0 < mgr.sem
  | .getTask worker => mgr.workers worker = .getTask
  | .doTask worker => ∃ taskNode, mgr.workers worker = .doTask taskNode
  | .freeTask worker => ∃ taskNode, mgr.workers worker = .freeTask taskNode

section Threads

variable (mgr : THMGR_INFO α addNum thNum) (adder : Fin addNum) (worker : Fin thNum)

def THMGR_INFO.addTask (taskInfo : α) (malloc : Option Nat) : Option (THMGR_INFO α addNum thNum) :=
  (mgr.pool.call (.addTask taskInfo malloc)).map fun pool =>
    match malloc with
    | none => { mgr with pool := pool }
    | some _ => { mgr with
        pool := pool, adders := Function.update mgr.adders adder .semPost, added := mgr.added ++ [taskInfo] }

def THMGR_INFO.semPost : THMGR_INFO α addNum thNum :=
  { mgr with sem := mgr.sem+1, adders := Function.update mgr.adders adder .idle }

def THMGR_INFO.moveTo (place : WorkTh) : THMGR_INFO α addNum thNum :=
  { mgr with workers := Function.update mgr.workers worker place }

def THMGR_INFO.semWait : THMGR_INFO α addNum thNum := { mgr.moveTo worker .getTask with sem := mgr.sem-1 }

def THMGR_INFO.getTask : Option (THMGR_INFO α addNum thNum) :=
  match taskQueueGetTask mgr.pool.memory mgr.pool.queue with
  | none => none
  | some (none,_) => some (mgr.moveTo worker .semWait)
  | some (some taskNode,_) => match mgr.pool.memory taskNode,mgr.pool.call .getTask with
    | some node,some pool => some { mgr.moveTo worker (.doTask taskNode) with
        pool := pool, got := mgr.got ++ [(worker,node.taskInfo)] }
    | _,_ => none

/-- The task itself does nothing to the pool, but its node is read. -/
def THMGR_INFO.doTask : Option (THMGR_INFO α addNum thNum) :=
  match mgr.workers worker with
  | .doTask taskNode => (mgr.pool.memory taskNode).map fun _ => mgr.moveTo worker (.freeTask taskNode)
  | _ => some mgr

def THMGR_INFO.freeTask : Option (THMGR_INFO α addNum thNum) :=
  match mgr.workers worker with
  | .freeTask taskNode => (mgr.pool.memory taskNode).bind fun _ =>
      (mgr.pool.call (.free taskNode)).map fun pool => { mgr.moveTo worker .semWait with pool := pool }
  | _ => some mgr

def THMGR_INFO.step : Step α addNum thNum → Option (THMGR_INFO α addNum thNum)
  | .addTask adder taskInfo malloc => mgr.addTask adder taskInfo malloc
  | .semPost adder => some (mgr.semPost adder)
  | .semWait worker => some (mgr.semWait worker)
  | .getTask worker => mgr.getTask worker
  | .doTask worker => mgr.doTask worker
  | .freeTask worker => mgr.freeTask worker

end Threads

def threadPool (α : Type) (addNum thNum : Nat) : System (Option (THMGR_INFO α addNum thNum)) (Step α addNum thNum) where
  Enabled state step := ∃ mgr, state = some mgr ∧ mgr.Permits step
  next state step := state.bind fun mgr => mgr.step step

/-- What moUtils_TP_init leaves. -/
def moUtils_TP_init (memory : Memory α) (addNum thNum : Nat) : THMGR_INFO α addNum thNum :=
  ⟨initialPool memory,0,fun _ => .idle,fun _ => .semWait,[],[]⟩

/-- Every queued task has its post: made and not yet waited for, still to be made, or taken
by a work thread that has yet to take the task. -/
structure Inv (mgr : THMGR_INFO α addNum thNum) (cells : List (Cell α)) : Prop where
  queued : Queued mgr.pool.memory mgr.pool.queue cells
  held : Held mgr.pool.memory cells mgr.pool.taken
  hands : ∀ worker node, (mgr.workers worker).node = some node → node ∈ mgr.pool.taken
  apart : ∀ worker other node, (mgr.workers worker).node = some node →
    (mgr.workers other).node = some node → worker = other
  logged : mgr.added = mgr.got.map Prod.snd ++ cells.map Prod.snd
  counted : cells.length = mgr.sem + number mgr.workers .getTask + number mgr.adders .semPost

theorem inv_init (memory : Memory α) (addNum thNum : Nat) : Inv (moUtils_TP_init memory addNum thNum) [] where
  queued := ⟨rfl,rfl⟩
  held := ⟨List.nodup_nil,by simp [moUtils_TP_init,initialPool],by simp [moUtils_TP_init,initialPool]⟩
  hands := by simp [moUtils_TP_init,WorkTh.node]
  apart := by simp [moUtils_TP_init,WorkTh.node]
  logged := rfl
  counted := by simp [moUtils_TP_init,number]

/-- A thread that moves without a node takes none from the others. -/
theorem move_empty {workers : Fin thNum → WorkTh} {worker : Fin thNum} {place : WorkTh}
    (empty : place.node = none) (other : Fin thNum) (node : Nat)
    (holds : (Function.update workers worker place other).node = some node) :
    other ≠ worker ∧ (workers other).node = some node := by
  by_cases same : other = worker
  · rw [same,Function.update_self,empty] at holds
    cases holds
  · rw [Function.update_of_ne same] at holds
    exact ⟨same,holds⟩

section Steps

variable {mgr : THMGR_INFO α addNum thNum} {cells : List (Cell α)} (inv : Inv mgr cells)
  {adder : Fin addNum} {worker : Fin thNum}
include inv

theorem addTask_inv (idle : mgr.adders adder = .idle) (taskInfo : α) {newNode : Nat}
    (fresh : mgr.pool.memory newNode = none) :
    ∃ pool, mgr.addTask adder taskInfo (some newNode) = some { mgr with
        pool := pool, adders := Function.update mgr.adders adder .semPost, added := mgr.added ++ [taskInfo] } ∧
      Inv { mgr with
        pool := pool, adders := Function.update mgr.adders adder .semPost, added := mgr.added ++ [taskInfo] }
        (cells++[(newNode,taskInfo)]) := by
  obtain ⟨pool,called,queued,held,same⟩ := addTask_held inv.queued inv.held taskInfo fresh
  refine ⟨pool,by simp only [THMGR_INFO.addTask,called,Option.map_some],queued,held,?_,inv.apart,?_,?_⟩
  · rw [same]
    exact inv.hands
  · simp only [inv.logged,List.map_append,List.append_assoc,List.map_singleton]
  · have outside : mgr.adders adder ≠ .semPost := by rw [idle]; decide
    have entered := number_enter outside
    have counted := inv.counted
    simp only [List.length_append,List.length_singleton]
    omega

theorem semPost_inv (posting : mgr.adders adder = .semPost) : Inv (mgr.semPost adder) cells := by
  refine ⟨inv.queued,inv.held,inv.hands,inv.apart,inv.logged,?_⟩
  have left := number_leave posting (by decide : AddTh.idle ≠ .semPost)
  have counted := inv.counted
  simp only [THMGR_INFO.semPost]
  omega

theorem semWait_inv (waiting : mgr.workers worker = .semWait) (posted : 0 < mgr.sem) :
    Inv (mgr.semWait worker) cells := by
  have moved : ∀ other node, (Function.update mgr.workers worker .getTask other).node = some node →
      other ≠ worker ∧ (mgr.workers other).node = some node := move_empty rfl
  refine ⟨inv.queued,inv.held,?_,?_,inv.logged,?_⟩
  · exact fun other node holds => inv.hands other node (moved other node holds).2
  · exact fun other third node first second =>
      inv.apart other third node (moved other node first).2 (moved third node second).2
  · have outside : mgr.workers worker ≠ .getTask := by rw [waiting]; decide
    have entered := number_enter outside
    have counted := inv.counted
    simp only [THMGR_INFO.semWait,THMGR_INFO.moveTo]
    omega

theorem getTask_some (passed : mgr.workers worker = .getTask) : ∃ cell rest, cells = cell::rest := by
  have passing := number_pos.mpr ⟨worker,passed⟩
  have counted := inv.counted
  apply List.exists_cons_of_length_pos
  omega

theorem getTask_inv (passed : mgr.workers worker = .getTask) :
    ∃ cell rest pool, cells = cell::rest ∧
      mgr.getTask worker = some { mgr.moveTo worker (.doTask cell.1) with
        pool := pool, got := mgr.got ++ [(worker,cell.2)] } ∧
      Inv { mgr.moveTo worker (.doTask cell.1) with pool := pool, got := mgr.got ++ [(worker,cell.2)] } rest := by
  obtain ⟨cell,rest,rfl⟩ := getTask_some inv passed
  obtain ⟨queue,got,_⟩ := getTask_queued inv.queued
  obtain ⟨_,node,found,info,_⟩ := queued_first inv.queued
  obtain ⟨pool,called,queued,held,_,taken⟩ := getTask_held inv.queued inv.held
  have free : cell.1 ∉ mgr.pool.taken := fun member => inv.held.apart cell.1 member List.mem_cons_self
  refine ⟨cell,rest,pool,rfl,?_,queued,held,?_,?_,?_,?_⟩
  · simp only [THMGR_INFO.getTask,got,found,called,info]
  · intro other node holds
    rw [taken]
    by_cases same : other = worker
    · subst same
      simp only [THMGR_INFO.moveTo,Function.update_self,WorkTh.node] at holds
      cases holds
      simp
    · simp only [THMGR_INFO.moveTo,Function.update_of_ne same] at holds
      exact List.mem_append_left _ (inv.hands other node holds)
  · intro first second node one two
    simp only [THMGR_INFO.moveTo,Function.update_apply] at one two
    split at one
    · split at two
      · simp_all
      · cases one
        exact absurd (inv.hands second _ two) free
    · split at two
      · cases two
        exact absurd (inv.hands first _ one) free
      · exact inv.apart first second node one two
  · simp only [THMGR_INFO.moveTo,inv.logged,List.map_append,List.map_cons,List.map_nil,List.append_assoc,List.singleton_append]
  · have left := number_leave passed (by simp : WorkTh.doTask cell.1 ≠ .getTask)
    have counted := inv.counted
    simp only [THMGR_INFO.moveTo,List.length_cons] at counted ⊢
    omega

theorem doTask_inv {taskNode : Nat} (running : mgr.workers worker = .doTask taskNode) :
    mgr.doTask worker = some (mgr.moveTo worker (.freeTask taskNode)) ∧
      Inv (mgr.moveTo worker (.freeTask taskNode)) cells := by
  have holds : (mgr.workers worker).node = some taskNode := by rw [running]; rfl
  have same : ∀ other, (Function.update mgr.workers worker (.freeTask taskNode) other).node =
      (mgr.workers other).node := by
    intro other
    by_cases here : other = worker
    · rw [here,Function.update_self,holds]
      rfl
    · rw [Function.update_of_ne here]
  obtain ⟨node,found⟩ := Option.ne_none_iff_exists'.mp (inv.held.allocated _ (inv.hands worker _ holds))
  refine ⟨by simp only [THMGR_INFO.doTask,running,found,Option.map_some],inv.queued,inv.held,?_,?_,
    inv.logged,?_⟩
  · exact fun other node hand => inv.hands other node ((same other).symm.trans hand)
  · exact fun first second node one two =>
      inv.apart first second node ((same first).symm.trans one) ((same second).symm.trans two)
  · have outside : mgr.workers worker ≠ .getTask := by rw [running]; simp
    have kept := number_keep outside
      (by simp : WorkTh.freeTask taskNode ≠ .getTask)
    simp only [THMGR_INFO.moveTo,kept]
    exact inv.counted

theorem freeTask_inv {taskNode : Nat} (done : mgr.workers worker = .freeTask taskNode) :
    ∃ pool, mgr.freeTask worker = some { mgr.moveTo worker .semWait with pool := pool } ∧
      Inv { mgr.moveTo worker .semWait with pool := pool } cells := by
  have holds : (mgr.workers worker).node = some taskNode := by rw [done]; rfl
  have member := inv.hands worker _ holds
  obtain ⟨node,found⟩ := Option.ne_none_iff_exists'.mp (inv.held.allocated _ member)
  obtain ⟨queued,held⟩ := free_held inv.queued inv.held member
  have moved : ∀ other node, (Function.update mgr.workers worker .semWait other).node = some node →
      other ≠ worker ∧ (mgr.workers other).node = some node := move_empty rfl
  refine ⟨_,by simp only [THMGR_INFO.freeTask,done,found,Option.bind_some,Pool.call,Option.map_some],queued,held,
    ?_,?_,inv.logged,?_⟩
  · intro other node' hand
    obtain ⟨differ,before⟩ := moved other node' hand
    refine (inv.held.once.mem_erase_iff).mpr ⟨?_,inv.hands other node' before⟩
    rintro rfl
    exact differ (inv.apart other worker _ before holds)
  · exact fun first second node one two =>
      inv.apart first second node (moved first node one).2 (moved second node two).2
  · have outside : mgr.workers worker ≠ .getTask := by rw [done]; simp
    have kept := number_keep outside
      (by simp : WorkTh.semWait ≠ .getTask)
    simp only [THMGR_INFO.moveTo,kept]
    exact inv.counted

end Steps

/-- The work thread that takes the step. -/
def Step.worker : Step α addNum thNum → Option (Fin thNum)
  | .semWait worker => some worker
  | .getTask worker => some worker
  | .doTask worker => some worker
  | .freeTask worker => some worker
  | _ => none

/-- What a step leaves to the other threads. -/
structure Frame (mgr : THMGR_INFO α addNum thNum) (step : Step α addNum thNum)
    (after : THMGR_INFO α addNum thNum) : Prop where
  workers : ∀ worker, step.worker ≠ some worker → after.workers worker = mgr.workers worker
  adders : ∀ adder, step ≠ .semPost adder → mgr.adders adder = .semPost → after.adders adder = .semPost
  got : after.got = mgr.got ∨ ∃ entry, after.got = mgr.got ++ [entry]
  added : mgr.added <+: after.added
  sem : mgr.sem ≤ after.sem ∨ ∃ worker, step = .semWait worker

theorem step_inv {mgr : THMGR_INFO α addNum thNum} {cells : List (Cell α)} (inv : Inv mgr cells)
    {step : Step α addNum thNum} (permitted : mgr.Permits step) :
    ∃ after cells', mgr.step step = some after ∧ Inv after cells' ∧ Frame mgr step after := by
  have moved : ∀ (worker : Fin thNum) (place : WorkTh) (other : Fin thNum), some worker ≠ some other →
      Function.update mgr.workers worker place other = mgr.workers other := by
    intro worker place other differ
    exact Function.update_of_ne (fun same => differ (congrArg some same.symm)) ..
  match step,permitted with
  | .addTask adder taskInfo none,_ =>
    exact ⟨mgr,cells,rfl,inv,fun _ _ => rfl,fun _ _ posting => posting,.inl rfl,List.prefix_rfl,
      .inl (Nat.le_refl _)⟩
  | .addTask adder taskInfo (some newNode),⟨idle,fresh⟩ =>
    obtain ⟨pool,added,invAfter⟩ := addTask_inv inv idle taskInfo fresh
    refine ⟨_,_,added,invAfter,fun _ _ => rfl,?_,.inl rfl,List.prefix_append ..,.inl (Nat.le_refl _)⟩
    intro other _ posting
    change Function.update mgr.adders adder .semPost other = .semPost
    by_cases same : other = adder
    · rw [same,Function.update_self]
    · rwa [Function.update_of_ne same]
  | .semPost adder,posting =>
    refine ⟨_,_,rfl,semPost_inv inv posting,fun _ _ => rfl,?_,.inl rfl,List.prefix_rfl,.inl (Nat.le_succ _)⟩
    intro other differ here
    have apart : other ≠ adder := fun same => differ (congrArg _ same.symm)
    simp only [THMGR_INFO.semPost]
    rwa [Function.update_of_ne apart]
  | .semWait worker,⟨waiting,posted⟩ =>
    exact ⟨_,_,rfl,semWait_inv inv waiting posted,moved worker _,fun _ _ posting => posting,.inl rfl,
      List.prefix_rfl,.inr ⟨worker,rfl⟩⟩
  | .getTask worker,passed =>
    obtain ⟨cell,rest,pool,rfl,got,invAfter⟩ := getTask_inv inv passed
    exact ⟨_,_,got,invAfter,moved worker _,fun _ _ posting => posting,.inr ⟨_,rfl⟩,List.prefix_rfl,
      .inl (Nat.le_refl _)⟩
  | .doTask worker,⟨taskNode,running⟩ =>
    obtain ⟨did,invAfter⟩ := doTask_inv inv running
    exact ⟨_,_,did,invAfter,moved worker _,fun _ _ posting => posting,.inl rfl,List.prefix_rfl,
      .inl (Nat.le_refl _)⟩
  | .freeTask worker,⟨taskNode,done⟩ =>
    obtain ⟨pool,freed,invAfter⟩ := freeTask_inv inv done
    exact ⟨_,_,freed,invAfter,moved worker _,fun _ _ posting => posting,.inl rfl,List.prefix_rfl,
      .inl (Nat.le_refl _)⟩

/-- The pool never faults, and the invariant holds whatever the threads do. -/
theorem pool_inv {memory : Memory α} {state : Option (THMGR_INFO α addNum thNum)}
    (run : (threadPool α addNum thNum).Run anyEvent (some (moUtils_TP_init memory addNum thNum)) state) :
    ∃ mgr cells, state = some mgr ∧ Inv mgr cells := by
  apply run_invariant _ _ run
  · exact ⟨_,[],rfl,inv_init memory addNum thNum⟩
  · intro state step before enabled _
    obtain ⟨mgr,cells,rfl,inv⟩ := before
    obtain ⟨_,same,permitted⟩ := enabled
    cases same
    obtain ⟨after,cells',stepped,invAfter,_⟩ := step_inv inv permitted
    exact ⟨after,cells',stepped,invAfter⟩

end MoCodes.Utils.ThreadPool
