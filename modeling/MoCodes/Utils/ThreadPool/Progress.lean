import MoCodes.Utils.ThreadPool.ThMgr
import MoCodes.Lib.Fairness

/-! Every task that is added to a running pool is taken by one thread, in the order of adding. -/
namespace MoCodes.Utils.ThreadPool
open MoCodes.Lib.LinkedList MoCodes.Lib.Transition MoCodes.Lib.Fairness

variable {α : Type} {addNum thNum : Nat}

abbrev PoolRun (memory : Memory α) (addNum thNum : Nat) : Type :=
  Endless (threadPool α addNum thNum) (some (moUtils_TP_init memory addNum thNum))

/-- No thread is left standing: each makes its post after a task, and each work thread goes
on, so that its tasks return. -/
structure Fair {memory : Memory α} (run : PoolRun memory addNum thNum) : Prop where
  adders : ∀ adder, run.WeaklyFair fun step => step = .semPost adder
  workers : ∀ worker, run.WeaklyFair fun step => step.worker = some worker

def Ahead (taken : Nat) (state : Option (THMGR_INFO α addNum thNum)) : Prop :=
  ∃ mgr, state = some mgr ∧ taken < mgr.got.length

/-- So many tasks were taken, and the thread is at the place. -/
def WorkAt (taken : Nat) (worker : Fin thNum) (place : WorkTh) (state : Option (THMGR_INFO α addNum thNum)) :
    Prop :=
  ∃ mgr, state = some mgr ∧ mgr.got.length = taken ∧ mgr.workers worker = place

def Posted (taken : Nat) (worker : Fin thNum) (place : WorkTh) (state : Option (THMGR_INFO α addNum thNum)) :
    Prop :=
  ∃ mgr, state = some mgr ∧ mgr.got.length = taken ∧ mgr.workers worker = place ∧ 0 < mgr.sem

def AddAt (taken : Nat) (adder : Fin addNum) (state : Option (THMGR_INFO α addNum thNum)) : Prop :=
  ∃ mgr, state = some mgr ∧ mgr.got.length = taken ∧ mgr.adders adder = .semPost

/-- A task was taken, or a thread is about to take one. -/
def Closer (taken : Nat) (state : Option (THMGR_INFO α addNum thNum)) : Prop :=
  Ahead taken state ∨ ∃ worker, WorkAt taken worker .getTask state

section OwnStep

variable {mgr after : THMGR_INFO α addNum thNum} {cells : List (Cell α)} {step : Step α addNum thNum}
  {worker : Fin thNum}

theorem own_step (inv : Inv mgr cells) (permitted : mgr.Permits step) (own : step.worker = some worker)
    (stepped : mgr.step step = some after) :
    match mgr.workers worker with
    | .semWait => after.got = mgr.got ∧ after.workers worker = .getTask
    | .getTask => after.got.length = mgr.got.length+1
    | .doTask taskNode => after.got = mgr.got ∧ after.workers worker = .freeTask taskNode ∧ after.sem = mgr.sem
    | .freeTask _ => after.got = mgr.got ∧ after.workers worker = .semWait ∧ after.sem = mgr.sem := by
  match step,own,permitted with
  | .semWait _,rfl,⟨waiting,_⟩ =>
    cases stepped
    rw [waiting]
    exact ⟨rfl,Function.update_self ..⟩
  | .getTask _,rfl,passed =>
    obtain ⟨cell,rest,pool,_,got,_⟩ := getTask_inv inv passed
    cases got.symm.trans stepped
    rw [passed]
    exact List.length_append
  | .doTask _,rfl,⟨taskNode,running⟩ =>
    obtain ⟨did,_⟩ := doTask_inv inv running
    cases did.symm.trans stepped
    rw [running]
    exact ⟨rfl,Function.update_self ..,rfl⟩
  | .freeTask _,rfl,⟨taskNode,done⟩ =>
    obtain ⟨pool,freed,_⟩ := freeTask_inv inv done
    cases freed.symm.trans stepped
    rw [done]
    exact ⟨rfl,Function.update_self ..,rfl⟩

theorem frame_ahead {taken : Nat} (frame : Frame mgr step after) (here : mgr.got.length = taken) :
    after.got.length = taken ∨ Ahead taken (some after) := by
  rcases frame.got with same | ⟨entry,more⟩
  · exact .inl (by rw [same,here])
  · refine .inr ⟨after,rfl,?_⟩
    rw [more,List.length_append,List.length_singleton,here]
    exact Nat.lt_succ_self taken

/-- A step of another thread leaves the thread where it is, or brings some thread to a task. -/
theorem other_posted {taken : Nat} {place : WorkTh} (frame : Frame mgr step after)
    (stepped : mgr.step step = some after) (other : step.worker ≠ some worker)
    (here : mgr.got.length = taken) (there : mgr.workers worker = place) (posted : 0 < mgr.sem) :
    Posted taken worker place (some after) ∨ Closer taken (some after) := by
  rcases frame_ahead frame here with same | ahead
  · rcases frame.sem with more | ⟨waiter,rfl⟩
    · exact .inl ⟨after,rfl,same,(frame.workers worker other).trans there,Nat.lt_of_lt_of_le posted more⟩
    · cases stepped
      exact .inr (.inr ⟨waiter,_,rfl,here,Function.update_self ..⟩)
  · exact .inr (.inl ahead)

end OwnStep

section Leading

variable {memory : Memory α}

theorem pool_step {state : Option (THMGR_INFO α addNum thNum)} {step : Step α addNum thNum}
    (reached : (threadPool α addNum thNum).Run anyEvent (some (moUtils_TP_init memory addNum thNum)) state)
    (enabled : (threadPool α addNum thNum).Enabled state step) :
    ∃ mgr after cells, state = some mgr ∧ (threadPool α addNum thNum).next state step = some after ∧
      Inv mgr cells ∧ mgr.Permits step ∧ mgr.step step = some after ∧ Frame mgr step after := by
  obtain ⟨mgr,cells,rfl,inv⟩ := pool_inv reached
  obtain ⟨_,same,permitted⟩ := enabled
  cases same
  obtain ⟨after,_,stepped,_,frame⟩ := step_inv inv permitted
  exact ⟨mgr,after,cells,rfl,stepped,inv,permitted,stepped,frame⟩

variable {run : PoolRun memory addNum thNum} (fair : Fair run) (taken : Nat)
include fair

theorem getTask_leads (worker : Fin thNum) : run.Leads (WorkAt taken worker .getTask) (Ahead taken) := by
  apply leads_of_fair (fair.workers worker)
  · intro state step reached ⟨_,same,here,there⟩ enabled other
    obtain ⟨mgr,after,cells,rfl,next,_,_,_,frame⟩ := pool_step reached enabled
    cases same
    rw [next]
    rcases frame_ahead frame here with same | ahead
    · exact .inl ⟨after,rfl,same,(frame.workers worker other).trans there⟩
    · exact .inr ahead
  · intro state step reached ⟨_,same,here,there⟩ enabled own
    obtain ⟨mgr,after,cells,rfl,next,inv,permitted,stepped,_⟩ := pool_step reached enabled
    cases same
    have result := own_step inv permitted own stepped
    rw [there] at result
    rw [next]
    exact ⟨after,rfl,by omega⟩
  · intro state _ ⟨mgr,same,_,there⟩
    exact ⟨.getTask worker,rfl,mgr,same,there⟩

/-- With a post there, a work thread that is not yet past the semaphore takes its next step. -/
theorem posted_leads (worker : Fin thNum) (place : WorkTh) (Q : Option (THMGR_INFO α addNum thNum) → Prop)
    (able : ∀ mgr : THMGR_INFO α addNum thNum, mgr.workers worker = place → 0 < mgr.sem →
      ∃ step, step.worker = some worker ∧ mgr.Permits step)
    (act : ∀ {mgr after : THMGR_INFO α addNum thNum} {cells step}, Inv mgr cells → mgr.Permits step →
      step.worker = some worker → mgr.step step = some after → mgr.got.length = taken →
      mgr.workers worker = place → 0 < mgr.sem → Q (some after)) :
    run.Leads (Posted taken worker place) (fun state => Closer taken state ∨ Q state) := by
  apply leads_of_fair (fair.workers worker)
  · intro state step reached ⟨_,same,here,there,posted⟩ enabled other
    obtain ⟨mgr,after,cells,rfl,next,_,_,stepped,frame⟩ := pool_step reached enabled
    cases same
    rw [next]
    rcases other_posted frame stepped other here there posted with stays | closer
    · exact .inl stays
    · exact .inr (.inl closer)
  · intro state step reached ⟨_,same,here,there,posted⟩ enabled own
    obtain ⟨mgr,after,cells,rfl,next,inv,permitted,stepped,_⟩ := pool_step reached enabled
    cases same
    rw [next]
    exact .inr (act inv permitted own stepped here there posted)
  · intro state _ ⟨mgr,same,_,there,posted⟩
    obtain ⟨step,own,permitted⟩ := able mgr there posted
    exact ⟨step,own,mgr,same,permitted⟩

theorem closer_leads : run.Leads (Closer taken) (Ahead taken) :=
  leads_cases (leads_of_imp fun _ _ ahead => ahead) (leads_exists (getTask_leads fair taken))

theorem semWait_leads (worker : Fin thNum) : run.Leads (Posted taken worker .semWait) (Ahead taken) := by
  have moves := posted_leads fair taken worker .semWait (Closer taken)
    (fun mgr there posted => ⟨.semWait worker,rfl,there,posted⟩)
    (fun inv permitted own stepped here there _ => by
      have result := own_step inv permitted own stepped
      rw [there] at result
      exact .inr ⟨worker,_,rfl,by rw [result.1,here],result.2⟩)
  exact leads_trans moves (leads_cases (closer_leads fair taken) (closer_leads fair taken))

theorem freeTask_leads (worker : Fin thNum) (taskNode : Nat) :
    run.Leads (Posted taken worker (.freeTask taskNode)) (Ahead taken) := by
  have moves := posted_leads fair taken worker (.freeTask taskNode) (Posted taken worker .semWait)
    (fun mgr there _ => ⟨.freeTask worker,rfl,taskNode,there⟩)
    (fun inv permitted own stepped here there posted => by
      have result := own_step inv permitted own stepped
      rw [there] at result
      exact ⟨_,rfl,by rw [result.1,here],result.2.1,by rwa [result.2.2]⟩)
  exact leads_trans moves (leads_cases (closer_leads fair taken) (semWait_leads fair taken worker))

theorem doTask_leads (worker : Fin thNum) (taskNode : Nat) :
    run.Leads (Posted taken worker (.doTask taskNode)) (Ahead taken) := by
  have moves := posted_leads fair taken worker (.doTask taskNode) (Posted taken worker (.freeTask taskNode))
    (fun mgr there _ => ⟨.doTask worker,rfl,taskNode,there⟩)
    (fun inv permitted own stepped here there posted => by
      have result := own_step inv permitted own stepped
      rw [there] at result
      exact ⟨_,rfl,by rw [result.1,here],result.2.1,by rwa [result.2.2]⟩)
  exact leads_trans moves (leads_cases (closer_leads fair taken) (freeTask_leads fair taken worker taskNode))

/-- A post brings some task to a work thread, wherever this thread is. -/
theorem post_leads (worker : Fin thNum) :
    run.Leads (fun state => ∃ place, Posted taken worker place state) (Ahead taken) := by
  apply leads_exists
  intro place
  cases place with
  | semWait => exact semWait_leads fair taken worker
  | getTask =>
    exact leads_trans (leads_of_imp fun _ _ ⟨mgr,same,here,there,_⟩ => ⟨mgr,same,here,there⟩)
      (getTask_leads fair taken worker)
  | doTask taskNode => exact doTask_leads fair taken worker taskNode
  | freeTask taskNode => exact freeTask_leads fair taken worker taskNode

theorem semPost_leads (adder : Fin addNum) (worker : Fin thNum) :
    run.Leads (AddAt taken adder) (Ahead taken) := by
  have moves : run.Leads (AddAt taken adder) fun state =>
      Ahead taken state ∨ ∃ place, Posted taken worker place state := by
    apply leads_of_fair (fair.adders adder)
    · intro state step reached ⟨_,same,here,there⟩ enabled other
      obtain ⟨mgr,after,cells,rfl,next,_,_,_,frame⟩ := pool_step reached enabled
      cases same
      rw [next]
      rcases frame_ahead frame here with same | ahead
      · exact .inl ⟨after,rfl,same,frame.adders adder other there⟩
      · exact .inr (.inl ahead)
    · intro state step reached ⟨_,same,here,there⟩ enabled own
      obtain ⟨mgr,after,cells,rfl,next,_,_,stepped,_⟩ := pool_step reached enabled
      cases same
      subst own
      cases stepped
      rw [next]
      exact .inr ⟨_,_,rfl,here,rfl,Nat.succ_pos _⟩
    · intro state _ ⟨mgr,same,_,there⟩
      exact ⟨.semPost adder,rfl,mgr,same,there⟩
  exact leads_trans moves (leads_cases (leads_of_imp fun _ _ ahead => ahead) (post_leads fair taken worker))

theorem waiting_leads (worker : Fin thNum) :
    run.Leads (fun state => ∃ mgr, state = some mgr ∧ mgr.got.length = taken ∧ taken < mgr.added.length)
      (Ahead taken) := by
  have cases_of : run.Leads
      (fun state => ∃ mgr, state = some mgr ∧ mgr.got.length = taken ∧ taken < mgr.added.length)
      (fun state => (∃ other, WorkAt taken other .getTask state) ∨
        (∃ adder, AddAt taken adder state) ∨ ∃ place, Posted taken worker place state) := by
    apply leads_of_imp
    intro state reached ⟨mgr,same,here,more⟩
    subst same
    obtain ⟨_,cells,same,inv⟩ := pool_inv reached
    cases same
    have logged := congrArg List.length inv.logged
    rw [List.length_append,List.length_map,List.length_map] at logged
    have counted := inv.counted
    by_cases passed : 0 < number mgr.workers .getTask
    · obtain ⟨other,there⟩ := number_pos.mp passed
      exact .inl ⟨other,mgr,rfl,here,there⟩
    · by_cases posting : 0 < number mgr.adders .semPost
      · obtain ⟨adder,there⟩ := number_pos.mp posting
        exact .inr (.inl ⟨adder,mgr,rfl,here,there⟩)
      · exact .inr (.inr ⟨_,mgr,rfl,here,rfl,by omega⟩)
  exact leads_trans cases_of (leads_cases (leads_exists (getTask_leads fair taken))
    (leads_cases (leads_exists fun adder => semPost_leads fair taken adder worker)
      (post_leads fair taken worker)))

end Leading

section Whole

variable {memory : Memory α} {run : PoolRun memory addNum thNum}

theorem run_grows (n : Nat) {mgr : THMGR_INFO α addNum thNum} (here : run.state n = some mgr) (m : Nat)
    (later : n ≤ m) :
    ∃ after, run.state m = some after ∧ mgr.added <+: after.added ∧ mgr.got <+: after.got := by
  induction m, later using Nat.le_induction with
  | base => exact ⟨mgr,here,List.prefix_rfl,List.prefix_rfl⟩
  | succ m later ih =>
    obtain ⟨before,there,added,got⟩ := ih
    cases taken : run.event m with
    | none =>
      rw [run.idle m taken]
      exact ⟨before,there,added,got⟩
    | some step =>
      obtain ⟨mgr',after,cells,same,next,_,_,_,frame⟩ :=
        pool_step (endless_reachable m) (run.enabled m step taken)
      rw [there] at same
      cases same
      rw [run.moved m step taken]
      refine ⟨after,next,added.trans frame.added,got.trans ?_⟩
      rcases frame.got with unchanged | ⟨entry,more⟩
      · rw [unchanged]
      · rw [more]
        exact List.prefix_append ..

theorem taken_eventually (fair : Fair run) (worker : Fin thNum) {n : Nat} {mgr : THMGR_INFO α addNum thNum}
    (here : run.state n = some mgr) {k : Nat} (added : k < mgr.added.length) :
    ∃ m ≥ n, Ahead k (run.state m) := by
  obtain ⟨left,bound⟩ : ∃ left, k+1-mgr.got.length ≤ left := ⟨_,Nat.le_refl _⟩
  induction left generalizing n mgr with
  | zero => exact ⟨n,Nat.le_refl n,mgr,here,by omega⟩
  | succ left ih =>
    by_cases done : k < mgr.got.length
    · exact ⟨n,Nat.le_refl n,mgr,here,done⟩
    · obtain ⟨m,later,after,there,more⟩ :=
        waiting_leads fair mgr.got.length worker n ⟨mgr,here,rfl,by omega⟩
      obtain ⟨_,again,grown,_⟩ := run_grows n here m later
      cases there.symm.trans again
      obtain ⟨final,last,ahead⟩ := ih there (Nat.lt_of_lt_of_le added grown.length_le) (by omega)
      exact ⟨final,later.trans last,ahead⟩

end Whole

theorem prefix_get {β : Type} {front whole : List β} (before : front <+: whole) {k : Nat} {item : β}
    (found : front[k]? = some item) : whole[k]? = some item := by
  obtain ⟨bound,value⟩ := List.getElem?_eq_some_iff.mp found
  rw [← value]
  exact List.prefix_iff_getElem?.mp before k bound

/-- The pool with its queue: a work thread past the semaphore gets a task, the tasks taken so
far are the first ones added, in this order, and a task once added is taken, by one thread. -/
theorem threadPool_tasks (memory : Memory α) (addNum thNum : Nat) :
    (∀ state, (threadPool α addNum thNum).Run anyEvent (some (moUtils_TP_init memory addNum thNum)) state →
      ∃ mgr, state = some mgr ∧ mgr.got.map Prod.snd <+: mgr.added ∧
        ∀ worker, mgr.workers worker = .getTask → ∃ taskNode node queue,
          taskQueueGetTask mgr.pool.memory mgr.pool.queue = some (some taskNode,queue) ∧
            mgr.pool.memory taskNode = some node ∧ mgr.added[mgr.got.length]? = some node.taskInfo) ∧
    (∀ run : PoolRun memory addNum thNum, 0 < thNum → Fair run →
      ∀ (n : Nat) (mgr : THMGR_INFO α addNum thNum) (k : Nat) (task : α),
        run.state n = some mgr → mgr.added[k]? = some task →
          ∃ worker, ∃ m ≥ n, ∀ later ≥ m, ∃ after, run.state later = some after ∧
            after.got[k]? = some (worker,task)) := by
  constructor
  · intro state reached
    obtain ⟨mgr,cells,rfl,inv⟩ := pool_inv reached
    refine ⟨mgr,rfl,?_,?_⟩
    · rw [inv.logged]
      exact List.prefix_append ..
    · intro worker passed
      obtain ⟨cell,rest,rfl⟩ := getTask_some inv passed
      obtain ⟨queue,got,_⟩ := getTask_queued inv.queued
      obtain ⟨_,node,found,info,_⟩ := queued_first inv.queued
      refine ⟨cell.1,node,queue,got,found,?_⟩
      rw [inv.logged,List.getElem?_append_right (by rw [List.length_map]),List.length_map,Nat.sub_self,info]
      rfl
  · intro run workers fair n mgr k task here added
    have bound := (List.getElem?_eq_some_iff.mp added).1
    obtain ⟨m,later,mid,there,ahead⟩ := taken_eventually fair ⟨0,workers⟩ here bound
    obtain ⟨_,again,grown,_⟩ := run_grows n here m later
    cases there.symm.trans again
    obtain ⟨_,cells,same,inv⟩ := pool_inv (endless_reachable m)
    cases there.symm.trans same
    have log := prefix_get grown added
    obtain ⟨entry,taken⟩ : ∃ entry, mid.got[k]? = some entry := ⟨_,List.getElem?_eq_getElem ahead⟩
    have value : entry.2 = task := by
      rw [inv.logged,List.getElem?_append_left (by rwa [List.length_map]),List.getElem?_map,taken] at log
      exact Option.some.inj log
    refine ⟨entry.1,m,later,fun last after => ?_⟩
    obtain ⟨final,reached,_,got⟩ := run_grows m there last after
    exact ⟨final,reached,by rw [prefix_get got taken,← value]⟩

/-- One thread adds a task and one takes it, does it and frees it. -/
def oneTask : List (Step Nat 1 1) :=
  [.addTask 0 7 (some 0),.semPost 0,.semWait 0,.getTask 0,.doTask 0,.freeTask 0]

theorem oneTask_follows :
    (threadPool Nat 1 1).Follows anyEvent (some (moUtils_TP_init (fun _ => none) 1 1)) oneTask :=
  ⟨⟨⟨_,rfl,rfl,rfl⟩,trivial⟩,⟨⟨_,rfl,rfl⟩,trivial⟩,⟨⟨_,rfl,rfl,Nat.one_pos⟩,trivial⟩,⟨⟨_,rfl,rfl⟩,trivial⟩,
    ⟨⟨_,rfl,0,rfl⟩,trivial⟩,⟨⟨_,rfl,0,rfl⟩,trivial⟩,trivial⟩

/-- At its end nobody can go on. -/
theorem oneTask_fair : Fair (Endless.ofEvents oneTask_follows) := by
  obtain ⟨mgr,final,idle,waiting,noPost⟩ : ∃ mgr, oneTask.foldl (threadPool Nat 1 1).next
        (some (moUtils_TP_init (fun _ => none) 1 1)) = some mgr ∧
      (∀ adder, mgr.adders adder = .idle) ∧ (∀ worker, mgr.workers worker = .semWait) ∧ mgr.sem = 0 :=
    ⟨_,rfl,by decide,by decide,rfl⟩
  constructor
  · intro adder
    apply weaklyFair_ofEvents
    rintro _ rfl ⟨_,same,posting⟩
    cases final.symm.trans same
    cases (idle adder).symm.trans posting
  · intro worker
    apply weaklyFair_ofEvents
    rintro step own ⟨_,same,permitted⟩
    cases final.symm.trans same
    match step,own,permitted with
    | .semWait _,rfl,⟨_,posted⟩ =>
      rw [noPost] at posted
      cases posted
    | .getTask _,rfl,passed => cases (waiting worker).symm.trans passed
    | .doTask _,rfl,⟨_,running⟩ => cases (waiting worker).symm.trans running
    | .freeTask _,rfl,⟨_,done⟩ => cases (waiting worker).symm.trans done

theorem threadPool_one_task : ∃ worker : Fin 1, ∃ m ≥ 6, ∀ later ≥ m, ∃ after,
    (Endless.ofEvents oneTask_follows).state later = some after ∧ after.got[0]? = some (worker,7) :=
  (threadPool_tasks (fun _ => none) 1 1).2 _ Nat.one_pos oneTask_fair 6 _ 0 7 rfl rfl

end MoCodes.Utils.ThreadPool
