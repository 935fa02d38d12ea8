import MoCodes.Lib.Transition

/-! moUtils_TP_init of thMgr.c from its creation loop on, beside the work threads it has
created, where the pthread_create of one pass fails. The queue is empty while the pool is
made, and the list holds at `k` the id of the thread that pass `k` created. -/
namespace MoCodes.Utils.ThreadPool.InitError
open MoCodes.Lib.Transition

inductive THMGR_STATE where
  | run
  | stop
  deriving DecidableEq,Repr

inductive InitPlace where
  | create (i : Nat)
  | setStop (i : Nat)
  | semPost (i j : Nat)
  | join (j : Nat)
  | freeList
  | taskQueueUnInit
  | freeMgr
  | failed
  | created
  deriving DecidableEq,Repr

inductive WorkPlace where
  | absent
  | semWait
  | testState
  | getTask
  | exited
  | joined
  deriving DecidableEq,Repr

/-- THMGR_INFO, what of it is still there, and the threads. -/
structure InitState where
  place : InitPlace
  thNum : Nat
  state : THMGR_STATE
  sem : Nat
  list : Bool
  queue : Bool
  mgr : Bool
  workers : Nat → WorkPlace

inductive Event where
  | init
  | work (worker : Nat)
  deriving DecidableEq,Repr

def initial : InitState := ⟨.create 0,0,.run,0,true,true,true,fun _ => .absent⟩

def InitState.worker (s : InitState) (worker : Nat) (place : WorkPlace) : InitState :=
  { s with workers := Function.update s.workers worker place }

/-- `fails` is the pass whose pthread_create fails. -/
def InitState.init (thNum fails : Nat) (s : InitState) : InitState :=
  match s.place with
  | .create i =>
    if i < thNum then
      if i = fails then { s with place := .setStop i }
      else { s.worker i .semWait with place := .create (i+1) }
    else { s with thNum := thNum, place := .created }
  | .setStop i => { s with state := .stop, place := .semPost i 0 }
  | .semPost i j =>
    if j < i then { s with sem := s.sem+1, place := .semPost i (j+1) } else { s with place := .join 0 }
  | .join j =>
    if j < s.thNum then { s.worker j .joined with place := .join (j+1) } else { s with place := .freeList }
  | .freeList => { s with list := false, place := .taskQueueUnInit }
  | .taskQueueUnInit => { s with queue := false, place := .freeMgr }
  | .freeMgr => { s with mgr := false, place := .failed }
  | .failed => s
  | .created => s

/-- workTh: taskQueueGetTask finds no task in the empty queue. -/
def InitState.work (s : InitState) (worker : Nat) : InitState :=
  match s.workers worker with
  | .semWait => { s.worker worker .testState with sem := s.sem-1 }
  | .testState => s.worker worker (if s.state = .stop then .exited else .getTask)
  | .getTask => s.worker worker .semWait
  | _ => s

/-- pthread_join waits until the thread has ended, and sem_wait for a post. -/
def InitState.Permits (s : InitState) : Event → Prop
  | .init => match s.place with
    | .join j => j < s.thNum → s.workers j = .exited
    | .failed => False
    | .created => False
    | _ => True
  | .work worker => match s.workers worker with
    | .semWait => 0 < s.sem
    | .testState => True
    | .getTask => True
    | _ => False

def initSystem (thNum fails : Nat) : System InitState Event where
  Enabled := InitState.Permits
  next
    | s,.init => s.init thNum fails
    | s,.work worker => s.work worker

def Reachable (thNum fails : Nat) : InitState → Prop := (initSystem thNum fails).Run anyEvent initial

def InitState.Released (s : InitState) : Prop := s.queue = false ∨ s.mgr = false

/-- The threads created before pass `fails` are told to stop and joined before anything goes. -/
def StopsAndJoins (thNum fails : Nat) : Prop :=
  ∀ s, Reachable thNum fails s → s.Released → s.state = .stop ∧ ∀ worker < fails, s.workers worker = .joined

/-- A step of a work thread reads the manager or its queue, so both must be there. -/
def NeverTouchesFreed (thNum fails : Nat) : Prop :=
  ∀ s worker, Reachable thNum fails s → s.Permits (.work worker) → ¬ s.Released

section Runs

variable {thNum fails : Nat}

theorem init_step {s : InitState} (reached : Reachable thNum fails s) (permitted : s.Permits .init) :
    Reachable thNum fails (s.init thNum fails) :=
  run_event Event.init reached permitted rfl

/-- The number of threads is only set when all are created, so the error path joins none. -/
structure NoneJoined (s : InitState) : Prop where
  unset : s.place ≠ .created → s.thNum = 0
  joined : ∀ worker, s.workers worker ≠ .joined

theorem update_ne {workers : Nat → WorkPlace} {avoid : WorkPlace} (none : ∀ other, workers other ≠ avoid)
    {place : WorkPlace} (other : place ≠ avoid) (worker k : Nat) :
    Function.update workers worker place k ≠ avoid := by
  rcases eq_or_ne k worker with rfl | apart
  · rwa [Function.update_self]
  · rw [Function.update_of_ne apart]
    exact none k

theorem noneJoined_init {s : InitState} (none : NoneJoined s) (permitted : s.Permits .init) :
    NoneJoined (s.init thNum fails) := by
  obtain ⟨unset,joined⟩ := none
  cases place : s.place with
  | create i =>
    have zero := unset (by simp [place])
    simp only [InitState.init,place]
    split
    · split
      · exact ⟨fun _ => zero,joined⟩
      · exact ⟨fun _ => zero,update_ne joined (by decide) i⟩
    · exact ⟨fun other => absurd rfl other,joined⟩
  | semPost i j =>
    have zero := unset (by simp [place])
    simp only [InitState.init,place]
    split <;> exact ⟨fun _ => zero,joined⟩
  | join j =>
    have zero := unset (by simp [place])
    have none : ¬ j < s.thNum := by omega
    simp only [InitState.init,place,if_neg none]
    exact ⟨fun _ => zero,joined⟩
  | created => simp [InitState.Permits,place] at permitted
  | failed => simp [InitState.Permits,place] at permitted
  | _ =>
    have zero := unset (by simp [place])
    simp only [InitState.init,place]
    exact ⟨fun _ => zero,joined⟩

theorem noneJoined_work {s : InitState} (none : NoneJoined s) (worker : Nat) : NoneJoined (s.work worker) := by
  obtain ⟨unset,joined⟩ := none
  rw [InitState.work]
  split
  · exact ⟨unset,update_ne joined (by decide) worker⟩
  · refine ⟨unset,update_ne joined ?_ worker⟩
    split <;> decide
  · exact ⟨unset,update_ne joined (by decide) worker⟩
  · exact ⟨unset,joined⟩

theorem noneJoined_reachable {s : InitState} (reached : Reachable thNum fails s) : NoneJoined s := by
  have run : (initSystem thNum fails).Run anyEvent initial s := reached
  refine run_invariant ⟨fun _ => rfl,fun _ joined => by cases joined⟩ ?_ run
  intro s event none permitted _
  cases event with
  | init => exact noneJoined_init none permitted
  | work worker => exact noneJoined_work none worker

structure Empty (s : InitState) : Prop where
  workers : ∀ worker, s.workers worker = .absent
  first : ∀ i, s.place = .create i → i = 0
  inside : s.place ≠ .created
  kept : (∃ i, s.place = .create i ∨ s.place = .setStop i) → s.queue = true ∧ s.mgr = true
  stopped : (∀ i, s.place ≠ .create i ∧ s.place ≠ .setStop i) → s.state = .stop

theorem empty_init (some : 0 < thNum) {s : InitState} (empty : Empty s) (permitted : s.Permits .init) :
    Empty (s.init thNum 0) := by
  obtain ⟨workers,first,inside,kept,stopped⟩ := empty
  cases place : s.place with
  | create i =>
    obtain rfl := first i place
    simp only [InitState.init,place,if_pos some,if_true]
    exact ⟨workers,nofun,nofun,fun _ => kept ⟨0,.inl place⟩,fun other => absurd rfl (other 0).2⟩
  | setStop i =>
    simp only [InitState.init,place]
    exact ⟨workers,nofun,nofun,by simp,fun _ => rfl⟩
  | created => exact absurd place inside
  | failed => simp [InitState.Permits,place] at permitted
  | join j =>
    have stop := stopped (by simp [place])
    have none : ¬ j < s.thNum := by
      intro more
      simp only [InitState.Permits,place] at permitted
      have ended := permitted more
      rw [workers] at ended
      cases ended
    simp only [InitState.init,place,if_neg none]
    exact ⟨workers,nofun,nofun,by simp,fun _ => stop⟩
  | semPost i j =>
    have stop := stopped (by simp [place])
    simp only [InitState.init,place]
    split <;> exact ⟨workers,nofun,nofun,by simp,fun _ => stop⟩
  | _ =>
    have stop := stopped (by simp [place])
    simp only [InitState.init,place]
    exact ⟨workers,nofun,nofun,by simp,fun _ => stop⟩

theorem empty_reachable (some : 0 < thNum) {s : InitState} (reached : Reachable thNum 0 s) : Empty s := by
  have run : (initSystem thNum 0).Run anyEvent initial s := reached
  refine run_invariant ⟨fun _ => rfl,?_,?_,fun _ => ⟨rfl,rfl⟩,?_⟩ ?_ run
  · intro i place
    cases place
    rfl
  · intro made
    cases made
  · intro other
    exact absurd rfl (other 0).1
  · intro s event empty permitted _
    cases event with
    | init => exact empty_init some empty permitted
    | work worker =>
      change s.Permits (.work worker) at permitted
      simp [InitState.Permits,empty.workers] at permitted

end Runs

section Lost

def creating (k : Nat) : InitState :=
  { initial with place := .create k, workers := fun worker => if worker < k then .semWait else .absent }

theorem creating_reachable {thNum fails : Nat} (inside : fails < thNum) {k : Nat} (before : k ≤ fails) :
    Reachable thNum fails (creating k) := by
  induction k with
  | zero => exact .start
  | succ k ih =>
    have created : (creating k).init thNum fails = creating (k+1) := by
      have room : k < thNum := by omega
      have works : k ≠ fails := by omega
      simp only [InitState.init,creating,initial,if_pos room,if_neg works,InitState.worker]
      congr 1
      funext worker
      rcases eq_or_ne worker k with rfl | apart
      · rw [Function.update_self,if_pos (Nat.lt_succ_self _)]
      · have same : worker < k ↔ worker < k+1 := by omega
        rw [Function.update_of_ne apart,if_congr same rfl rfl]
    rw [← created]
    exact init_step (ih (by omega)) trivial

def posting (i j : Nat) : InitState :=
  { creating i with place := .semPost i j, state := .stop, sem := j }

theorem posting_reachable {thNum fails : Nat} (inside : fails < thNum) {j : Nat} (before : j ≤ fails) :
    Reachable thNum fails (posting fails j) := by
  induction j with
  | zero =>
    have failed : (creating fails).init thNum fails = { creating fails with place := .setStop fails } := by
      simp [InitState.init,creating,inside]
    have stopping := init_step (creating_reachable inside (Nat.le_refl fails)) trivial
    rw [failed] at stopping
    exact init_step stopping trivial
  | succ j ih =>
    have posted : (posting fails j).init thNum fails = posting fails (j+1) := by
      have more : j < fails := by omega
      simp [InitState.init,posting,more]
    rw [← posted]
    exact init_step (ih (by omega)) trivial

/-- All is freed, with the posts not waited for and no thread joined. -/
def lost (fails : Nat) : InitState :=
  { posting fails fails with place := .failed, list := false, queue := false, mgr := false }

theorem lost_reachable {thNum fails : Nat} (inside : fails < thNum) : Reachable thNum fails (lost fails) := by
  have joining := init_step (posting_reachable inside (Nat.le_refl fails)) trivial
  have posted : (posting fails fails).init thNum fails = { posting fails fails with place := .join 0 } := by
    simp [InitState.init,posting]
  rw [posted] at joining
  have listed := init_step joining fun more => absurd more (Nat.not_lt_zero 0)
  exact init_step (init_step (init_step listed trivial) trivial) trivial

end Lost

/-- The error path keeps to its order exactly where no thread was created before. -/
theorem init_failure_iff (thNum fails : Nat) (inside : fails < thNum) :
    (StopsAndJoins thNum fails ↔ fails = 0) ∧ (NeverTouchesFreed thNum fails ↔ fails = 0) := by
  refine ⟨⟨fun joins => ?_,?_⟩,⟨fun never => ?_,?_⟩⟩
  · by_contra more
    have reached := lost_reachable inside
    have joined := (joins _ reached (.inl rfl)).2 0 (Nat.pos_of_ne_zero more)
    exact (noneJoined_reachable reached).joined 0 joined
  · rintro rfl s reached released
    obtain ⟨workers,first,_,kept,stopped⟩ := empty_reachable inside reached
    refine ⟨stopped fun i => ⟨fun place => ?_,fun place => ?_⟩,fun worker none => absurd none (Nat.not_lt_zero worker)⟩
    · have there := kept ⟨i,.inl place⟩
      simp [InitState.Released,there] at released
    · have there := kept ⟨i,.inr place⟩
      simp [InitState.Released,there] at released
  · by_contra more
    have waits : (lost fails).workers 0 = .semWait := if_pos (Nat.pos_of_ne_zero more)
    have permitted : (lost fails).Permits (.work 0) := by
      simp only [InitState.Permits,waits]
      exact Nat.pos_of_ne_zero more
    exact never _ 0 (lost_reachable inside) permitted (.inl rfl)
  · rintro rfl s worker reached permitted
    simp [InitState.Permits,(empty_reachable inside reached).workers] at permitted

/-- Of two threads the second one is not created, and the first wakes up in freed memory. -/
theorem init_touches_freed : ¬ (StopsAndJoins 2 1 ∧ NeverTouchesFreed 2 1) := by
  rintro ⟨_,never⟩
  exact never (lost 1) 0 (lost_reachable (by decide)) Nat.one_pos (.inl rfl)

theorem init_failure_first :
    (StopsAndJoins 2 0 ↔ 0 = 0) ∧ (NeverTouchesFreed 2 0 ↔ 0 = 0) :=
  init_failure_iff 2 0 (by decide)

end MoCodes.Utils.ThreadPool.InitError
