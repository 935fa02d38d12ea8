import MoCodes.Cps.Server.System

/-! `criCheckThr` waits in `killThread` for a control thread while it holds `gCriMutex`. The
thread leaves its loop only where pselect is interrupted, so whatever it still reads or
does before that may need the mutex. -/
namespace MoCodes.Cps.Server
open MoCodes.Lib.Transition

/-- The sweep joins a thread that is blocked on the mutex the sweep holds. -/
def Deadlocked (s : ServerState) : Prop :=
  ∃ thId task tasks, s.sweep.joins = some thId ∧ s.pc thId = .locking task tasks

/-- The thread has ended, or it ends before it takes `gCriMutex` again: there is nothing to
read, and nothing under the mutex left to do in the pass it is in. -/
def CtrlThread.quiet (t : CtrlThread) : Bool :=
  match t.pc with
  | .absent | .exited => true
  | .selecting => !t.readable
  | .working tasks => !t.readable && tasks.all (!·.locksCri)
  | .locking _ _ => false

/-- Only quiet threads are killed, and nothing arrives for a thread that is joined. -/
def quietStep (s : ServerState) : ServerEvent → Prop
  | .killThread _ thId _ => thId ≠ 0 → (s.threads thId).quiet = true
  | .arrive thId => s.sweep.joins ≠ some thId
  | _ => True

instance (s : ServerState) : (event : ServerEvent) → Decidable (quietStep s event)
  | .killThread _ _ _ => inferInstanceAs (Decidable (_ → _))
  | .arrive _ => inferInstanceAs (Decidable (_ ≠ _))
  | .accept _ | .criIsCliExist _ | .criSetDataSocketInfo _ | .criInsertNewCliInfo _ _
  | .cliMgrInsertNewCli _ _ | .criDeleteCliInfo _ | .startCtrlThread _ _ _ | .cliMgrDeleteCli _
  | .criDeleteStopped _ | .criRefreshCtrlThrInfo _ _ | .pselect _ _ | .readn _ _ | .lock _ _ _
  | .criTask _ _ _ | .cliMgrTask _ _ _ | .loop _ | .interrupt _ | .sweepLock | .sweepNode _ _
  | .joined _ _ _ | .sweepUnlink _ _ | .sweepUnlock _ => isTrue trivial

section Quiet

def JoinsQuiet (s : ServerState) : Prop := ∀ thId, s.sweep.joins = some thId → (s.threads thId).quiet = true

variable {s : ServerState} {event : ServerEvent} {t : CtrlThread}

theorem quiet_not_locking (quiet : t.quiet = true) {task : Task} {tasks : List Task} :
    t.pc ≠ .locking task tasks := by
  intro locking
  simp [CtrlThread.quiet,locking] at quiet

theorem quiet_selecting (selecting : t.pc = .selecting) : t.quiet = true ↔ t.readable = false := by
  simp [CtrlThread.quiet,selecting]

theorem quiet_working {tasks : List Task} (working : t.pc = .working tasks) :
    t.quiet = true ↔ t.readable = false ∧ ∀ task ∈ tasks, task.locksCri = false := by
  simp [CtrlThread.quiet,working]

/-- A thread that is joined stays quiet whatever another thread does to itself. -/
theorem joinsQuiet_setThread (thId : Nat) (change : CtrlThread → CtrlThread) (joins : JoinsQuiet s)
    (own : (s.threads thId).quiet = true → (change (s.threads thId)).quiet = true) :
    JoinsQuiet (s.setThread thId change) := by
  intro other joining
  have quiet := joins other joining
  by_cases same : other = thId
  · rw [same] at quiet ⊢
    rw [setThread_self]
    exact own quiet
  · rwa [setThread_other s thId change same]

theorem step_joinsQuiet (joins : JoinsQuiet s) (enabled : serverEnabled s event)
    (quiet : quietStep s event) : JoinsQuiet (serverNext s event) := by
  cases event with
  | accept | criIsCliExist | criSetDataSocketInfo | criInsertNewCliInfo | cliMgrInsertNewCli
  | criDeleteCliInfo | cliMgrDeleteCli | criDeleteStopped | criRefreshCtrlThrInfo => exact joins
  | startCtrlThread c ret thId =>
    simp only [serverNext]
    split
    · exact joins
    · split
      · exact joinsQuiet_setThread thId (fun _ => ⟨c.sockId,.selecting,false,false⟩) joins fun _ => rfl
      · exact joins
  | arrive thId =>
    intro other joining
    have apart : other ≠ thId := by
      rintro rfl
      exact quiet joining
    have here := joins other joining
    simpa [serverNext,apart] using here
  | pselect thId pass =>
    refine joinsQuiet_setThread _ _ joins fun own => ?_
    have still := (quiet_selecting enabled.1).mp own
    rw [enabled.2.1] at still
    cases still
  | readn thId tasks =>
    refine joinsQuiet_setThread _ _ joins fun own => ?_
    have left := ((quiet_working enabled).mp own).2
    exact (quiet_working (t := {s.threads thId with readable := false}) enabled).mpr ⟨rfl,left⟩
  | lock thId task tasks =>
    refine joinsQuiet_setThread _ _ joins fun own => ?_
    have unlocked := ((quiet_working enabled.1).mp own).2 task List.mem_cons_self
    rw [enabled.2] at unlocked
    cases unlocked
  | criTask thId task tasks =>
    exact joinsQuiet_setThread thId
      ({· with pc := .working (tasksAfter (s.threads thId).sockId s.cri task tasks)}) joins
      fun own => absurd enabled.1 (quiet_not_locking own)
  | cliMgrTask thId task tasks =>
    refine joinsQuiet_setThread thId ({· with pc := .working tasks}) joins fun own => ?_
    obtain ⟨still,unlocked⟩ := (quiet_working enabled.1).mp own
    exact (quiet_working rfl).mpr ⟨still,fun other member => unlocked other (List.mem_cons_of_mem _ member)⟩
  | loop thId =>
    refine joinsQuiet_setThread _ _ joins fun own => ?_
    exact (quiet_selecting rfl).mpr ((quiet_working enabled).mp own).1
  | interrupt thId => exact joinsQuiet_setThread _ _ joins fun _ => rfl
  | sweepLock | sweepUnlink | sweepUnlock | joined => exact fun _ joining => nomatch joining
  | sweepNode pos info =>
    intro other joining
    simp only [serverNext] at joining
    split at joining <;> cases joining
  | killThread pos thId thIds =>
    intro other joining
    simp only [serverNext,killThread] at joining ⊢
    split at joining
    · cases joining
    · rename_i started
      cases joining
      rw [if_neg started,setThread_self]
      exact quiet fun none => started (Or.inl none)

/-- As long as every step is quiet, no run comes to a deadlock. -/
theorem quiet_never_deadlocked (run : server.Run quietStep .initial s) : ¬Deadlocked s := by
  have joins : JoinsQuiet s := run_invariant (by rintro _ ⟨⟩) step_joinsQuiet run
  rintro ⟨thId,task,tasks,joining,locking⟩
  exact quiet_not_locking (joins thId joining) locking

end Quiet

section Stuck

variable {s : ServerState} {event : ServerEvent} {thId : Nat}

/-- Nobody but the thread itself moves it on, and it waits for the sweep. -/
theorem deadlocked_setThread {other : Nat} {change : CtrlThread → CtrlThread} (stuck : Deadlocked s)
    (own : ∀ task tasks, s.sweep.joins = some other → s.pc other = .locking task tasks →
      (change (s.threads other)).pc = .locking task tasks) :
    Deadlocked (s.setThread other change) := by
  obtain ⟨thId,task,tasks,joining,locking⟩ := stuck
  refine ⟨thId,task,tasks,joining,?_⟩
  by_cases same : thId = other
  · rw [ServerState.pc,same,setThread_self]
    exact own task tasks (same ▸ joining) (same ▸ locking)
  · rwa [ServerState.pc,setThread_other s other change same]

theorem deadlocked_stays (stuck : Deadlocked s) (enabled : serverEnabled s event) :
    Deadlocked (serverNext s event) := by
  have busy : ¬s.free := by
    intro free
    obtain ⟨thId,task,tasks,joining,_⟩ := stuck
    rw [free] at joining
    cases joining
  have moved : ∀ {other pc} (change : CtrlThread → CtrlThread), s.pc other = pc →
      (∀ task tasks, pc ≠ .locking task tasks) → Deadlocked (s.setThread other change) := by
    intro other pc change here apart
    exact deadlocked_setThread stuck fun task tasks _ locking =>
      absurd (here.symm.trans locking) (apart task tasks)
  have joins : ∀ {pc : SweepPc}, s.sweep = pc → pc.joins ≠ none := by
    intro pc same nobody
    obtain ⟨thId,task,tasks,joining,_⟩ := stuck
    rw [same,nobody] at joining
    cases joining
  cases event with
  | accept | cliMgrInsertNewCli | cliMgrDeleteCli => exact stuck
  | criIsCliExist | criSetDataSocketInfo | criInsertNewCliInfo | criDeleteCliInfo | criDeleteStopped
  | criRefreshCtrlThrInfo | criTask => exact absurd enabled.2 busy
  | sweepLock => exact absurd enabled busy
  | startCtrlThread c ret thId =>
    simp only [serverNext]
    split
    · exact stuck
    · split
      · rename_i ok
        exact moved (fun _ => ⟨c.sockId,.selecting,false,false⟩) (enabled.2 ok).2 (by simp)
      · exact stuck
  | arrive other => exact deadlocked_setThread stuck fun _ _ _ locking => locking
  | pselect other pass => exact moved _ enabled.1 (by simp)
  | readn other tasks => exact moved _ enabled (by simp)
  | lock other task tasks => exact moved _ enabled.1 (by simp)
  | cliMgrTask other task tasks =>
    exact moved ({· with pc := .working tasks}) enabled.1 (by simp)
  | loop other => exact moved _ enabled (by simp)
  | interrupt other => exact moved _ enabled.1 (by simp)
  | sweepNode | sweepUnlink | sweepUnlock => exact absurd rfl (joins enabled.1)
  | killThread => exact absurd rfl (joins enabled)
  | joined pos other thIds =>
    obtain ⟨thId,task,tasks,joining,locking⟩ := stuck
    rw [enabled.1] at joining
    cases joining
    cases enabled.2.symm.trans locking

end Stuck

section Noisy

/-! A thread that is not quiet can be led into the deadlock once it is joined: whatever it
still does in its pass, and then one more request, ends at the mutex. -/

variable {s : ServerState} {thId : Nat}

def LeadsToDeadlock (s : ServerState) : Prop := ∃ last, server.Run anyEvent s last ∧ Deadlocked last

def Known (s : ServerState) (thId : Nat) : Prop :=
  (cliMgrGetState s.cliMgr (s.threads thId).sockId).isSome

theorem leads_of_step (event : ServerEvent) (enabled : serverEnabled s event)
    (leads : LeadsToDeadlock (serverNext s event)) : LeadsToDeadlock s := by
  obtain ⟨last,run,stuck⟩ := leads
  exact ⟨last,run_trans (System.Run.step .start enabled trivial) run,stuck⟩

theorem lock_leads (joining : s.sweep.joins = some thId) {task : Task} {tasks : List Task}
    (working : s.pc thId = .working (task :: tasks)) (locks : task.locksCri = true) :
    LeadsToDeadlock s := by
  have enabled : serverEnabled s (.lock thId task tasks) := ⟨working,locks⟩
  refine leads_of_step _ enabled ⟨_,.start,thId,task,tasks,joining,?_⟩
  simp [ServerState.pc,serverNext]

theorem selecting_leads (joining : s.sweep.joins = some thId) (selecting : s.pc thId = .selecting)
    (readable : (s.threads thId).readable = true) (known : Known s thId) : LeadsToDeadlock s := by
  obtain ⟨state,found⟩ := Option.isSome_iff_exists.mp known
  have next : ∀ (pass : Pass) (task : Task) tasks, pass.allowed (some state) = true →
      pass.tasks = task :: tasks → task.locksCri = true → LeadsToDeadlock s := by
    intro pass task tasks allowed first locks
    rw [← found] at allowed
    have working : (serverNext s (.pselect thId pass)).pc thId = .working (task :: tasks) := by
      simp [ServerState.pc,serverNext,first]
    exact leads_of_step (.pselect thId pass) ⟨selecting,readable,allowed⟩ (lock_leads joining working locks)
  by_cases early : state.value < CliState.keyAgreed.value
  · exact next (.keyAgree (some (some ⟨.idle,[],0⟩)) false) _ _ (by simpa [Pass.allowed] using early) rfl rfl
  · exact next (.simple .failed) _ _ (by simpa [Pass.allowed] using early) rfl rfl

theorem known_cliMgrTask {task : Task} (cliMgr : CliMgr) (sockId : Int) :
    (cliMgrGetState (taskCliMgr sockId task cliMgr) sockId).isSome =
      (cliMgrGetState cliMgr sockId).isSome := by
  cases task with
  | cliMgrSetState state => simp [taskCliMgr,getState_setState]
  | cliMgrRefreshHeartbeat clock => simp [taskCliMgr,getState_refreshHeartbeat]
  | _ => rfl

theorem working_leads {tasks : List Task} (joining : s.sweep.joins = some thId)
    (working : s.pc thId = .working tasks)
    (noisy : (∃ task ∈ tasks, task.locksCri = true) ∨
      (s.threads thId).readable = true ∧ Known s thId) : LeadsToDeadlock s := by
  induction tasks generalizing s with
  | nil =>
    rcases noisy with ⟨_,absent,_⟩ | ⟨readable,known⟩
    · cases absent
    · refine leads_of_step (.loop thId) working (selecting_leads joining ?_ ?_ ?_)
      · simp [ServerState.pc,serverNext]
      · simpa [serverNext] using readable
      · simpa [Known,serverNext] using known
  | cons task tasks ih =>
    cases locks : task.locksCri with
    | true => exact lock_leads joining working locks
    | false =>
      refine leads_of_step (.cliMgrTask thId task tasks) ⟨working,locks⟩ (ih joining ?_ ?_)
      · simp [ServerState.pc,serverNext]
      · rcases noisy with ⟨other,member,lock⟩ | ⟨readable,known⟩
        · rcases List.mem_cons.mp member with rfl | later
          · cases locks.symm.trans lock
          · exact Or.inl ⟨other,later,lock⟩
        · refine Or.inr ⟨by simpa [serverNext] using readable,?_⟩
          simpa [Known,serverNext,known_cliMgrTask] using known

theorem noisy_leads (joining : s.sweep.joins = some thId) (known : Known s thId)
    (noisy : (s.threads thId).quiet = false) : LeadsToDeadlock s := by
  cases here : (s.threads thId).pc with
  | absent | exited => simp [CtrlThread.quiet,here] at noisy
  | selecting =>
    refine selecting_leads joining here ?_ known
    simpa [CtrlThread.quiet,here] using noisy
  | working tasks =>
    refine working_leads joining here ?_
    cases readable : (s.threads thId).readable with
    | true => exact Or.inr ⟨rfl,known⟩
    | false => exact Or.inl (by simpa [CtrlThread.quiet,here,readable] using noisy)
  | locking task tasks => exact ⟨s,.start,thId,task,tasks,joining,here⟩

end Noisy

section Runs

/-- The next request of a client that has said byebye is in progress when the sweep comes. -/
def requestAfterByebye : List ServerEvent :=
  byebyeEvents ++ [.arrive 7,.pselect 7 (.simple (.heartbeat 0)),.sweepLock,.sweepNode 0 byebyeInfo,
    .killThread 0 7 [0],.lock 7 .criGetCryptInfo [.cliMgrRefreshHeartbeat 0]]

theorem deadlock_reachable : ∃ s, server.Run anyEvent .initial s ∧ Deadlocked s ∧
    ∀ {last}, server.Run anyEvent s last → Deadlocked last := by
  have follows : server.Follows anyEvent .initial requestAfterByebye := by decide
  have stuck : Deadlocked (requestAfterByebye.foldl serverNext .initial) :=
    ⟨7,.criGetCryptInfo,[.cliMgrRefreshHeartbeat 0],by decide,by decide⟩
  exact ⟨_,run_of_events follows .start,stuck,fun run =>
    run_invariant stuck (fun here enabled _ => deadlocked_stays here enabled) run⟩

/-- The client is silent after its byebye, and the sweep removes it. -/
def silentAfterByebye : List ServerEvent :=
  byebyeEvents ++ [.sweepLock,.sweepNode 0 byebyeInfo,.killThread 0 7 [0],.interrupt 7,.joined 0 7 [0],
    .killThread 0 0 [],.sweepUnlink 0 byebyeInfo,.sweepUnlock 0]

theorem quiet_never_deadlocked_silent : ¬Deadlocked (silentAfterByebye.foldl serverNext .initial) :=
  quiet_never_deadlocked (run_of_events (by decide) .start)

end Runs

end MoCodes.Cps.Server
