import MoCodes.MoCloud.Server.Notify
import MoCodes.MoCloud.Server.AccessControl

/-! When `CliMgr::run` deletes a CliCtrl: the server of cliMgr.cpp, and where the thread of each
client is in `CliCtrl::run`. After a pass has set the state, its thread has the rest of the pass
to do, the test of the loop, and what `run` still writes to the log. -/
namespace MoCodes.MoCloud.Server
open Lib.Transition

/-- `done` is the rest of a pass, `leaving` what comes after the loop. -/
inductive CtrlPlace where
  | check | body | done | leaving | left
  deriving DecidableEq

/-- `places` are those of the threads of `mgr.cliCtrls`. -/
structure Process where
  mgr : CliMgr := {}
  places : List CtrlPlace := []

/-- `loop` is a step of the thread of a client outside of its passes. -/
inductive ProcessEvent where
  | mgr (event : MgrEvent)
  | loop (client : Nat)

/-- The client whose thread is in a pass. -/
def inPass : MgrEvent → Option Nat
  | .client client (.pass _) => some client
  | .client client (.joined _) => some client
  | _ => none

namespace Process

variable (process : Process)

/-- A pass ends here unless `doStopDwld` waits in `join`. -/
def joining (mgr : CliMgr) (client : Nat) : Bool :=
  ((mgr.cliCtrls[client]?).bind Session.joining).isSome

def moved (mgr : CliMgr) : MgrEvent → List CtrlPlace
  | .connect .. => process.places ++ [.check]
  | event =>
    match inPass event with
    | none => process.places
    | some client => if joining mgr client then process.places else process.places.set client .done

/-- The loop of `CliCtrl::run`, whose `getRunState` is true as nobody stops the thread. -/
def loop (client : Nat) : CtrlPlace → Option CtrlPlace
  | .check => some (if process.mgr.state client = some .invalid then .leaving else .body)
  | .body => none
  | .done => some .check
  | .leaving => some .left
  | .left => none

/-- Of a CliCtrl that is deleted nothing more is followed. -/
def step : ProcessEvent → Option Process
  | .mgr event =>
    if ∀ client ∈ inPass event, process.places[client]? = some .body then
      (process.mgr.step event).map fun mgr => ⟨mgr,process.moved mgr event⟩
    else none
  | .loop client =>
    if client ∈ process.mgr.mCliCtrlList then
      ((process.places[client]?).bind (process.loop client)).map fun place =>
        { process with places := process.places.set client place }
    else none

end Process

def processSystem : System Process ProcessEvent where
  Enabled process event := (process.step event).isSome
  next process event := (process.step event).getD process

instance (process : Process) (event : ProcessEvent) : Decidable (processSystem.Enabled process event) :=
  inferInstanceAs (Decidable (Option.isSome _))

/-- All download threads have ended. A thread leaves the list in `doStopDwld` only, after its `join`. -/
def CliCtrl.Ended (ctrl : CliCtrl) : Prop := ∀ thread ∈ ctrl.mCliDataList, thread.place = .ended

instance (ctrl : CliCtrl) : Decidable ctrl.Ended :=
  inferInstanceAs (Decidable (∀ thread ∈ ctrl.mCliDataList, thread.place = .ended))

namespace Process

/-- A CliCtrl that is no more in the list is deleted. -/
def Safe (process : Process) : Prop :=
  ∀ client session, process.mgr.cliCtrls[client]? = some session → client ∉ process.mgr.mCliCtrlList →
    process.places[client]? = some .left ∧ session.ctrl.Ended

end Process

/-- What makes a pass set CLI_STATE_INVALID: the heartbeat, the key agreement, a short read, or
BYEBYE of a client that is logged in. -/
def Session.invalidates (session : Session) (pass : Pass) : Bool :=
  if session.ctrl.late pass.curTime then true
  else if session.ctrl.mState = .idle then pass.keyAgree < 0
  else
    match CliCtrl.accepted pass.incoming,pass.incoming with
    | some (req,_),_ => req.cmdId = CmdId.byebye.toWire ∧ session.ctrl.mState = .login
    | none,.closed => true
    | none,_ => false

/-- The semaphore times out and `CliMgr::run` deletes what is invalid. -/
def CliMgr.Sweeps (mgr : CliMgr) : MgrEvent → Prop
  | .run => mgr.place = .waiting ∧ mgr.mSem = 0
  | _ => False

instance (mgr : CliMgr) : DecidablePred mgr.Sweeps
  | .run => inferInstanceAs (Decidable (_ ∧ _))
  | .setChangedFiletype _ => isFalse id
  | .semPost => isFalse id
  | .connect .. => isFalse id
  | .client .. => isFalse id

/-- The thread of no client that is invalid still has a way to go in `CliCtrl::run`. -/
def Process.Settled (process : Process) : Prop :=
  ∀ client ∈ process.mgr.mCliCtrlList, process.mgr.state client = some .invalid →
    process.places[client]? = some .left

instance (process : Process) : Decidable process.Settled :=
  inferInstanceAs (Decidable (∀ client ∈ process.mgr.mCliCtrlList, _ → _))

/-- The client that an event makes invalid. -/
def CliMgr.invalidated (mgr : CliMgr) : MgrEvent → Option Session
  | .client client (.pass pass) => (mgr.cliCtrls[client]?).filter fun session => session.invalidates pass
  | _ => none

/-- A client is made invalid when it has no download thread that runs, and `CliMgr::run` does not
look at the list before the thread of that client has left. -/
def Process.Orderly (process : Process) : ProcessEvent → Prop
  | .mgr event =>
    (∀ session ∈ process.mgr.invalidated event, session.ctrl.Ended) ∧
      (process.mgr.Sweeps event → process.Settled)
  | .loop _ => True

instance (process : Process) : DecidablePred process.Orderly
  | .mgr event =>
    inferInstanceAs (Decidable ((∀ session ∈ process.mgr.invalidated event, session.ctrl.Ended) ∧ (_ → _)))
  | .loop _ => isTrue trivial

section Session

variable {session after : Session} {pass : Pass} {event : Event}

theorem Session.runBody_invalid (ran : session.runBody pass = some after)
    (valid : session.ctrl.mState ≠ .invalid) (invalid : after.ctrl.mState = .invalid) :
    session.invalidates pass = true ∧ after.ctrl.mCliDataList = session.ctrl.mCliDataList := by
  rw [runBody] at ran
  rw [invalidates]
  split_ifs at ran ⊢ with late idle refused
  · obtain rfl := Option.some.inj ran
    exact ⟨rfl,rfl⟩
  · obtain rfl := Option.some.inj ran
    exact ⟨decide_eq_true refused,rfl⟩
  · obtain rfl := Option.some.inj ran
    cases invalid
  · unfold doCtrlRequest at ran
    split at ran
    · rename_i req pBody got
      obtain ⟨handled,chosen,rfl⟩ := Option.map_eq_some_iff.mp ran
      rw [answer_ctrl] at invalid ⊢
      obtain ⟨command,login,same⟩ := CliCtrl.doRequest_invalid chosen valid invalid
      exact ⟨by simp [got,command,login],by rw [same]; rfl⟩
    · rename_i got
      split at ran
      · rename_i closed
        obtain rfl := Option.some.inj ran
        exact ⟨by simp [closed,CliCtrl.accepted],rfl⟩
      · obtain rfl := Option.some.inj ran
        exact absurd invalid valid

/-- No thread runs once a client is invalid, if none does when it is made so. -/
theorem Session.step_ended (ran : session.step event = some after)
    (kept : session.ctrl.mState = .invalid → session.ctrl.Ended)
    (orderly : ∀ pass, event = .pass pass → session.invalidates pass = true → session.ctrl.Ended)
    (invalid : after.ctrl.mState = .invalid) : after.ctrl.Ended := by
  cases event with
  | pass pass =>
    have valid : session.ctrl.mState ≠ .invalid := by
      simp only [step] at ran
      split_ifs at ran with free
      exact free.2
    obtain ⟨before,body,ctrl,_⟩ := step_pass ran
    rw [ctrl] at invalid ⊢
    obtain ⟨invalidates,same⟩ := runBody_invalid body valid invalid
    rw [CliCtrl.Ended,same]
    exact orderly pass rfl invalidates
  | joined sending =>
    obtain ⟨req,place,rfl⟩ := step_joined ran
    rw [answer_ctrl] at invalid ⊢
    intro thread member
    exact kept invalid thread (List.mem_of_mem_eraseIdx member)
  | download place answer =>
    obtain ⟨thread,found,runs,rfl⟩ := step_download ran
    exact absurd (kept invalid thread (List.mem_of_getElem? found)) runs
  | newConn cliSockId =>
    obtain ⟨mDataSockId,rfl⟩ := step_newConn ran
    exact kept invalid
  | filelistChange changeValue =>
    obtain ⟨_,_,rfl⟩ := step_filelistChange ran
    exact kept invalid

end Session

namespace CliMgr

variable {mgr : CliMgr} {client : Nat} {after : Session}

theorem modify_client {other : Nat} (change : CliCtrl → CliCtrl)
    (state : ∀ ctrl, (change ctrl).mState = ctrl.mState)
    (threads : ∀ ctrl, (change ctrl).mCliDataList = ctrl.mCliDataList)
    (found : (mgr.modify other change).cliCtrls[client]? = some after) :
    ∃ session, mgr.cliCtrls[client]? = some session ∧ after.ctrl.mState = session.ctrl.mState ∧
      after.ctrl.mCliDataList = session.ctrl.mCliDataList := by
  rw [modify,List.getElem?_modify] at found
  obtain ⟨session,there,rfl⟩ := Option.map_eq_some_iff.mp found
  refine ⟨session,there,?_⟩
  split_ifs
  · exact ⟨state _,threads _⟩
  · exact ⟨rfl,rfl⟩

theorem run_client (found : mgr.run.cliCtrls[client]? = some after) :
    ∃ session, mgr.cliCtrls[client]? = some session ∧ after.ctrl.mState = session.ctrl.mState ∧
      after.ctrl.mCliDataList = session.ctrl.mCliDataList := by
  unfold run at found
  split at found
  · split_ifs at found <;> exact ⟨after,found,rfl,rfl⟩
  · exact ⟨after,found,rfl,rfl⟩
  · split at found <;> exact ⟨after,found,rfl,rfl⟩
  · exact ⟨after,found,rfl,rfl⟩
  · split_ifs at found <;> exact ⟨after,found,rfl,rfl⟩
  · refine modify_client (fun ctrl => ctrl.setFilelistChangeValue _) (fun ctrl => ?_) (fun ctrl => ?_) found
    · rw [CliCtrl.setFilelistChangeValue]
      split <;> rfl
    · rw [CliCtrl.setFilelistChangeValue]
      split <;> rfl
  · exact modify_client CliCtrl.setFilelistChangedFlag (fun _ => rfl) (fun _ => rfl) found

theorem run_length : mgr.run.cliCtrls.length = mgr.cliCtrls.length := by
  unfold run
  split
  · split_ifs <;> rfl
  · rfl
  · split <;> rfl
  · rfl
  · split_ifs <;> rfl
  · exact List.length_modify _ _ _
  · exact List.length_modify _ _ _

/-- Only when it times out does `CliMgr::run` take clients off the list, and only invalid ones. -/
theorem run_list (client : Nat) (listed : client ∈ mgr.mCliCtrlList) :
    client ∈ mgr.run.mCliCtrlList ∨ mgr.Sweeps .run ∧ mgr.state client = some .invalid := by
  unfold run
  split
  · rename_i waiting
    split_ifs with none
    · by_cases invalid : mgr.state client = some .invalid
      · exact Or.inr ⟨⟨waiting,none⟩,invalid⟩
      · exact Or.inl (List.mem_filter.mpr ⟨listed,by simpa using invalid⟩)
    · exact Or.inl listed
  · exact Or.inl listed
  · split <;> exact Or.inl listed
  · exact Or.inl listed
  · split_ifs <;> exact Or.inl listed
  · exact Or.inl listed
  · exact Or.inl listed

end CliMgr

namespace Process

variable {process after : Process} {event : ProcessEvent}

structure Kept (process : Process) : Prop where
  length : process.places.length = process.mgr.cliCtrls.length
  ended : ∀ (client : Nat) (session : Session), process.mgr.cliCtrls[client]? = some session →
    session.ctrl.mState = .invalid → session.ctrl.Ended
  safe : process.Safe

theorem run_kept (kept : process.Kept) (orderly : process.mgr.Sweeps .run → process.Settled) :
    Kept ⟨process.mgr.run,process.places⟩ where
  length := by
    rw [CliMgr.run_length]
    exact kept.length
  ended := fun client after found invalid => by
    obtain ⟨session,there,state,threads⟩ := CliMgr.run_client found
    rw [CliCtrl.Ended,threads]
    exact kept.ended client session there (by rw [← state]; exact invalid)
  safe := fun client after found unlisted => by
    obtain ⟨session,there,state,threads⟩ := CliMgr.run_client found
    rw [CliCtrl.Ended,threads]
    by_cases listed : client ∈ process.mgr.mCliCtrlList
    · rcases CliMgr.run_list client listed with still | ⟨sweeps,invalid⟩
      · exact absurd still unlisted
      · have state : session.ctrl.mState = .invalid := by simpa [CliMgr.state,there] using invalid
        exact ⟨orderly sweeps client listed invalid,kept.ended client session there state⟩
    · exact kept.safe client session there listed

theorem connect_kept (kept : process.Kept) {time mFilelistChangedValue : Int} :
    Kept
      ⟨{ process.mgr with
          cliCtrls := process.mgr.cliCtrls ++ [newSession time mFilelistChangedValue]
          mCliCtrlList := process.mgr.mCliCtrlList ++ [process.mgr.cliCtrls.length] },
        process.places ++ [.check]⟩ where
  length := by simp [kept.length]
  ended := fun client session found invalid => by
    rw [List.getElem?_append] at found
    split_ifs at found with old
    · exact kept.ended client session found invalid
    · obtain rfl : session = newSession time mFilelistChangedValue :=
        List.mem_singleton.mp (List.mem_of_getElem? found)
      cases invalid
  safe := fun client session found unlisted => by
    simp only [List.mem_append,List.mem_singleton,not_or] at unlisted
    have old : client < process.mgr.cliCtrls.length := by
      have inside := (List.getElem?_eq_some_iff.mp found).1
      simp only [List.length_append,List.length_singleton] at inside
      omega
    have found : process.mgr.cliCtrls[client]? = some session := by
      rw [← List.getElem?_append_left old]
      exact found
    obtain ⟨left,ended⟩ := kept.safe client session found unlisted.1
    exact ⟨by rw [List.getElem?_append_left (kept.length ▸ old)]; exact left,ended⟩

/-- What a client that is not deleted does leaves the deleted ones as they are. -/
theorem client_kept (kept : process.Kept) {client : Nat} {session : Session} {places : List CtrlPlace}
    (listed : client ∈ process.mgr.mCliCtrlList)
    (ended : session.ctrl.mState = .invalid → session.ctrl.Ended)
    (same : ∀ other, other ≠ client → places[other]? = process.places[other]?)
    (length : places.length = process.places.length) :
    Kept ⟨{ process.mgr with cliCtrls := process.mgr.cliCtrls.set client session },places⟩ where
  length := by rw [length,kept.length,List.length_set]
  ended := fun other after found invalid => by
    rcases eq_or_ne client other with rfl | apart
    · have inside := (List.getElem?_eq_some_iff.mp found).1
      rw [List.length_set] at inside
      rw [List.getElem?_set_self inside] at found
      obtain rfl := Option.some.inj found
      exact ended invalid
    · rw [List.getElem?_set_ne apart] at found
      exact kept.ended other after found invalid
  safe := fun other after found unlisted => by
    have apart : client ≠ other := fun same => unlisted (same ▸ listed)
    rw [List.getElem?_set_ne apart] at found
    obtain ⟨left,ended⟩ := kept.safe other after found unlisted
    exact ⟨by rw [same other apart.symm]; exact left,ended⟩

theorem loop_kept (kept : process.Kept) {client : Nat} {place : CtrlPlace}
    (listed : client ∈ process.mgr.mCliCtrlList) :
    Kept { process with places := process.places.set client place } where
  length := by rw [List.length_set,kept.length]
  ended := kept.ended
  safe := fun other after found unlisted => by
    have apart : client ≠ other := fun same => unlisted (same ▸ listed)
    obtain ⟨left,ended⟩ := kept.safe other after found unlisted
    exact ⟨by rw [List.getElem?_set_ne apart]; exact left,ended⟩

theorem moved_same {mgr : CliMgr} {client : Nat} {event : Event} :
    (∀ other, other ≠ client →
      (process.moved mgr (.client client event))[other]? = process.places[other]?) ∧
    (process.moved mgr (.client client event)).length = process.places.length := by
  cases event with
  | download => exact ⟨fun _ _ => rfl,rfl⟩
  | newConn => exact ⟨fun _ _ => rfl,rfl⟩
  | filelistChange => exact ⟨fun _ _ => rfl,rfl⟩
  | pass | joined =>
    simp only [moved,inPass]
    split
    · exact ⟨fun _ _ => rfl,rfl⟩
    · exact ⟨fun other apart => List.getElem?_set_ne apart.symm,List.length_set⟩

theorem mgr_kept (kept : process.Kept) {event : MgrEvent} (orderly : process.Orderly (.mgr event))
    {mgr : CliMgr} (ran : process.mgr.step event = some mgr) : Kept ⟨mgr,process.moved mgr event⟩ := by
  cases event with
  | setChangedFiletype type =>
    obtain rfl := Option.some.inj ran
    rw [CliMgr.setChangedFiletype]
    split <;> exact ⟨kept.length,kept.ended,kept.safe⟩
  | semPost =>
    simp only [CliMgr.step] at ran
    split_ifs at ran
    obtain rfl := Option.some.inj ran
    exact ⟨kept.length,kept.ended,kept.safe⟩
  | run =>
    obtain rfl := Option.some.inj ran
    exact run_kept kept orderly.2
  | connect time mFilelistChangedValue =>
    simp only [CliMgr.step] at ran
    split_ifs at ran
    obtain rfl := Option.some.inj ran
    exact connect_kept kept
  | client client event =>
    simp only [CliMgr.step] at ran
    split_ifs at ran with own
    obtain ⟨session,found,rfl⟩ := Option.map_eq_some_iff.mp ran
    obtain ⟨before,there,stepped⟩ := Option.bind_eq_some_iff.mp found
    refine client_kept kept own.1 ?_ moved_same.1 moved_same.2
    refine Session.step_ended stepped (kept.ended client before there) ?_
    rintro pass rfl invalidates
    exact orderly.1 before (Option.mem_filter_iff.mpr ⟨there,invalidates⟩)

theorem step_kept (kept : process.Kept) (enabled : processSystem.Enabled process event)
    (orderly : process.Orderly event) : (processSystem.next process event).Kept := by
  obtain ⟨after,ran⟩ := Option.isSome_iff_exists.mp enabled
  have next : processSystem.next process event = after := by simp [processSystem,ran]
  rw [next]
  cases event with
  | mgr event =>
    simp only [step] at ran
    split_ifs at ran
    obtain ⟨mgr,stepped,rfl⟩ := Option.map_eq_some_iff.mp ran
    exact mgr_kept kept orderly stepped
  | loop client =>
    simp only [step] at ran
    split_ifs at ran with listed
    obtain ⟨place,_,rfl⟩ := Option.map_eq_some_iff.mp ran
    exact loop_kept kept listed

/-- In every run in which clients are made invalid without download threads, and `CliMgr::run`
comes only when the threads of the invalid ones have left, it deletes a CliCtrl only after that
has happened. -/
theorem deleted_after_threads (run : processSystem.Run Orderly {} process) : process.Safe := by
  refine (run_invariant (I := Kept) ⟨rfl,?_,?_⟩ (fun kept enabled orderly => step_kept kept enabled orderly)
    run).safe
  · intro client session found
    simp at found
  · intro client session found
    simp at found

/-- A pass of the thread of the first client, from the test of the loop to the next. -/
def onePass (event : Event) : List ProcessEvent := [.loop 0,.mgr (.client 0 event),.loop 0]

/-- A client connects, logs in and starts a download. -/
def download : List ProcessEvent :=
  .mgr (.connect 0 0) :: onePass (.pass (requestPass oneFileWorld .keyAgree [])) ++ onePass downloadLogIn ++
    .mgr (.client 0 (.newConn 4)) ::
      onePass (.pass (requestPass oneFileWorld .dwldStart (text "filetype=1, filename=a, startOffset=0, fileId=0")))

def byebye : Event := .pass (requestPass oneFileWorld .byebye [])

/-- The download ends, then the client says BYEBYE, and its thread leaves before the list is looked at. -/
def orderlyEnd : List ProcessEvent :=
  download ++ List.replicate 6 (.mgr (.client 0 (.download 0 ⟨0,some (text "data"),100⟩))) ++
    onePass byebye ++ [.loop 0,.loop 0,.mgr .run]

theorem deleted_after_threads_orderlyEnd : (orderlyEnd.foldl processSystem.next {}).Safe :=
  deleted_after_threads (run_of_events (by decide) .start)

/-- BYEBYE while the download runs, and the list is looked at at once. -/
def hastyEnd : List ProcessEvent := download ++ [.loop 0,.mgr (.client 0 byebye),.mgr .run]

/-- The client is deleted while its thread has the response to send and the download goes on. -/
theorem deleted_before_threads : processSystem.Follows anyEvent {} hastyEnd ∧
    (hastyEnd.foldl processSystem.next {}).places = [.done] ∧
    (∃ session ∈ (hastyEnd.foldl processSystem.next {}).mgr.cliCtrls, ¬ session.ctrl.Ended) ∧
      ¬ (hastyEnd.foldl processSystem.next {}).Safe := by
  refine ⟨by decide,by decide,by decide,fun safe => ?_⟩
  have deleted := safe 0 _ (Option.some_get (by decide)).symm (by decide)
  exact absurd deleted.1 (by decide)

end Process

end MoCodes.MoCloud.Server
