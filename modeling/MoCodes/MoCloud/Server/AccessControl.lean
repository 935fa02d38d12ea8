import MoCodes.MoCloud.Server.Session

/-! What is sent to a client that is not logged in. `doGetFilelist` looks at the state before it
answers, `doStartDwld` does not. -/
namespace MoCodes.MoCloud.Server
open MoCodes.Lib.Transition

namespace CliData

/-- What the thread sends is asked for by a client that was logged in, or it sends nothing. -/
def Entitled (thread : CliData) : Prop :=
  thread.asked = .login ∨ thread.mSockId < 0 ∨ thread.place = .ended

variable {thread : CliData} {answer : DataAnswer} {item : Sent}

theorem entitled_closeStop (entitled : thread.Entitled) : thread.closeStop.Entitled := entitled

theorem run_asked : (thread.run answer).1.asked = thread.asked := by
  rw [run]
  repeat' split
  all_goals rfl

theorem run_mSockId : (thread.run answer).1.mSockId = thread.mSockId := by
  rw [run]
  repeat' split
  all_goals rfl

theorem sendHeader_content (header : DataHeader) : ¬ (thread.sendHeader answer header).Content := id

theorem sendBody_content {data : Text} (content : (thread.sendBody answer data).Content) :
    0 ≤ thread.mSockId := by
  by_contra absent
  apply content
  rw [written,if_pos (not_le.mp absent),List.take_zero]

/-- The bytes of a file leave a thread through its socket only. -/
theorem run_content (sent : item ∈ (thread.run answer).2) (content : item.Content) : 0 ≤ thread.mSockId := by
  have silent : ∀ {header}, item = thread.sendHeader answer header → 0 ≤ thread.mSockId := by
    rintro header rfl
    exact absurd content (sendHeader_content header)
  have body : ∀ {data}, item = thread.sendBody answer data → 0 ≤ thread.mSockId := by
    rintro data rfl
    exact sendBody_content content
  rw [run] at sent
  split at sent
  · simp at sent
  · simp at sent
  · split at sent <;> simp at sent
  · exact silent (List.mem_singleton.mp sent)
  · split at sent <;> exact body (List.mem_singleton.mp sent)
  · exact silent (List.mem_singleton.mp sent)
  · simp at sent

theorem run_entitled (answer : DataAnswer) (running : thread.place ≠ .ended) (entitled : thread.Entitled) :
    (thread.run answer).1.Entitled ∧ ∀ item ∈ (thread.run answer).2, item.Content → thread.asked = .login := by
  have why : thread.asked = .login ∨ thread.mSockId < 0 := by
    rcases entitled with asked | absent | ended
    · exact Or.inl asked
    · exact Or.inr absent
    · exact absurd ended running
  constructor
  · rw [Entitled,run_asked,run_mSockId]
    exact why.imp_right Or.inl
  · intro item sent content
    exact why.resolve_right (not_lt.mpr (run_content sent content))

end CliData

theorem sendCtrlResp2Cli_content {sending : Sending} {req : CtrlRequest} {resp : CtrlResponse}
    {pRespBody : Option (List BasicFileinfo)} (bodiless : resp.bodyLen = 0) :
    ∀ item ∈ CliCtrl.sendCtrlResp2Cli sending req resp pRespBody, ¬ item.Content := by
  intro item sent
  rw [CliCtrl.sendCtrlResp2Cli] at sent
  split_ifs at sent
  · rcases List.mem_pair.mp sent with rfl | rfl
    · exact id
    · simp [Sent.Content,bodiless]
  · rw [List.mem_singleton.mp sent]
    exact id
  · cases sent

namespace Session

/-- No record of the file list and no byte of a file has been sent for a request that was
processed while the client was not logged in. -/
def Guarded (session : Session) : Prop :=
  ∀ entry ∈ session.sent, entry.2.Content → entry.1 = .login

instance (session : Session) : Decidable session.Guarded :=
  inferInstanceAs (Decidable (∀ entry ∈ session.sent, entry.2.Content → entry.1 = .login))

/-- A pass that starts a download does so for a client that is logged in. -/
def Authorised (session : Session) : Event → Prop
  | .pass pass => ∀ request ∈ session.processes pass, request.1.cmdId = CmdId.dwldStart.toWire →
    session.ctrl.StartsDwld pass.world request.2 → session.ctrl.mState = .login
  | _ => True

instance decidableAuthorised (session : Session) : DecidablePred session.Authorised
  | .pass pass => inferInstanceAs (Decidable (∀ request ∈ session.processes pass, _ → _ → _))
  | .joined _ => isTrue trivial
  | .download _ _ => isTrue trivial
  | .newConn _ => isTrue trivial
  | .filelistChange _ => isTrue trivial

structure Controlled (session : Session) : Prop where
  guarded : session.Guarded
  entitled : ∀ thread ∈ session.ctrl.mCliDataList, thread.Entitled

section Step

variable {session after : Session} {pass : Pass} {event : Event}

theorem answer_guarded {asked : CliState} {req : CtrlRequest} {sending : Sending} {handled : Handled}
    (guarded : session.Guarded) (bodiless : asked ≠ .login → handled.Bodiless) :
    (session.answer asked req sending handled).Guarded := by
  cases handled with
  | joining ctrl place => exact guarded
  | returned ctrl ret resp pRespBody =>
    intro entry sent content
    rcases List.mem_append.mp sent with earlier | now
    · exact guarded entry earlier content
    · obtain ⟨_,among,rfl⟩ := List.mem_map.mp now
      by_contra outside
      exact sendCtrlResp2Cli_content (bodiless outside) _ among content

theorem pass_controlled (controlled : session.Controlled) (authorised : session.Authorised (.pass pass))
    (ran : session.step (.pass pass) = some after) : after.Controlled := by
  obtain ⟨before,body,ctrl,sent,_⟩ := step_pass ran
  -- the history of passes plays no part
  suffices before.Controlled by
    refine ⟨?_,?_⟩
    · rw [Guarded,sent]
      exact this.guarded
    · rw [ctrl]
      exact this.entitled
  rcases runBody_cases body with ⟨req,pBody,handled,processed,chosen,rfl⟩ | ⟨_,rfl | ⟨state,_,rfl⟩⟩
  · refine ⟨answer_guarded controlled.guarded fun outside => ?_,?_⟩
    · exact CliCtrl.doRequest_bodiless outside chosen
    · rw [answer_ctrl]
      refine CliCtrl.doRequest_threads chosen (fun _ => CliData.entitled_closeStop) ?_ controlled.entitled
      rintro thread asked (absent | ended | ⟨command,starts⟩)
      · exact Or.inr (Or.inl absent)
      · exact Or.inr (Or.inr ended)
      · exact Or.inl (asked.trans (authorised (req,pBody) processed command starts))
  · exact controlled
  · exact ⟨controlled.guarded,controlled.entitled⟩

theorem download_controlled {place : Nat} {answer : DataAnswer} (controlled : session.Controlled)
    (ran : session.step (.download place answer) = some after) : after.Controlled := by
  obtain ⟨thread,found,running,rfl⟩ := step_download ran
  have entitled := controlled.entitled thread (List.mem_of_getElem? found)
  obtain ⟨still,sends⟩ := CliData.run_entitled answer running entitled
  constructor
  · intro entry sent content
    rcases List.mem_append.mp sent with earlier | now
    · exact controlled.guarded entry earlier content
    · obtain ⟨_,among,rfl⟩ := List.mem_map.mp now
      exact sends _ among content
  · intro other member
    rcases List.mem_or_eq_of_mem_set member with old | rfl
    · exact controlled.entitled other old
    · exact still

theorem step_controlled (controlled : session.Controlled) (authorised : session.Authorised event)
    (ran : session.step event = some after) : after.Controlled := by
  cases event with
  | pass pass => exact pass_controlled controlled authorised ran
  | joined sending =>
    obtain ⟨req,place,rfl⟩ := step_joined ran
    refine ⟨answer_guarded controlled.guarded fun _ => rfl,?_⟩
    intro thread member
    exact controlled.entitled thread (List.mem_of_mem_eraseIdx member)
  | download place answer => exact download_controlled controlled ran
  | newConn cliSockId =>
    obtain ⟨_,rfl⟩ := step_newConn ran
    exact ⟨controlled.guarded,controlled.entitled⟩
  | filelistChange changeValue =>
    obtain ⟨_,_,rfl⟩ := step_filelistChange ran
    exact ⟨controlled.guarded,controlled.entitled⟩

end Step

section Leak

variable {session : Session} {thread : CliData} {place : Nat}

def Leaks (session : Session) : Prop :=
  ∃ events, cliSystem.Follows anyEvent session events ∧ ¬ (events.foldl cliSystem.next session).Guarded

theorem leaks_next {event : Event} (enabled : cliSystem.Enabled session event)
    (later : (cliSystem.next session event).Leaks) : session.Leaks := by
  obtain ⟨events,follows,leaked⟩ := later
  exact ⟨event :: events,⟨⟨enabled,trivial⟩,follows⟩,leaked⟩

theorem download_enabled (answer : DataAnswer) (found : session.ctrl.mCliDataList[place]? = some thread)
    (running : thread.place ≠ .ended) : cliSystem.Enabled session (.download place answer) := by
  simp [cliSystem,step,runDownload,found,running]

theorem download_next {answer : DataAnswer} (found : session.ctrl.mCliDataList[place]? = some thread)
    (running : thread.place ≠ .ended) :
    (cliSystem.next session (.download place answer)).ctrl.mCliDataList[place]? = some (thread.run answer).1 ∧
      (cliSystem.next session (.download place answer)).sent =
        session.sent ++ (thread.run answer).2.map (Prod.mk thread.asked) := by
  have inside := (List.getElem?_eq_some_iff.mp found).1
  obtain ⟨same,there,_,after⟩ := step_download (step_next (download_enabled answer found running))
  obtain rfl : thread = same := Option.some.inj (found.symm.trans there)
  rw [after]
  exact ⟨by simp [inside],rfl⟩

theorem leaks_download (answer : DataAnswer) (found : session.ctrl.mCliDataList[place]? = some thread)
    (running : thread.place ≠ .ended)
    (later : ∀ after : Session, after.ctrl.mCliDataList[place]? = some (thread.run answer).1 → after.Leaks) :
    session.Leaks :=
  leaks_next (download_enabled answer found running) (later _ (download_next found running).1)

theorem body_leaks {data : Text} (found : session.ctrl.mCliDataList[place]? = some thread)
    (at_body : thread.place = .sendBody data) (some_data : data ≠ []) (connected : 0 ≤ thread.mSockId)
    (outside : thread.asked ≠ .login) : session.Leaks := by
  let answer : DataAnswer := ⟨0,none,1⟩
  have running : thread.place ≠ .ended := by simp [at_body]
  have sends : thread.sendBody answer data ∈ (thread.run answer).2 := by
    rw [CliData.run,at_body]
    dsimp only
    split <;> exact List.mem_singleton_self _
  refine ⟨[.download place answer],⟨⟨download_enabled answer found running,trivial⟩,trivial⟩,fun guarded => ?_⟩
  refine outside (guarded (thread.asked,thread.sendBody answer data) ?_ ?_)
  · rw [List.foldl_cons,List.foldl_nil,(download_next found running).2]
    exact List.mem_append_right _ (List.mem_map_of_mem sends)
  · have taken : CliData.written thread.mSockId 1 data.length = 1 := by
      have long := List.length_pos_iff.mpr some_data
      rw [CliData.written,if_neg (not_lt.mpr connected)]
      omega
    show data.take (CliData.written thread.mSockId 1 data.length) ≠ []
    rw [taken]
    simpa using some_data

/-- A thread that has just been started with a socket can send a byte of its file. -/
theorem thread_leaks (found : session.ctrl.mCliDataList[place]? = some thread) (new : thread.place = .check)
    (runs : thread.mIsRun = true) (opened : 0 ≤ thread.mReadHdl) (connected : 0 ≤ thread.mSockId)
    (outside : thread.asked ≠ .login) : session.Leaks := by
  let answer : DataAnswer := ⟨0,some [0],0⟩
  have seek : (thread.run answer).1 = {thread with place := .seek} := by
    simp [CliData.run,new,runs,opened]
  have read : (CliData.run {thread with place := .seek} answer).1 = {thread with place := .read} := rfl
  have header : (CliData.run {thread with place := .read} answer).1 = {thread with place := .sendHeader [0]} := rfl
  refine leaks_download answer found (by simp [new]) fun first found => ?_
  rw [seek] at found
  refine leaks_download answer found (by simp) fun second found => ?_
  rw [read] at found
  refine leaks_download answer found (by simp) fun third found => ?_
  rw [header] at found
  refine leaks_download answer found (by simp) fun fourth found => ?_
  exact body_leaks found rfl (List.cons_ne_nil 0 []) connected outside

/-- The condition of `content_guarded` leaves out nothing else: after a pass that does not meet
it a byte of a file can be sent. -/
theorem unauthorised_leaks {event : Event} (enabled : cliSystem.Enabled session event)
    (unauthorised : ¬ session.Authorised event) : (cliSystem.next session event).Leaks := by
  cases event with
  | pass pass =>
    simp only [Authorised,not_forall] at unauthorised
    obtain ⟨⟨req,pBody⟩,processed,command,starts,outside⟩ := unauthorised
    replace processed : session.processes pass = some (req,pBody) := processed
    replace command : req.cmdId = CmdId.dwldStart.toWire := command
    obtain ⟨info,fd,opened,connected,started⟩ := CliCtrl.doStartDwld_starts req starts
    obtain ⟨before,body,ctrl,_⟩ := step_pass (step_next enabled)
    have chosen : session.ctrl.doRequest pass.world req pBody = session.ctrl.doStartDwld pass.world req pBody := by
      simp [CliCtrl.doRequest,command,CmdId.toWire]
    rcases runBody_cases body with ⟨_,_,handled,same,ran,rfl⟩ | ⟨silent,_⟩
    · obtain ⟨rfl,rfl⟩ : req = _ ∧ pBody = _ := by simpa [processed] using same
      rw [chosen,started] at ran
      obtain rfl := Option.some.inj ran
      rw [answer_ctrl] at ctrl
      have found : (cliSystem.next session (.pass pass)).ctrl.mCliDataList[session.ctrl.mCliDataList.length]? =
          some (newCliData session.ctrl.mDataSockId info fd true session.ctrl.mState) := by
        rw [ctrl]
        exact List.getElem?_concat_length
      exact thread_leaks found rfl rfl opened connected outside
    · simp [processed] at silent
  | _ => exact absurd trivial unauthorised

end Leak

end Session

section Runs

variable {time mFilelistChangedValue : Int} {session : Session} {event : Event}

/-- In a run that starts downloads for clients that are logged in only, nothing of the list of
files or of a file is sent for a request that was processed in another state. -/
theorem content_guarded
    (run : cliSystem.Run Session.Authorised (newSession time mFilelistChangedValue) session) :
    session.Guarded := by
  refine (run_invariant (I := Session.Controlled) ⟨?_,?_⟩ (fun controlled enabled authorised => ?_) run).guarded
  · intro entry sent
    cases sent
  · intro thread member
    cases member
  · exact Session.step_controlled controlled authorised (step_next enabled)

def oneFileWorld : World :=
  {emptyWorld (.sqlite ⟨true,fun _ => ⟨0,[some (text "1")]⟩⟩) with openSys := fun _ => 5}

def downloadEvents (logIn : List Event) : List Event :=
  let read := Event.download 0 ⟨0,some (text "data"),100⟩
  [.newConn 4,.pass (requestPass oneFileWorld .keyAgree [])] ++ logIn ++
    [.pass (requestPass oneFileWorld .dwldStart (text "filetype=1, filename=a, startOffset=0, fileId=0")),
      read,read,read,read,read]

def downloadLogIn : Event :=
  let engine : Text → SqliteAnswer := fun command =>
    if command = selectPasswdCmd (text "eric") then ⟨0,[some (text "secret")]⟩ else ⟨0,[some (text "1")]⟩
  .pass (requestPass (emptyWorld (.sqlite ⟨true,engine⟩)) .logIn (text "username=eric, password=secret"))

theorem content_guarded_login :
    ((downloadEvents [downloadLogIn]).foldl cliSystem.next (newSession 0 0)).Guarded :=
  content_guarded (run_of_events (by decide) .start)

theorem content_unguarded :
    cliSystem.Follows anyEvent (newSession 0 0) (downloadEvents []) ∧
      ¬ ((downloadEvents []).foldl cliSystem.next (newSession 0 0)).Guarded := by
  decide

end Runs

end MoCodes.MoCloud.Server
