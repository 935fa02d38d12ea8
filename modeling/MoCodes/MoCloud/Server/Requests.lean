import MoCodes.MoCloud.Server.CliCtrl

/-! What a request can do to a CliCtrl: to its state, to its list of downloads, and what body it
can have sent. -/
namespace MoCodes.MoCloud.Server

def Handled.ctrl : Handled → CliCtrl
  | .returned ctrl _ _ _ => ctrl
  | .joining ctrl _ => ctrl

/-- No body follows the header of the response. -/
def Handled.Bodiless : Handled → Prop
  | .returned _ _ resp _ => resp.bodyLen = 0
  | .joining _ _ => True

theorem genRespNeeded_bodyLen (req : CtrlRequest) (ret : Int) (cmdId : CmdId) :
    (genRespNeeded req ret cmdId).bodyLen = 0 := by
  rw [genRespNeeded]
  split <;> rfl

namespace CliCtrl

variable {ctrl : CliCtrl} {world : World} {req : CtrlRequest} {pBody : Option Text} {handled : Handled}

/-- The commands that `doRequest` has a handler for. -/
def supported : List CmdId :=
  [.heartbeat,.signUp,.logIn,.logOut,.byebye,.getFilelist,.dwldStart,.dwldStop]

theorem doRequest_cases {P : Handled → Prop} (ran : ctrl.doRequest world req pBody = some handled)
    (heartbeat : req.cmdId = CmdId.heartbeat.toWire → P (ctrl.doHeartBeat world req))
    (signUp : req.cmdId = CmdId.signUp.toWire →
      ∀ result, ctrl.doSignUp world req pBody = some result → P result)
    (logIn : req.cmdId = CmdId.logIn.toWire →
      ∀ result, ctrl.doLogIn world req pBody = some result → P result)
    (logOut : req.cmdId = CmdId.logOut.toWire → P (ctrl.doLogOut req))
    (byebye : req.cmdId = CmdId.byebye.toWire → P (ctrl.doByebye req))
    (getFilelist : req.cmdId = CmdId.getFilelist.toWire →
      ∀ result, ctrl.doGetFilelist world req = some result → P result)
    (startDwld : req.cmdId = CmdId.dwldStart.toWire →
      ∀ result, ctrl.doStartDwld world req pBody = some result → P result)
    (stopDwld : req.cmdId = CmdId.dwldStop.toWire →
      ∀ result, ctrl.doStopDwld req pBody = some result → P result)
    (other : (∀ cmdId ∈ supported, req.cmdId ≠ cmdId.toWire) → P (.returned ctrl (-2) {} none)) :
    P handled := by
  rw [doRequest] at ran
  split_ifs at ran with first second third fourth fifth sixth seventh eighth
  · exact Option.some.inj ran ▸ heartbeat first
  · exact signUp second _ ran
  · exact logIn third _ ran
  · exact Option.some.inj ran ▸ logOut fourth
  · exact Option.some.inj ran ▸ byebye fifth
  · exact getFilelist sixth _ ran
  · exact startDwld seventh _ ran
  · exact stopDwld eighth _ ran
  · exact Option.some.inj ran ▸ other (by simp [supported,first,second,third,fourth,fifth,sixth,seventh,eighth])

section State

theorem doHeartBeat_ctrl :
    (ctrl.doHeartBeat world req).ctrl = {ctrl with mLastHeartbeatTime := world.time} := by
  simp only [doHeartBeat]
  split <;> rfl

theorem doSignUp_ctrl (ran : ctrl.doSignUp world req pBody = some handled) : handled.ctrl = ctrl := by
  obtain ⟨read,_,rfl⟩ := Option.map_eq_some_iff.mp ran
  cases read with
  | error _ => rfl
  | ok _ =>
    dsimp only
    split_ifs <;> rfl

theorem doLogIn_ctrl (ran : ctrl.doLogIn world req pBody = some handled) :
    (handled.ctrl = ctrl ∧ (ctrl.mState = .keyAgreed → ∃ code, getUserPasswd pBody = some (.error code))) ∨
    ∃ username passwd ret, ctrl.mState = .keyAgreed ∧
      getUserPasswd pBody = some (.ok (username,passwd)) ∧
      world.db.userLogin username passwd world.time = some ret ∧
      handled.ctrl = if ret < 0 then ctrl else ctrl.setState .login := by
  rw [doLogIn] at ran
  split_ifs at ran with logged agreed
  · obtain rfl := Option.some.inj ran
    exact Or.inl ⟨rfl,fun same => by simp [logged] at same⟩
  · obtain rfl := Option.some.inj ran
    exact Or.inl ⟨rfl,fun same => absurd same agreed⟩
  · obtain ⟨read,parsed,ran⟩ := Option.bind_eq_some_iff.mp ran
    cases read with
    | error code =>
      obtain rfl := Option.some.inj ran
      exact Or.inl ⟨rfl,fun _ => ⟨code,parsed⟩⟩
    | ok asked =>
      obtain ⟨ret,answered,rfl⟩ := Option.map_eq_some_iff.mp ran
      refine Or.inr ⟨asked.1,asked.2,ret,not_not.mp agreed,parsed,answered,?_⟩
      split <;> rfl

theorem doLogOut_ctrl :
    (ctrl.doLogOut req).ctrl = if ctrl.mState = .login then ctrl.setState .keyAgreed else ctrl := by
  by_cases login : ctrl.mState = .login <;> simp [doLogOut,login,Handled.ctrl]

theorem doByebye_ctrl :
    (ctrl.doByebye req).ctrl = if ctrl.mState = .login then ctrl.setState .invalid else ctrl := rfl

theorem doGetFilelist_ctrl (ran : ctrl.doGetFilelist world req = some handled) : handled.ctrl = ctrl := by
  rw [doGetFilelist] at ran
  split_ifs at ran
  · exact Option.some.inj ran ▸ rfl
  · exact Option.some.inj ran ▸ rfl
  · split at ran
    · exact Option.some.inj ran ▸ rfl
    · dsimp only at ran
      split_ifs at ran <;> exact Option.some.inj ran ▸ rfl
  · exact Option.some.inj ran ▸ rfl

/-- The checks of `doStartDwld` that lead to a download thread with a socket. -/
def StartsDwld (ctrl : CliCtrl) (world : World) (pBody : Option Text) : Prop :=
  ctrl.mCliDataList.length < dwldTaskMaxNum ∧
  ∃ read ∈ getDwldReqInfo pBody, ∃ info ∈ read.toOption,
    (ctrl.mCliDataList.any fun thread => thread.isOf info.key) = false ∧
    (∃ file ∈ openFile world.db world.mDirpath world.openSys info.key, file.isOk = true) ∧
    world.newCliData = true ∧ world.pthreadCreate = true ∧ 0 ≤ ctrl.mDataSockId

instance (ctrl : CliCtrl) (world : World) (pBody : Option Text) : Decidable (ctrl.StartsDwld world pBody) :=
  inferInstanceAs (Decidable (_ ∧ ∃ read ∈ getDwldReqInfo pBody, ∃ info ∈ read.toOption, _ ∧
    (∃ file ∈ openFile world.db world.mDirpath world.openSys info.key, file.isOk = true) ∧ _ ∧ _ ∧ _))

theorem doStartDwld_ctrl (ran : ctrl.doStartDwld world req pBody = some handled) :
    handled.ctrl = ctrl ∨ ∃ thread, handled.ctrl = {ctrl with mCliDataList := ctrl.mCliDataList ++ [thread]} ∧
      thread.asked = ctrl.mState ∧
      (thread.mSockId < 0 ∨ thread.place = .ended ∨ ctrl.StartsDwld world pBody) := by
  cases pBody with
  | none => exact Or.inl (Option.some.inj ran ▸ rfl)
  | some pBody =>
    rw [doStartDwld] at ran
    rcases ite_eq_iff.mp ran with ⟨_,full⟩ | ⟨room,ran⟩
    · exact Or.inl (Option.some.inj full ▸ rfl)
    obtain ⟨read,parsed,ran⟩ := Option.bind_eq_some_iff.mp ran
    cases read with
    | error _ => exact Or.inl (Option.some.inj ran ▸ rfl)
    | ok info =>
      rcases ite_eq_iff.mp ran with ⟨_,running⟩ | ⟨fresh,ran⟩
      · exact Or.inl (Option.some.inj running ▸ rfl)
      obtain ⟨file,opened,ran⟩ := Option.map_eq_some_iff.mp ran
      cases file with
      | error _ => exact Or.inl (ran ▸ rfl)
      | ok fd =>
        dsimp only at ran
        split at ran
        · exact Or.inl (ran ▸ rfl)
        · rename_i made
          refine Or.inr ⟨newCliData ctrl.mDataSockId info fd world.pthreadCreate ctrl.mState,ran ▸ rfl,rfl,?_⟩
          rcases lt_or_ge ctrl.mDataSockId 0 with absent | connected
          · exact Or.inl absent
          refine Or.inr ?_
          cases created : world.pthreadCreate with
          | false => exact Or.inl rfl
          | true =>
            exact Or.inr ⟨not_le.mp room,_,parsed,info,rfl,by simpa using fresh,⟨_,opened,rfl⟩,
              by simpa using made,created,connected⟩

theorem openFile_fd {db : DbCtrl} {mDirpath : Text} {openSys : Text → Int} {key : FileinfoKey} {fd : Int}
    (opened : openFile db mDirpath openSys key = some (.ok fd)) : 0 ≤ fd := by
  obtain ⟨isFileExist,_,opened⟩ := Option.map_eq_some_iff.mp opened
  split at opened
  · cases opened
  · split at opened
    · cases opened
    · split_ifs at opened with failed
      cases opened
      exact not_lt.mp failed

theorem doStartDwld_starts (req : CtrlRequest) (starts : ctrl.StartsDwld world pBody) :
    ∃ info fd, 0 ≤ fd ∧ 0 ≤ ctrl.mDataSockId ∧ ctrl.doStartDwld world req pBody =
      some (.returned
        {ctrl with mCliDataList := ctrl.mCliDataList ++ [newCliData ctrl.mDataSockId info fd true ctrl.mState]}
        0 (genResp 0 req.cmdId) none) := by
  obtain ⟨room,read,parsed,info,kept,fresh,⟨file,opened,fine⟩,made,created,connected⟩ := starts
  cases read with
  | error _ => cases kept
  | ok found =>
    obtain rfl : found = info := Option.some.inj kept
    cases file with
    | error _ => cases fine
    | ok fd =>
      refine ⟨found,fd,openFile_fd opened,connected,?_⟩
      cases pBody with
      | none => cases parsed
      | some pBody =>
        have parsed : getDwldReqInfo (some pBody) = some (.ok found) := parsed
        have opened : openFile world.db world.mDirpath world.openSys found.key = some (.ok fd) := opened
        simpa [doStartDwld,not_le.mpr room,parsed,opened,made,created] using fresh

theorem doStopDwld_ctrl (ran : ctrl.doStopDwld req pBody = some handled) :
    handled.ctrl = ctrl ∨ ∃ place, handled.ctrl =
      {ctrl with mCliDataList := ctrl.mCliDataList.modify place CliData.closeStop} := by
  cases pBody with
  | none => exact Or.inl (Option.some.inj ran ▸ rfl)
  | some pBody =>
    obtain ⟨read,_,ran⟩ := Option.map_eq_some_iff.mp ran
    cases read with
    | error _ => exact Or.inl (ran ▸ rfl)
    | ok info =>
      dsimp only at ran
      split at ran
      · exact Or.inl (ran ▸ rfl)
      · rename_i place _
        exact Or.inr ⟨place,ran ▸ rfl⟩

/-- The user name and the password that the request has `userLogin` called with. -/
def asksUserLogin (ctrl : CliCtrl) (req : CtrlRequest) (pBody : Option Text) : Option (Text × Text) :=
  if req.cmdId = CmdId.logIn.toWire ∧ ctrl.mState = .keyAgreed then
    match getUserPasswd pBody with
    | some (.ok asked) => some asked
    | _ => none
  else none

theorem asksUserLogin_iff {asked : Text × Text} :
    ctrl.asksUserLogin req pBody = some asked ↔ req.cmdId = CmdId.logIn.toWire ∧ ctrl.mState = .keyAgreed ∧
      getUserPasswd pBody = some (.ok asked) := by
  rw [asksUserLogin]
  split_ifs with asking
  · obtain ⟨command,agreed⟩ := asking
    split
    · rename_i read
      simp [command,agreed,read]
    · rename_i unread
      simp only [reduceCtorEq,command,agreed,true_and,false_iff]
      exact fun read => unread _ read
  · simp only [false_iff]
    exact fun ⟨command,agreed,_⟩ => asking ⟨command,agreed⟩

/-- `doLogIn` logs the client in unless `userLogin` returns a negative value. -/
theorem doRequest_asking {username passwd : Text} (ran : ctrl.doRequest world req pBody = some handled)
    (asks : ctrl.asksUserLogin req pBody = some (username,passwd)) :
    ∃ ret, world.db.userLogin username passwd world.time = some ret ∧
      handled.ctrl.mState = if ret < 0 then .keyAgreed else .login := by
  obtain ⟨command,agreed,parsed⟩ := asksUserLogin_iff.mp asks
  have chosen : ctrl.doLogIn world req pBody = some handled := by
    simpa [doRequest,command,CmdId.toWire] using ran
  rcases doLogIn_ctrl chosen with ⟨_,unread⟩ | ⟨name,word,ret,_,read,answered,after⟩
  · obtain ⟨code,failed⟩ := unread agreed
    simp [parsed] at failed
  · obtain ⟨rfl,rfl⟩ : username = name ∧ passwd = word := by simpa [parsed] using read
    refine ⟨ret,answered,?_⟩
    rw [after]
    split_ifs
    · exact agreed
    · rfl

/-- What a request can do to a CliCtrl. -/
inductive Effect (ctrl : CliCtrl) (world : World) (req : CtrlRequest) (pBody : Option Text) : CliCtrl → Prop
  | kept (time : Int) : Effect ctrl world req pBody { ctrl with mLastHeartbeatTime := time }
  | logIn (username passwd : Text) (asks : ctrl.asksUserLogin req pBody = some (username,passwd)) :
      Effect ctrl world req pBody (ctrl.setState .login)
  | logOut (login : ctrl.mState = .login) : Effect ctrl world req pBody (ctrl.setState .keyAgreed)
  | byebye (command : req.cmdId = CmdId.byebye.toWire) (login : ctrl.mState = .login) :
      Effect ctrl world req pBody (ctrl.setState .invalid)
  | started (thread : CliData) (asked : thread.asked = ctrl.mState)
      (why : thread.mSockId < 0 ∨ thread.place = .ended ∨
        req.cmdId = CmdId.dwldStart.toWire ∧ ctrl.StartsDwld world pBody) :
      Effect ctrl world req pBody { ctrl with mCliDataList := ctrl.mCliDataList ++ [thread] }
  | stopped (place : Nat) :
      Effect ctrl world req pBody
        { ctrl with mCliDataList := ctrl.mCliDataList.modify place CliData.closeStop }

theorem Effect.same (req : CtrlRequest) (same : handled.ctrl = ctrl) :
    Effect ctrl world req pBody handled.ctrl := by
  rw [same]
  exact .kept ctrl.mLastHeartbeatTime

theorem doRequest_effect (ran : ctrl.doRequest world req pBody = some handled) :
    Effect ctrl world req pBody handled.ctrl := by
  refine doRequest_cases (P := fun handled => Effect ctrl world req pBody handled.ctrl) ran
    ?_ ?_ ?_ ?_ ?_ ?_ ?_ ?_ ?_
  · intro _
    rw [doHeartBeat_ctrl]
    exact .kept _
  · intro _ result ran
    exact .same req (doSignUp_ctrl ran)
  · intro command result ran
    rcases doLogIn_ctrl ran with ⟨same,_⟩ | ⟨username,passwd,ret,agreed,read,_,after⟩
    · exact .same req same
    · split_ifs at after
      · exact .same req after
      · rw [after]
        exact .logIn username passwd (asksUserLogin_iff.mpr ⟨command,agreed,read⟩)
  · intro _
    rw [doLogOut_ctrl]
    split_ifs with login
    · exact .logOut login
    · exact .kept _
  · intro command
    rw [doByebye_ctrl]
    split_ifs with login
    · exact .byebye command login
    · exact .kept _
  · intro _ result ran
    exact .same req (doGetFilelist_ctrl ran)
  · intro command result ran
    rcases doStartDwld_ctrl ran with same | ⟨thread,same,asked,why⟩
    · exact .same req same
    · rw [same]
      exact .started thread asked (why.imp_right (Or.imp_right (And.intro command)))
  · intro _ result ran
    rcases doStopDwld_ctrl ran with same | ⟨place,same⟩
    · exact .same req same
    · rw [same]
      exact .stopped place
  · exact fun _ => .kept _

theorem doRequest_unasking (ran : ctrl.doRequest world req pBody = some handled)
    (silent : ctrl.asksUserLogin req pBody = none) (login : handled.ctrl.mState = .login) :
    ctrl.mState = .login := by
  have effect := doRequest_effect ran
  generalize handled.ctrl = after at login effect
  cases effect with
  | kept => exact login
  | logIn username passwd asks => simp [silent] at asks
  | logOut => cases login
  | byebye => cases login
  | started => exact login
  | stopped => exact login

/-- A property of all the threads of the list stays with them, if it survives a stop and the
thread of a download that is started has it. -/
theorem doRequest_threads {Q : CliData → Prop} (ran : ctrl.doRequest world req pBody = some handled)
    (stopped : ∀ thread, Q thread → Q thread.closeStop)
    (started : ∀ thread, thread.asked = ctrl.mState →
      (thread.mSockId < 0 ∨ thread.place = .ended ∨
        req.cmdId = CmdId.dwldStart.toWire ∧ ctrl.StartsDwld world pBody) → Q thread)
    (all : ∀ thread ∈ ctrl.mCliDataList, Q thread) : ∀ thread ∈ handled.ctrl.mCliDataList, Q thread := by
  have effect := doRequest_effect ran
  generalize handled.ctrl = after at effect
  cases effect with
  | kept => exact all
  | logIn => exact all
  | logOut => exact all
  | byebye => exact all
  | started thread asked why =>
    exact List.forall_mem_append.mpr ⟨all,List.forall_mem_singleton.mpr (started thread asked why)⟩
  | stopped place =>
    intro thread member
    obtain ⟨i,found⟩ := List.mem_iff_getElem?.mp member
    rw [List.getElem?_modify] at found
    obtain ⟨old,there,rfl⟩ := Option.map_eq_some_iff.mp found
    have had := all old (List.mem_of_getElem? there)
    split_ifs
    · exact stopped old had
    · exact had

/-- Only BYEBYE of a client that is logged in makes it invalid, and leaves the rest as it is. -/
theorem doRequest_invalid (ran : ctrl.doRequest world req pBody = some handled)
    (valid : ctrl.mState ≠ .invalid) (invalid : handled.ctrl.mState = .invalid) :
    req.cmdId = CmdId.byebye.toWire ∧ ctrl.mState = .login ∧ handled.ctrl = ctrl.setState .invalid := by
  have effect := doRequest_effect ran
  generalize handled.ctrl = after at invalid effect
  cases effect with
  | kept => exact absurd invalid valid
  | logIn => cases invalid
  | logOut => cases invalid
  | byebye command login => exact ⟨command,login,rfl⟩
  | started => exact absurd invalid valid
  | stopped => exact absurd invalid valid

end State

section Body

theorem doHeartBeat_bodiless : (ctrl.doHeartBeat world req).Bodiless := by
  simp only [doHeartBeat]
  split_ifs <;> rfl

theorem doSignUp_bodiless (ran : ctrl.doSignUp world req pBody = some handled) : handled.Bodiless := by
  obtain ⟨read,_,rfl⟩ := Option.map_eq_some_iff.mp ran
  cases read with
  | error _ => exact genRespNeeded_bodyLen _ _ _
  | ok _ =>
    dsimp only
    split_ifs
    · exact genRespNeeded_bodyLen _ _ _
    · exact genRespNeeded_bodyLen _ _ _
    · rfl

theorem doLogIn_bodiless (ran : ctrl.doLogIn world req pBody = some handled) : handled.Bodiless := by
  rw [doLogIn] at ran
  split_ifs at ran
  · exact Option.some.inj ran ▸ genRespNeeded_bodyLen _ _ _
  · exact Option.some.inj ran ▸ genRespNeeded_bodyLen _ _ _
  · obtain ⟨read,_,ran⟩ := Option.bind_eq_some_iff.mp ran
    cases read with
    | error _ => exact Option.some.inj ran ▸ genRespNeeded_bodyLen _ _ _
    | ok _ =>
      obtain ⟨ret,_,rfl⟩ := Option.map_eq_some_iff.mp ran
      split_ifs <;> exact genRespNeeded_bodyLen _ _ _

theorem doLogOut_bodiless : (ctrl.doLogOut req).Bodiless := by
  rw [doLogOut]
  split_ifs <;> exact genRespNeeded_bodyLen _ _ _

theorem doByebye_bodiless : (ctrl.doByebye req).Bodiless := genRespNeeded_bodyLen _ _ _

theorem doGetFilelist_bodiless (outside : ctrl.mState ≠ .login)
    (ran : ctrl.doGetFilelist world req = some handled) : handled.Bodiless := by
  rw [doGetFilelist,if_pos outside] at ran
  exact Option.some.inj ran ▸ genRespNeeded_bodyLen _ _ _

theorem doStartDwld_bodiless (ran : ctrl.doStartDwld world req pBody = some handled) : handled.Bodiless := by
  cases pBody with
  | none => exact Option.some.inj ran ▸ rfl
  | some pBody =>
    rw [doStartDwld] at ran
    rcases ite_eq_iff.mp ran with ⟨_,full⟩ | ⟨_,ran⟩
    · exact Option.some.inj full ▸ rfl
    obtain ⟨read,_,ran⟩ := Option.bind_eq_some_iff.mp ran
    cases read with
    | error _ => exact Option.some.inj ran ▸ rfl
    | ok info =>
      rcases ite_eq_iff.mp ran with ⟨_,running⟩ | ⟨_,ran⟩
      · exact Option.some.inj running ▸ rfl
      obtain ⟨file,_,ran⟩ := Option.map_eq_some_iff.mp ran
      cases file with
      | error _ => exact ran ▸ rfl
      | ok fd =>
        dsimp only at ran
        split at ran <;> exact ran ▸ rfl

theorem doStopDwld_bodiless (ran : ctrl.doStopDwld req pBody = some handled) : handled.Bodiless := by
  cases pBody with
  | none => exact Option.some.inj ran ▸ rfl
  | some pBody =>
    obtain ⟨read,_,ran⟩ := Option.map_eq_some_iff.mp ran
    cases read with
    | error _ => exact ran ▸ rfl
    | ok info =>
      dsimp only at ran
      split at ran
      · exact ran ▸ rfl
      · exact ran ▸ trivial

/-- Only `doGetFilelist` gives a response a body, and only to a client that is logged in. -/
theorem doRequest_bodiless (outside : ctrl.mState ≠ .login)
    (ran : ctrl.doRequest world req pBody = some handled) : handled.Bodiless :=
  doRequest_cases ran (fun _ => doHeartBeat_bodiless) (fun _ _ => doSignUp_bodiless)
    (fun _ _ => doLogIn_bodiless) (fun _ => doLogOut_bodiless) (fun _ => doByebye_bodiless)
    (fun _ _ => doGetFilelist_bodiless outside) (fun _ _ => doStartDwld_bodiless)
    (fun _ _ => doStopDwld_bodiless) (fun _ => rfl)

end Body

end CliCtrl

end MoCodes.MoCloud.Server
