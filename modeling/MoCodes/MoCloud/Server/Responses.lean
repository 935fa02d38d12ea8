import MoCodes.MoCloud.PrintInt
import MoCodes.MoCloud.Server.LogIn

/-! What the server sends for a request that needs a response, cliCtrl.cpp: the response that a
handler has filled in, and the body that goes with it. -/
namespace MoCodes.MoCloud.Server
open SendFile

/-- The socket takes all there is to send. -/
def wholeSending : Sending := ⟨true,2^31⟩

/-- Once the handler is back; `doStopDwld` has its `join` come back. -/
def Handled.sends (req : CtrlRequest) : Handled → List Sent
  | .returned _ _ resp pRespBody => CliCtrl.sendCtrlResp2Cli wholeSending req resp pRespBody
  | .joining ctrl place =>
    match ctrl.joined req place with
    | .returned _ _ resp pRespBody => CliCtrl.sendCtrlResp2Cli wholeSending req resp pRespBody
    | .joining .. => []

/-- What `doCtrlRequest` sends. -/
def CliCtrl.responses (ctrl : CliCtrl) (world : World) (incoming : Incoming) : Option (List Sent) :=
  (CliCtrl.accepted incoming).bind fun (req,pBody) => (ctrl.doRequest world req pBody).map (Handled.sends req)

/-- One header with the mark of the server and the command of the request, and the bytes it tells. -/
def Answers (req : CtrlRequest) (sent : List Sent) : Prop :=
  ∃ resp body, sent = .response resp :: body ∧ resp.mark = markServer ∧ resp.cmdId = req.cmdId ∧
    (body = [] ∧ resp.bodyLen = 0 ∨
      ∃ infos : List BasicFileinfo, body = [.filelist infos resp.bodyLen.toNat] ∧
        resp.bodyLen = (infos.length*basicFileinfoSize : Nat))

/-- A response is filled in, with a body for the file list only. -/
def Handled.Filled (req : CtrlRequest) : Handled → Prop
  | .returned _ _ resp pRespBody => resp.mark = markServer ∧ resp.cmdId = req.cmdId ∧
    resp.bodyLen = ((pRespBody.getD []).length*basicFileinfoSize : Nat) ∧ resp.bodyLen < 2^31 ∧
      (req.cmdId ≠ CmdId.getFilelist.toWire → resp.bodyLen = 0)
  | .joining .. => req.cmdId = CmdId.dwldStop.toWire

section Fill

variable {ctrl : CliCtrl} {world : World} {req : CtrlRequest} {pBody : Option Text} {handled : Handled}

theorem zero_small : (0 : Int) < 2^31 := by decide

theorem genResp_filled (ret code : Int) : (Handled.returned ctrl code (genResp ret req.cmdId) none).Filled req :=
  ⟨rfl,rfl,rfl,zero_small,fun _ => rfl⟩

theorem genRespNeeded_filled {cmdId : CmdId} (needs : req.isNeedResp = requestTypeNeedResponse)
    (command : req.cmdId = cmdId.toWire) (ret code : Int) :
    (Handled.returned ctrl code (genRespNeeded req ret cmdId) none).Filled req := by
  have needed : req.isNeedResp ≠ 0 := by
    rw [needs]
    decide
  rw [genRespNeeded,if_pos needed,← command]
  exact genResp_filled ret code

namespace CliCtrl

variable (needs : req.isNeedResp = requestTypeNeedResponse)
include needs

theorem doHeartBeat_filled (command : req.cmdId = CmdId.heartbeat.toWire) :
    (ctrl.doHeartBeat world req).Filled req := by
  simp only [doHeartBeat,if_pos needs]
  split <;> exact ⟨rfl,command.symm,rfl,zero_small,fun _ => rfl⟩

theorem doSignUp_filled (command : req.cmdId = CmdId.signUp.toWire)
    (ran : ctrl.doSignUp world req pBody = some handled) : handled.Filled req := by
  obtain ⟨read,_,rfl⟩ := Option.map_eq_some_iff.mp ran
  cases read with
  | error _ => exact genRespNeeded_filled needs command _ _
  | ok _ =>
    dsimp only
    split_ifs
    · exact genRespNeeded_filled needs command _ _
    · exact genRespNeeded_filled needs command _ _
    · rw [← command]
      exact genResp_filled _ _

theorem doLogIn_filled (command : req.cmdId = CmdId.logIn.toWire)
    (ran : ctrl.doLogIn world req pBody = some handled) : handled.Filled req := by
  rw [doLogIn] at ran
  split_ifs at ran
  · exact Option.some.inj ran ▸ genRespNeeded_filled needs command _ _
  · exact Option.some.inj ran ▸ genRespNeeded_filled needs command _ _
  · obtain ⟨read,_,ran⟩ := Option.bind_eq_some_iff.mp ran
    cases read with
    | error _ => exact Option.some.inj ran ▸ genRespNeeded_filled needs command _ _
    | ok _ =>
      obtain ⟨ret,_,rfl⟩ := Option.map_eq_some_iff.mp ran
      split_ifs <;> exact genRespNeeded_filled needs command _ _

theorem doLogOut_filled (command : req.cmdId = CmdId.logOut.toWire) : (ctrl.doLogOut req).Filled req := by
  rw [doLogOut]
  split_ifs <;> exact genRespNeeded_filled needs command _ _

theorem doByebye_filled (command : req.cmdId = CmdId.byebye.toWire) : (ctrl.doByebye req).Filled req :=
  genRespNeeded_filled needs command _ _

theorem doGetFilelist_filled (command : req.cmdId = CmdId.getFilelist.toWire)
    (ran : ctrl.doGetFilelist world req = some handled) : handled.Filled req := by
  rw [doGetFilelist] at ran
  split_ifs at ran with _ _ needed
  · exact Option.some.inj ran ▸ genRespNeeded_filled needs command _ _
  · exact Option.some.inj ran ▸ genRespNeeded_filled needs command _ _
  · split at ran
    · exact Option.some.inj ran ▸ genRespNeeded_filled needs command _ _
    · rename_i filelist _
      dsimp only at ran
      split_ifs at ran with refused whole
      · exact Option.some.inj ran ▸ genRespNeeded_filled needs command _ _
      · obtain rfl := Option.some.inj ran
        refine ⟨rfl,command.symm,?_,?_,fun other => absurd command other⟩
        · dsimp only [Option.getD_some]
          exact not_not.mp whole
        · dsimp only
          exact (toInt_isInt _).2
  · exact absurd (needs.trans_ne (by decide)) needed

omit needs in
theorem doStartDwld_filled (ran : ctrl.doStartDwld world req pBody = some handled) : handled.Filled req := by
  cases pBody with
  | none => exact Option.some.inj ran ▸ genResp_filled _ _
  | some pBody =>
    rw [doStartDwld] at ran
    rcases ite_eq_iff.mp ran with ⟨_,full⟩ | ⟨_,ran⟩
    · exact Option.some.inj full ▸ genResp_filled _ _
    obtain ⟨read,_,ran⟩ := Option.bind_eq_some_iff.mp ran
    cases read with
    | error _ => exact Option.some.inj ran ▸ genResp_filled _ _
    | ok info =>
      rcases ite_eq_iff.mp ran with ⟨_,running⟩ | ⟨_,ran⟩
      · exact Option.some.inj running ▸ genResp_filled _ _
      obtain ⟨file,_,ran⟩ := Option.map_eq_some_iff.mp ran
      cases file with
      | error _ => exact ran ▸ genResp_filled _ _
      | ok fd =>
        dsimp only at ran
        split at ran <;> exact ran ▸ genResp_filled _ _

omit needs in
theorem doStopDwld_filled (command : req.cmdId = CmdId.dwldStop.toWire)
    (ran : ctrl.doStopDwld req pBody = some handled) : handled.Filled req := by
  cases pBody with
  | none => exact Option.some.inj ran ▸ genResp_filled _ _
  | some pBody =>
    obtain ⟨read,_,ran⟩ := Option.map_eq_some_iff.mp ran
    cases read with
    | error _ => exact ran ▸ genResp_filled _ _
    | ok info =>
      dsimp only at ran
      split at ran
      · exact ran ▸ genResp_filled _ _
      · exact ran ▸ command

/-- Only a command without a handler leaves the response as it was declared. -/
theorem doRequest_filled (ran : ctrl.doRequest world req pBody = some handled) :
    (∃ cmdId ∈ supported, req.cmdId = cmdId.toWire) ∧ handled.Filled req ∨
      (∀ cmdId ∈ supported, req.cmdId ≠ cmdId.toWire) ∧ handled = .returned ctrl (-2) {} none := by
  apply doRequest_cases ran (P := fun handled =>
    (∃ cmdId ∈ supported, req.cmdId = cmdId.toWire) ∧ handled.Filled req ∨
      (∀ cmdId ∈ supported, req.cmdId ≠ cmdId.toWire) ∧ handled = .returned ctrl (-2) {} none)
  · exact fun command => Or.inl ⟨⟨_,by decide,command⟩,doHeartBeat_filled needs command⟩
  · exact fun command _ ran => Or.inl ⟨⟨_,by decide,command⟩,doSignUp_filled needs command ran⟩
  · exact fun command _ ran => Or.inl ⟨⟨_,by decide,command⟩,doLogIn_filled needs command ran⟩
  · exact fun command => Or.inl ⟨⟨_,by decide,command⟩,doLogOut_filled needs command⟩
  · exact fun command => Or.inl ⟨⟨_,by decide,command⟩,doByebye_filled needs command⟩
  · exact fun command _ ran => Or.inl ⟨⟨_,by decide,command⟩,doGetFilelist_filled needs command ran⟩
  · exact fun command _ ran => Or.inl ⟨⟨_,by decide,command⟩,doStartDwld_filled ran⟩
  · exact fun command _ ran => Or.inl ⟨⟨_,by decide,command⟩,doStopDwld_filled command ran⟩
  · exact fun unknown => Or.inr ⟨unknown,rfl⟩

end CliCtrl

theorem filled_answers (needs : req.isNeedResp = requestTypeNeedResponse) (filled : handled.Filled req) :
    Answers req (handled.sends req) := by
  cases handled with
  | returned ctrl ret resp pRespBody =>
    obtain ⟨mark,command,whole,small,empty⟩ := filled
    by_cases list : resp.cmdId = CmdId.getFilelist.toWire
    · have most : resp.bodyLen ≤ 2147483648 := by omega
      refine ⟨resp,[.filelist (pRespBody.getD []) resp.bodyLen.toNat],?_,mark,command,Or.inr ⟨_,rfl,whole⟩⟩
      simp [Handled.sends,CliCtrl.sendCtrlResp2Cli,wholeSending,needs,list,most]
    · refine ⟨resp,[],?_,mark,command,Or.inl ⟨rfl,empty (command ▸ list)⟩⟩
      simp [Handled.sends,CliCtrl.sendCtrlResp2Cli,wholeSending,needs,list]
  | joining ctrl place =>
    have command : req.cmdId ≠ CmdId.getFilelist.toWire := filled.trans_ne (by decide)
    refine ⟨genResp 0 req.cmdId,[],?_,rfl,rfl,Or.inl ⟨rfl,rfl⟩⟩
    simp [Handled.sends,CliCtrl.joined,CliCtrl.sendCtrlResp2Cli,wholeSending,needs,genResp,command]

theorem declared_answers_not (ctrl : CliCtrl) (needs : req.isNeedResp = requestTypeNeedResponse) (ret : Int) :
    ¬ Answers req (Handled.sends req (.returned ctrl ret {} none)) := by
  rintro ⟨resp,body,same,mark,_⟩
  have sent : Handled.sends req (.returned ctrl ret {} none) = [.response {}] := by
    simp [Handled.sends,CliCtrl.sendCtrlResp2Cli,wholeSending,needs,CmdId.toWire]
  rw [sent] at same
  obtain rfl : {} = resp := by simpa using (List.cons.inj same).1
  exact absurd mark (by decide)

end Fill

namespace CliCtrl

section Returns

variable (ctrl : CliCtrl) (world : World) (req : CtrlRequest) (pBody : Option Text)

/-- The body of a login is read to its end, and the database layer meets no NULL column. -/
def LogInReturns : Prop :=
  ctrl.mState = .keyAgreed → ∃ read ∈ getUserPasswd pBody, ∀ asked ∈ read.toOption,
    (world.db.userLogin asked.1 asked.2 world.time).isSome

/-- The bytes of the file list fit into what was allocated for them, if it was. -/
def GetFilelistReturns : Prop :=
  ctrl.mState = .login → req.cInfo.toInt < filetypeMax → ∀ filelist ∈ world.getFilelist req.cInfo.toInt,
    filelistLength filelist < 0 ∨ world.malloc = false ∨
      filelistLength filelist = (filelist.length*basicFileinfoSize : Nat)

def StartDwldReturns : Prop :=
  pBody.isSome → ctrl.mCliDataList.length < dwldTaskMaxNum → ∃ read ∈ getDwldReqInfo pBody,
    ∀ info ∈ read.toOption, (ctrl.mCliDataList.any fun thread => thread.isOf info.key) = false →
      (world.db.isFileExist info.key).isSome

/-- The command has a handler, which comes to its end. -/
structure Answerable : Prop where
  handler : ∃ cmdId ∈ supported, req.cmdId = cmdId.toWire
  signUp : req.cmdId = CmdId.signUp.toWire → (getUserPasswd pBody).isSome
  logIn : req.cmdId = CmdId.logIn.toWire → ctrl.LogInReturns world pBody
  getFilelist : req.cmdId = CmdId.getFilelist.toWire → ctrl.GetFilelistReturns world req
  startDwld : req.cmdId = CmdId.dwldStart.toWire → ctrl.StartDwldReturns world pBody
  stopDwld : req.cmdId = CmdId.dwldStop.toWire → pBody.isSome → (getDwldReqInfo pBody).isSome

end Returns

variable {ctrl : CliCtrl} {world : World} {req : CtrlRequest} {pBody : Option Text}

theorem doLogIn_isSome : (ctrl.doLogIn world req pBody).isSome ↔ ctrl.LogInReturns world pBody := by
  rw [doLogIn,LogInReturns]
  split_ifs with logged agreed
  · simp [logged]
  · simp [agreed]
  · have keyAgreed : ctrl.mState = .keyAgreed := not_not.mp agreed
    cases read : getUserPasswd pBody with
    | none => simpa using agreed
    | some result =>
      cases result with
      | error _ => simp [Except.toOption]
      | ok asked =>
        obtain ⟨username,passwd⟩ := asked
        simp [Except.toOption,keyAgreed]

theorem doGetFilelist_isSome (needs : req.isNeedResp = requestTypeNeedResponse) :
    (ctrl.doGetFilelist world req).isSome ↔ ctrl.GetFilelistReturns world req := by
  have needed : req.isNeedResp ≠ 0 := by
    rw [needs]
    decide
  rw [doGetFilelist,GetFilelistReturns,if_pos needed]
  split_ifs with outside invalid
  · simp [outside]
  · simp [not_lt.mpr invalid]
  · cases found : world.getFilelist req.cInfo.toInt with
    | none => simp
    | some filelist =>
      simp only [not_not.mp outside,not_le.mp invalid,Option.mem_some_iff,forall_eq',forall_const]
      split_ifs with refused whole
      · simpa using refused.imp_right Or.inl
      · simp only [Option.isSome_none,Bool.false_eq_true,false_iff]
        simp only [not_or,Bool.not_eq_true'] at refused
        exact fun returns => returns.elim refused.1 (Or.rec (by simp [refused.2]) whole)
      · simp [not_not.mp whole]

theorem doSignUp_isSome : (ctrl.doSignUp world req pBody).isSome ↔ (getUserPasswd pBody).isSome := by
  rw [doSignUp,Option.isSome_map]

theorem doStartDwld_isSome : (ctrl.doStartDwld world req pBody).isSome ↔ ctrl.StartDwldReturns world pBody := by
  cases pBody with
  | none => simp [doStartDwld,StartDwldReturns]
  | some pBody =>
    rw [doStartDwld,StartDwldReturns]
    by_cases full : dwldTaskMaxNum ≤ ctrl.mCliDataList.length
    · simp [full]
    · have room : ctrl.mCliDataList.length < dwldTaskMaxNum := not_le.mp full
      rw [if_neg full]
      cases read : getDwldReqInfo (some pBody) with
      | none => simpa using room
      | some result =>
        cases result with
        | error _ => simp [Except.toOption]
        | ok info =>
          simp only [Option.bind_some,Except.toOption,Option.mem_some_iff,exists_eq_left',forall_eq']
          cases running : ctrl.mCliDataList.any fun thread => thread.isOf info.key with
          | true => simp
          | false => simp [room,openFile]

theorem doStopDwld_isSome :
    (ctrl.doStopDwld req pBody).isSome ↔ (pBody.isSome → (getDwldReqInfo pBody).isSome) := by
  cases pBody with
  | none => simp [doStopDwld]
  | some pBody =>
    rw [doStopDwld,Option.isSome_map]
    exact ⟨fun read _ => read,fun read => read rfl⟩

theorem doRequest_isSome (needs : req.isNeedResp = requestTypeNeedResponse) : ctrl.Answerable world req pBody ↔
    (∃ cmdId ∈ supported, req.cmdId = cmdId.toWire) ∧ (ctrl.doRequest world req pBody).isSome := by
  constructor
  · intro answerable
    refine ⟨answerable.handler,?_⟩
    rw [doRequest]
    split_ifs with _ second third _ _ sixth seventh eighth
    · rfl
    · exact doSignUp_isSome.mpr (answerable.signUp second)
    · exact doLogIn_isSome.mpr (answerable.logIn third)
    · rfl
    · rfl
    · exact (doGetFilelist_isSome needs).mpr (answerable.getFilelist sixth)
    · exact doStartDwld_isSome.mpr (answerable.startDwld seventh)
    · exact doStopDwld_isSome.mpr (answerable.stopDwld eighth)
    · rfl
  · rintro ⟨handler,returns⟩
    refine ⟨handler,fun command => ?_,fun command => ?_,fun command => ?_,fun command => ?_,fun command => ?_⟩
    all_goals rw [doRequest,command] at returns
    · exact doSignUp_isSome.mp returns
    · exact doLogIn_isSome.mp returns
    · exact (doGetFilelist_isSome needs).mp returns
    · exact doStartDwld_isSome.mp returns
    · exact doStopDwld_isSome.mp returns

def bodilessRequest (cmdId : CmdId) : CtrlRequest := ⟨markClient,requestTypeNeedResponse,cmdId.toWire,0,0⟩

def agreedCtrl : CliCtrl := (newCliCtrl 0 0).setState .keyAgreed

end CliCtrl

namespace Session

variable {session after : Session} {pass : Pass} {req : CtrlRequest} {pBody : Option Text} {handled : Handled}

/-- What a pass adds to the data sent, unless it is in the `join` of `doStopDwld`. -/
theorem doCtrlRequest_sent (taken : (CliCtrl.accepted pass.incoming).isSome) (whole : pass.sending = wholeSending)
    (ran : session.doCtrlRequest pass = some after) (apart : after.joining = none) :
    ∃ sent, session.ctrl.responses pass.world pass.incoming = some sent ∧
      after.sent = session.sent ++ sent.map (Prod.mk session.ctrl.mState) := by
  obtain ⟨⟨req,pBody⟩,taken⟩ := Option.isSome_iff_exists.mp taken
  rw [doCtrlRequest,taken] at ran
  obtain ⟨handled,handles,rfl⟩ := Option.map_eq_some_iff.mp ran
  refine ⟨handled.sends req,?_,?_⟩
  · rw [CliCtrl.responses,taken]
    exact congrArg (Option.map (Handled.sends req)) handles
  · cases handled with
    | returned ctrl ret resp pRespBody => rw [whole,answer,Handled.sends]
    | joining ctrl place => cases apart

/-- The response does not depend on what happens to the client during the `join`. -/
theorem answer_joined_sent (ctrl : CliCtrl) (place : Nat) (asked : CliState) :
    (session.answer asked req wholeSending (session.ctrl.joined req place)).sent =
      session.sent ++ ((Handled.joining ctrl place).sends req).map (Prod.mk asked) := rfl

end Session

end MoCodes.MoCloud.Server
