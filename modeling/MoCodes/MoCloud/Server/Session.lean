import MoCodes.MoCloud.Server.Requests
import MoCodes.Lib.Transition

/-! One client of the server: the thread of its CliCtrl, its download threads and what CliMgr
does to it, in any order. Nothing that a socket, the clock, the database or the file system
answers is fixed. -/
namespace MoCodes.MoCloud.Server
open MoCodes.Lib.Transition

/-- What `getCtrlReq` and `getCtrlReqBody` meet: no request in time or none that can be decrypted,
a short read, or a request, whether its checksum fits, and its body if one can be read. -/
inductive Incoming where
  | nothing
  | closed
  | request (req : CtrlRequest) (crcOk : Bool) (body : Option Text)

/-- How `sendCtrlResp2Cli` fares: whether the header is sent, and how much of the body. -/
structure Sending where
  header : Bool
  taken : Nat

/-- One pass of the loop of `CliCtrl::run`; `keyAgree` is what `doKeyAgree` returns. -/
structure Pass where
  curTime : Int
  keyAgree : Int
  incoming : Incoming
  world : World
  sending : Sending

/-- `joined` is the return of the `join` in `doStopDwld`, `newConn` and `filelistChange` are what
`CliMgr::doNewConn` and `CliMgr::run` do. -/
inductive Event where
  | pass (pass : Pass)
  | joined (sending : Sending)
  | download (place : Nat) (answer : DataAnswer)
  | newConn (cliSockId : Int)
  | filelistChange (changeValue : Int)

/-- What a pass has done: the state before it and after it, and what `userLogin` returned if it
was called. -/
structure Done where
  before : CliState
  after : CliState
  userLogin : Option Int
  deriving DecidableEq

/-- `joining` is the request and the place in the list while `doStopDwld` waits in `join`. With
what was sent goes the state in which its request was processed; the latest pass comes first. -/
structure Session where
  ctrl : CliCtrl
  joining : Option (CtrlRequest × Nat)
  sent : List (CliState × Sent)
  done : List Done

def newCliCtrl (time mFilelistChangedValue : Int) : CliCtrl where
  mState := .idle
  mIsFilelistChanged := false
  mFilelistChangedValue := mFilelistChangedValue
  mDataSockId := invalidSockId
  mCliDataList := []
  mLastHeartbeatTime := time

def newSession (time mFilelistChangedValue : Int) : Session :=
  ⟨newCliCtrl time mFilelistChangedValue,none,[],[]⟩

namespace CliCtrl

variable (ctrl : CliCtrl)

/-- `getCtrlReq`, `getCtrlReqBody`: the request that is passed to `doRequest`, with its body. -/
def accepted : Incoming → Option (CtrlRequest × Option Text)
  | .request req crcOk body =>
    if CmdId.max.toWire ≤ req.cmdId ∨ req.mark ≠ markClient ∨ !crcOk then none
    else if req.bodyLen = 0 then some (req,none)
    else
      match body with
      | none => none
      | some received => if (received.length : Int) = req.bodyLen then some (req,some received) else none
  | _ => none

def sendCtrlResp2Cli (sending : Sending) (req : CtrlRequest) (resp : CtrlResponse)
    (pRespBody : Option (List BasicFileinfo)) : List Sent :=
  if req.isNeedResp = requestTypeNeedResponse ∧ sending.header then
    if resp.cmdId = CmdId.getFilelist.toWire then
      [.response resp,.filelist (pRespBody.getD []) (min sending.taken resp.bodyLen.toNat)]
    else [.response resp]
  else []

def late (curTime : Int) : Prop := 2*heartbeatInteval < (curTime-ctrl.mLastHeartbeatTime).natAbs

instance (curTime : Int) : Decidable (ctrl.late curTime) := Nat.decLt _ _

end CliCtrl

namespace Session

variable (session : Session)

def answer (asked : CliState) (req : CtrlRequest) (sending : Sending) : Handled → Session
  | .returned ctrl _ resp pRespBody =>
    { session with
      ctrl
      joining := none
      sent := session.sent ++ (CliCtrl.sendCtrlResp2Cli sending req resp pRespBody).map (Prod.mk asked) }
  | .joining ctrl place => {session with ctrl, joining := some (req,place)}

def doCtrlRequest (pass : Pass) : Option Session :=
  match CliCtrl.accepted pass.incoming with
  | some (req,pBody) =>
    (session.ctrl.doRequest pass.world req pBody).map
      (session.answer session.ctrl.mState req pass.sending)
  | none =>
    match pass.incoming with
    | .closed => some {session with ctrl := session.ctrl.setState .invalid}
    | _ => some session

def runBody (pass : Pass) : Option Session :=
  let ctrl := session.ctrl
  if ctrl.late pass.curTime then some {session with ctrl := ctrl.setState .invalid}
  else if ctrl.mState = .idle then
    some {session with ctrl := ctrl.setState (if pass.keyAgree < 0 then .invalid else .keyAgreed)}
  else session.doCtrlRequest pass

/-- The request that a pass gives to `doRequest`, if it does, and its body. -/
def processes (pass : Pass) : Option (CtrlRequest × Option Text) :=
  if session.ctrl.late pass.curTime ∨ session.ctrl.mState = .idle then none
  else CliCtrl.accepted pass.incoming

/-- The user name and the password that a pass calls `userLogin` with, if it does. -/
def asks (pass : Pass) : Option (Text × Text) :=
  (session.processes pass).bind fun (req,pBody) => session.ctrl.asksUserLogin req pBody

def userLogin (pass : Pass) : Option Int :=
  (session.asks pass).bind fun asked => pass.world.db.userLogin asked.1 asked.2 pass.world.time

def runPass (pass : Pass) : Option Session :=
  (session.runBody pass).map fun after =>
    {after with done := ⟨session.ctrl.mState,after.ctrl.mState,session.userLogin pass⟩ :: after.done}

def runDownload (place : Nat) (answer : DataAnswer) : Option Session :=
  match session.ctrl.mCliDataList[place]? with
  | none => none
  | some thread =>
    if thread.place = .ended then none
    else
      let (after,sent) := thread.run answer
      some
        { session with
          ctrl := {session.ctrl with mCliDataList := session.ctrl.mCliDataList.set place after}
          sent := session.sent ++ sent.map (Prod.mk thread.asked) }

def step : Event → Option Session
  | .pass pass =>
    if session.joining.isNone ∧ session.ctrl.mState ≠ .invalid then session.runPass pass else none
  | .joined sending =>
    match session.joining with
    | none => none
    | some (req,place) =>
      match session.ctrl.mCliDataList[place]? with
      | none => none
      | some thread =>
        if thread.place = .ended then
          some (session.answer session.ctrl.mState req sending (session.ctrl.joined req place))
        else none
  | .download place answer => session.runDownload place answer
  | .newConn cliSockId =>
    if 0 < session.ctrl.mDataSockId then some session
    else some {session with ctrl := {session.ctrl with mDataSockId := cliSockId}}
  | .filelistChange changeValue =>
    if session.ctrl.mState = .login then
      let value := if filetypeMax ≤ changeValue then session.ctrl.mFilelistChangedValue else changeValue
      some {session with ctrl :=
        {session.ctrl with mIsFilelistChanged := true, mFilelistChangedValue := value}}
    else some session

end Session

/-- The client and all that happens to it. An event that cannot happen, or ends the server,
has no next state. -/
def cliSystem : System Session Event where
  Enabled session event := (session.step event).isSome
  next session event := (session.step event).getD session

instance (session : Session) (event : Event) : Decidable (cliSystem.Enabled session event) :=
  inferInstanceAs (Decidable (Option.isSome _))

theorem step_next {session : Session} {event : Event} (enabled : cliSystem.Enabled session event) :
    session.step event = some (cliSystem.next session event) := by
  obtain ⟨after,ran⟩ := Option.isSome_iff_exists.mp enabled
  rw [ran]
  simp [cliSystem,ran]

namespace Session

variable {session after : Session} {pass : Pass}

@[simp] theorem answer_ctrl (asked : CliState) (req : CtrlRequest) (sending : Sending) (handled : Handled) :
    (session.answer asked req sending handled).ctrl = handled.ctrl := by
  cases handled <;> rfl

@[simp] theorem answer_done (asked : CliState) (req : CtrlRequest) (sending : Sending) (handled : Handled) :
    (session.answer asked req sending handled).done = session.done := by
  cases handled <;> rfl

/-- A pass processes a request, or at most leaves the client in a state other than LOGIN. -/
theorem runBody_cases (ran : session.runBody pass = some after) :
    (∃ req pBody handled, session.processes pass = some (req,pBody) ∧
      session.ctrl.doRequest pass.world req pBody = some handled ∧
      after = session.answer session.ctrl.mState req pass.sending handled) ∨
    (session.processes pass = none ∧ (after = session ∨
      ∃ state, state ≠ .login ∧ after = {session with ctrl := session.ctrl.setState state})) := by
  rw [runBody] at ran
  split_ifs at ran with late idle refused
  · exact Or.inr ⟨by simp [processes,late],Or.inr ⟨_,by decide,(Option.some.inj ran).symm⟩⟩
  · exact Or.inr ⟨by simp [processes,idle],Or.inr ⟨_,by decide,(Option.some.inj ran).symm⟩⟩
  · exact Or.inr ⟨by simp [processes,idle],Or.inr ⟨_,by decide,(Option.some.inj ran).symm⟩⟩
  · have taken : session.processes pass = CliCtrl.accepted pass.incoming := by simp [processes,late,idle]
    rw [taken]
    unfold doCtrlRequest at ran
    split at ran
    · rename_i req pBody got
      obtain ⟨handled,chosen,rfl⟩ := Option.map_eq_some_iff.mp ran
      exact Or.inl ⟨req,pBody,handled,got,chosen,rfl⟩
    · rename_i got
      refine Or.inr ⟨got,?_⟩
      split at ran
      · exact Or.inr ⟨_,by decide,(Option.some.inj ran).symm⟩
      · exact Or.inl (Option.some.inj ran).symm

theorem runBody_done (ran : session.runBody pass = some after) : after.done = session.done := by
  rcases runBody_cases ran with ⟨_,_,handled,_,_,rfl⟩ | ⟨_,rfl | ⟨state,_,rfl⟩⟩
  · exact answer_done _ _ _ _
  · rfl
  · rfl

theorem step_pass (ran : session.step (.pass pass) = some after) :
    ∃ before, session.runBody pass = some before ∧ after.ctrl = before.ctrl ∧ after.sent = before.sent ∧
      after.done = ⟨session.ctrl.mState,after.ctrl.mState,session.userLogin pass⟩ :: session.done := by
  simp only [step] at ran
  split_ifs at ran
  obtain ⟨before,body,rfl⟩ := Option.map_eq_some_iff.mp ran
  exact ⟨before,body,rfl,rfl,by rw [← runBody_done body]⟩

theorem step_joined {sending : Sending} (ran : session.step (.joined sending) = some after) :
    ∃ req place, after = session.answer session.ctrl.mState req sending (session.ctrl.joined req place) := by
  simp only [step] at ran
  split at ran
  · cases ran
  · rename_i req place _
    split at ran
    · cases ran
    · split_ifs at ran
      exact ⟨req,place,(Option.some.inj ran).symm⟩

theorem step_download {place : Nat} {answer : DataAnswer}
    (ran : session.step (.download place answer) = some after) :
    ∃ thread, session.ctrl.mCliDataList[place]? = some thread ∧ thread.place ≠ .ended ∧
      after =
        { session with
          ctrl := {session.ctrl with mCliDataList := session.ctrl.mCliDataList.set place (thread.run answer).1}
          sent := session.sent ++ (thread.run answer).2.map (Prod.mk thread.asked) } := by
  simp only [step,runDownload] at ran
  split at ran
  · cases ran
  · rename_i thread found
    split_ifs at ran with ended
    exact ⟨thread,found,ended,(Option.some.inj ran).symm⟩

theorem step_newConn {cliSockId : Int} (ran : session.step (.newConn cliSockId) = some after) :
    ∃ mDataSockId, after = {session with ctrl := {session.ctrl with mDataSockId}} := by
  simp only [step] at ran
  split_ifs at ran
  · exact ⟨session.ctrl.mDataSockId,(Option.some.inj ran).symm⟩
  · exact ⟨cliSockId,(Option.some.inj ran).symm⟩

theorem step_filelistChange {changeValue : Int} (ran : session.step (.filelistChange changeValue) = some after) :
    ∃ mIsFilelistChanged mFilelistChangedValue,
      after = {session with ctrl := {session.ctrl with mIsFilelistChanged, mFilelistChangedValue}} := by
  simp only [step] at ran
  split_ifs at ran
  · exact ⟨true,_,(Option.some.inj ran).symm⟩
  · exact ⟨true,_,(Option.some.inj ran).symm⟩
  · exact ⟨session.ctrl.mIsFilelistChanged,_,(Option.some.inj ran).symm⟩

end Session

/-- Nothing fails, and there are no files. -/
def emptyWorld (db : DbCtrl) : World where
  time := 0
  db := db
  insertUserinfo := 0
  modifyUserinfo := 0
  getFilelist := fun _ => some []
  malloc := true
  mDirpath := text "/files"
  openSys := fun _ => -1
  newCliData := true
  pthreadCreate := true

def requestPass (world : World) (cmdId : CmdId) (body : Text) : Pass where
  curTime := 0
  keyAgree := 0
  incoming := .request ⟨markClient,requestTypeNeedResponse,cmdId.toWire,0,body.length⟩ true (some body)
  world := world
  sending := ⟨true,body.length⟩

end MoCodes.MoCloud.Server
