import MoCodes.MoCloud.Server.Session
import MoCodes.MoCloud.Server.LogIn
import MoCodes.Lib.Fairness
import Mathlib.Tactic.IntervalCases

/-! How cliMgr.cpp passes on what types of files have changed: `setChangedFiletype` of any number
of threads, `CliMgr::run`, and the clients, each with all that happens to it. An iterator is
followed by its position, also where a `push_back` would leave it behind. -/
namespace MoCodes.MoCloud.Server
open Lib.Transition Lib.Fairness

/-- Where `CliMgr::run` is. From `telling` on it holds the lock of the list of clients. -/
inductive MgrPlace where
  | waiting | woken
  | adding (v : List Int) (changeValue : Int) (it : Nat)
  | telling (changeValue : Int) (clients : List Nat)
  | setting (changeValue : Int) (client : Nat) (clients : List Nat)
  | flagging (changeValue : Int) (client : Nat) (clients : List Nat)
  deriving DecidableEq

/-- `cliCtrls` are all there have been, in the list of clients are the places of those that are
not deleted. `posting` counts the calls of `setChangedFiletype` that come to `sem_post`,
`signalled` is what they have been given. -/
structure CliMgr where
  mChangedTypeVector : List Int := []
  mSem : Nat := 0
  place : MgrPlace := .waiting
  cliCtrls : List Session := []
  mCliCtrlList : List Nat := []
  posting : Nat := 0
  signalled : List Int := []

/-- `connect` is `doNewConn` for an IP that is not in the list, `run` a step of the loop. -/
inductive MgrEvent where
  | setChangedFiletype (type : Int)
  | semPost
  | run
  | connect (time mFilelistChangedValue : Int)
  | client (client : Nat) (event : Event)

namespace CliCtrl

variable (ctrl : CliCtrl)

def setFilelistChangeValue (value : Int) : CliCtrl :=
  if filetypeMax ≤ value then ctrl else {ctrl with mFilelistChangedValue := value}

def setFilelistChangedFlag : CliCtrl := {ctrl with mIsFilelistChanged := true}

end CliCtrl

namespace CliMgr

variable (mgr : CliMgr)

def Locked : MgrPlace → Prop
  | .telling .. => True
  | .setting .. => True
  | .flagging .. => True
  | _ => False

instance : DecidablePred Locked
  | .waiting => isFalse id
  | .woken => isFalse id
  | .adding .. => isFalse id
  | .telling .. => isTrue trivial
  | .setting .. => isTrue trivial
  | .flagging .. => isTrue trivial

/-- What is done to one client. -/
def modify (client : Nat) (change : CliCtrl → CliCtrl) : CliMgr :=
  { mgr with
    cliCtrls := mgr.cliCtrls.modify client fun session => { session with ctrl := change session.ctrl } }

def state (client : Nat) : Option CliState := (mgr.cliCtrls[client]?).map fun session => session.ctrl.mState

def setChangedFiletype (type : Int) : CliMgr :=
  if filetypeMax ≤ type then mgr
  else
    { mgr with
      mChangedTypeVector :=
        if type ∈ mgr.mChangedTypeVector then mgr.mChangedTypeVector else mgr.mChangedTypeVector ++ [type]
      posting := mgr.posting+1
      signalled := mgr.signalled ++ [type] }

def run : CliMgr :=
  match mgr.place with
  | .waiting =>
    if mgr.mSem = 0 then
      { mgr with mCliCtrlList := mgr.mCliCtrlList.filter fun client => mgr.state client != some .invalid }
    else { mgr with mSem := mgr.mSem-1, place := .woken }
  | .woken => { mgr with mChangedTypeVector := [], place := .adding mgr.mChangedTypeVector 0 0 }
  | .adding v changeValue it =>
    -- the loop goes over the vector that has been cleared, not over `v`
    match mgr.mChangedTypeVector[it]? with
    | some type => { mgr with place := .adding v (toInt (changeValue+type)) (it+1) }
    | none => { mgr with place := .telling changeValue mgr.mCliCtrlList }
  | .telling _ [] => { mgr with place := .waiting }
  | .telling changeValue (client :: clients) =>
    if mgr.state client = some .login then { mgr with place := .setting changeValue client clients }
    else { mgr with place := .telling changeValue clients }
  | .setting changeValue client clients =>
    { mgr.modify client fun ctrl => ctrl.setFilelistChangeValue changeValue with
      place := .flagging changeValue client clients }
  | .flagging changeValue client clients =>
    { mgr.modify client CliCtrl.setFilelistChangedFlag with place := .telling changeValue clients }

/-- What the thread of a client does, or `doNewConn` for an IP in the list. -/
def Own (place : MgrPlace) : Event → Prop
  | .filelistChange _ => False
  | .newConn _ => ¬ Locked place
  | _ => True

instance (place : MgrPlace) : DecidablePred (Own place)
  | .pass _ => isTrue trivial
  | .joined _ => isTrue trivial
  | .download .. => isTrue trivial
  | .newConn _ => inferInstanceAs (Decidable (¬ _))
  | .filelistChange _ => isFalse id

def step : MgrEvent → Option CliMgr
  | .setChangedFiletype type => some (mgr.setChangedFiletype type)
  | .semPost =>
    if mgr.posting = 0 then none else some { mgr with posting := mgr.posting-1, mSem := mgr.mSem+1 }
  | .run => some mgr.run
  | .connect time mFilelistChangedValue =>
    if Locked mgr.place then none
    else
      some
        { mgr with
          cliCtrls := mgr.cliCtrls ++ [newSession time mFilelistChangedValue]
          mCliCtrlList := mgr.mCliCtrlList ++ [mgr.cliCtrls.length] }
  | .client client event =>
    if client ∈ mgr.mCliCtrlList ∧ Own mgr.place event then
      ((mgr.cliCtrls[client]?).bind fun session => session.step event).map fun after =>
        { mgr with cliCtrls := mgr.cliCtrls.set client after }
    else none

end CliMgr

def cliMgrSystem : System CliMgr MgrEvent where
  Enabled mgr event := (mgr.step event).isSome
  next mgr event := (mgr.step event).getD mgr

instance (mgr : CliMgr) (event : MgrEvent) : Decidable (cliMgrSystem.Enabled mgr event) :=
  inferInstanceAs (Decidable (Option.isSome _))

/-- The change value of a response to a heartbeat, if the response says that there is one. -/
def changeOf : Sent → Option Int8
  | .response resp =>
    if resp.cmdId = CmdId.heartbeat.toWire ∧ resp.ret = HeartbeatRet.filelistChanged.code then some resp.cInfo
    else none
  | _ => none

/-- The values of MOCLOUD_FILETYPE below MOCLOUD_FILETYPE_MAX. -/
def filetypes : List Int := filetypeBits ++ [filetypeAll]

theorem includes_zero {type : Int} (member : type ∈ filetypes) : includes type 0 = false := by
  have all : ∀ type ∈ filetypes, includes type 0 = false := by decide
  exact all type member

section Client

variable {ctrl : CliCtrl} {world : World} {req : CtrlRequest} {pBody : Option Text} {handled : Handled}

def Handled.change : Handled → Option Int8
  | .returned _ _ resp _ => changeOf (.response resp)
  | .joining _ _ => none

theorem genResp_change (ret : Int) (cmdId : Nat)
    (other : cmdId ≠ CmdId.heartbeat.toWire ∨ ret ≠ HeartbeatRet.filelistChanged.code) :
    changeOf (.response (genResp ret cmdId)) = none := by
  refine if_neg fun both => ?_
  rcases other with other | other
  · exact other both.1
  · exact other both.2

theorem genRespNeeded_change {ret : Int} {cmdId : CmdId} (other : cmdId ≠ .heartbeat) :
    changeOf (.response (genRespNeeded req ret cmdId)) = none := by
  rw [genRespNeeded]
  split_ifs
  · refine genResp_change _ _ (.inl ?_)
    cases cmdId <;> first | exact absurd rfl other | decide
  · rfl

/-- A request leaves the flag and the value, and only the response to a heartbeat carries them. -/
structure Handled.Notice (ctrl : CliCtrl) (handled : Handled) : Prop where
  flag : handled.ctrl.mIsFilelistChanged = ctrl.mIsFilelistChanged
  value : handled.ctrl.mFilelistChangedValue = ctrl.mFilelistChangedValue
  change : ∀ change, handled.change = some change →
    ctrl.mIsFilelistChanged = true ∧ change = Int8.ofInt ctrl.mFilelistChangedValue

namespace CliCtrl

theorem notice_of_silent (same : handled.ctrl.mIsFilelistChanged = ctrl.mIsFilelistChanged ∧
    handled.ctrl.mFilelistChangedValue = ctrl.mFilelistChangedValue) (silent : handled.change = none) :
    handled.Notice ctrl := by
  refine ⟨same.1,same.2,fun change some_change => ?_⟩
  rw [silent] at some_change
  cases some_change

theorem doHeartBeat_notice : (ctrl.doHeartBeat world req).Notice ctrl := by
  rw [doHeartBeat]
  dsimp only
  by_cases changed : ctrl.mIsFilelistChanged = true
  · rw [if_pos changed]
    split_ifs
    · refine ⟨rfl,rfl,fun change carried => ⟨changed,?_⟩⟩
      exact (Option.some.inj carried).symm
    · exact notice_of_silent ⟨rfl,rfl⟩ rfl
  · rw [if_neg changed]
    split_ifs
    · exact notice_of_silent ⟨rfl,rfl⟩ rfl
    · exact notice_of_silent ⟨rfl,rfl⟩ rfl

theorem doSignUp_notice (ran : ctrl.doSignUp world req pBody = some handled) : handled.Notice ctrl := by
  refine notice_of_silent (by rw [doSignUp_ctrl ran]; exact ⟨rfl,rfl⟩) ?_
  obtain ⟨read,_,rfl⟩ := Option.map_eq_some_iff.mp ran
  cases read with
  | error _ => exact genRespNeeded_change (by decide)
  | ok _ =>
    dsimp only
    split_ifs
    · exact genRespNeeded_change (by decide)
    · exact genRespNeeded_change (by decide)
    · exact genResp_change world.modifyUserinfo CmdId.signUp.toWire (.inl (by decide))

theorem doLogIn_notice (ran : ctrl.doLogIn world req pBody = some handled) : handled.Notice ctrl := by
  apply notice_of_silent
  · rcases doLogIn_ctrl ran with ⟨same,_⟩ | ⟨_,_,_,_,_,_,same⟩
    · rw [same]
      exact ⟨rfl,rfl⟩
    · rw [same]
      split_ifs
      · exact ⟨rfl,rfl⟩
      · exact ⟨rfl,rfl⟩
  · rw [doLogIn] at ran
    split_ifs at ran
    · exact Option.some.inj ran ▸ genRespNeeded_change (by decide)
    · exact Option.some.inj ran ▸ genRespNeeded_change (by decide)
    · obtain ⟨read,_,ran⟩ := Option.bind_eq_some_iff.mp ran
      cases read with
      | error _ => exact Option.some.inj ran ▸ genRespNeeded_change (by decide)
      | ok _ =>
        obtain ⟨ret,_,rfl⟩ := Option.map_eq_some_iff.mp ran
        split_ifs
        · exact genRespNeeded_change (by decide)
        · exact genRespNeeded_change (by decide)

theorem doLogOut_notice : (ctrl.doLogOut req).Notice ctrl := by
  rw [doLogOut]
  split_ifs
  · exact notice_of_silent ⟨rfl,rfl⟩ (genRespNeeded_change (by decide))
  · exact notice_of_silent ⟨rfl,rfl⟩ (genRespNeeded_change (by decide))

theorem doByebye_notice : (ctrl.doByebye req).Notice ctrl := by
  refine notice_of_silent ?_ (genRespNeeded_change (by decide))
  rw [doByebye_ctrl]
  split_ifs
  · exact ⟨rfl,rfl⟩
  · exact ⟨rfl,rfl⟩

theorem doGetFilelist_notice (ran : ctrl.doGetFilelist world req = some handled) : handled.Notice ctrl := by
  refine notice_of_silent (by rw [doGetFilelist_ctrl ran]; exact ⟨rfl,rfl⟩) ?_
  rw [doGetFilelist] at ran
  split_ifs at ran
  · exact Option.some.inj ran ▸ genRespNeeded_change (by decide)
  · exact Option.some.inj ran ▸ genRespNeeded_change (by decide)
  · split at ran
    · exact Option.some.inj ran ▸ genRespNeeded_change (by decide)
    · dsimp only at ran
      split_ifs at ran
      · exact Option.some.inj ran ▸ genRespNeeded_change (by decide)
      · exact Option.some.inj ran ▸ rfl
  · exact Option.some.inj ran ▸ rfl

theorem doStartDwld_notice (ran : ctrl.doStartDwld world req pBody = some handled) : handled.Notice ctrl := by
  apply notice_of_silent
  · rcases doStartDwld_ctrl ran with same | ⟨_,same,_⟩ <;> rw [same] <;> exact ⟨rfl,rfl⟩
  · have failed : ∀ ret : Int, ret ≠ HeartbeatRet.filelistChanged.code →
        (Handled.returned ctrl ret (genResp ret req.cmdId) none).change = none :=
      fun ret other => genResp_change _ _ (.inr other)
    cases pBody with
    | none => exact Option.some.inj ran ▸ failed (-1) (by decide)
    | some pBody =>
      rw [doStartDwld] at ran
      rcases ite_eq_iff.mp ran with ⟨_,full⟩ | ⟨_,ran⟩
      · exact Option.some.inj full ▸ failed (-2) (by decide)
      obtain ⟨read,_,ran⟩ := Option.bind_eq_some_iff.mp ran
      cases read with
      | error _ => exact Option.some.inj ran ▸ failed (-3) (by decide)
      | ok info =>
        rcases ite_eq_iff.mp ran with ⟨_,running⟩ | ⟨_,ran⟩
        · exact Option.some.inj running ▸ failed (-4) (by decide)
        obtain ⟨file,_,ran⟩ := Option.map_eq_some_iff.mp ran
        cases file with
        | error _ => exact ran ▸ failed (-5) (by decide)
        | ok fd =>
          dsimp only at ran
          split at ran
          · exact ran ▸ failed (-6) (by decide)
          · rw [← ran]
            exact genResp_change _ _ (.inr (by decide))

theorem doStopDwld_notice (ran : ctrl.doStopDwld req pBody = some handled) : handled.Notice ctrl := by
  apply notice_of_silent
  · rcases doStopDwld_ctrl ran with same | ⟨_,same⟩ <;> rw [same] <;> exact ⟨rfl,rfl⟩
  · cases pBody with
    | none => exact Option.some.inj ran ▸ genResp_change _ _ (.inr (by decide))
    | some pBody =>
      obtain ⟨read,_,ran⟩ := Option.map_eq_some_iff.mp ran
      cases read with
      | error _ => exact ran ▸ genResp_change _ _ (.inr (by decide))
      | ok info =>
        dsimp only at ran
        split at ran
        · exact ran ▸ genResp_change _ _ (.inr (by decide))
        · exact ran ▸ rfl

theorem doRequest_notice (ran : ctrl.doRequest world req pBody = some handled) : handled.Notice ctrl :=
  doRequest_cases ran (fun _ => doHeartBeat_notice) (fun _ _ => doSignUp_notice) (fun _ _ => doLogIn_notice)
    (fun _ => doLogOut_notice) (fun _ => doByebye_notice) (fun _ _ => doGetFilelist_notice)
    (fun _ _ => doStartDwld_notice) (fun _ _ => doStopDwld_notice)
    (fun _ => notice_of_silent ⟨rfl,rfl⟩ rfl)

theorem joined_notice (place : Nat) : (ctrl.joined req place).Notice ctrl :=
  notice_of_silent ⟨rfl,rfl⟩ (genResp_change _ _ (.inr (by decide)))

end CliCtrl

theorem CliData.run_silent {thread : CliData} {answer : DataAnswer} {item : Sent}
    (sent : item ∈ (thread.run answer).2) : changeOf item = none := by
  rw [run] at sent
  split at sent
  · simp at sent
  · simp at sent
  · split at sent <;> simp at sent
  · exact List.mem_singleton.mp sent ▸ rfl
  · split at sent <;> exact List.mem_singleton.mp sent ▸ rfl
  · exact List.mem_singleton.mp sent ▸ rfl
  · simp at sent

end Client

namespace Session

variable {session after : Session} {event : Event}

/-- A step leaves the flag and the value, and what it reports are these. -/
structure Notice (session after : Session) : Prop where
  flag : after.ctrl.mIsFilelistChanged = session.ctrl.mIsFilelistChanged
  value : after.ctrl.mFilelistChangedValue = session.ctrl.mFilelistChangedValue
  sent : ∀ entry ∈ after.sent, ∀ change, changeOf entry.2 = some change → entry ∈ session.sent ∨
    session.ctrl.mIsFilelistChanged = true ∧ change = Int8.ofInt session.ctrl.mFilelistChangedValue

theorem notice_of_sent (flag : after.ctrl.mIsFilelistChanged = session.ctrl.mIsFilelistChanged)
    (value : after.ctrl.mFilelistChangedValue = session.ctrl.mFilelistChangedValue)
    (sent : after.sent = session.sent) : Notice session after :=
  ⟨flag,value,fun _ member _ _ => .inl (sent ▸ member)⟩

theorem answer_notice {asked : CliState} {req : CtrlRequest} {sending : Sending} {handled : Handled}
    (notice : handled.Notice session.ctrl) : Notice session (session.answer asked req sending handled) := by
  cases handled with
  | joining ctrl place => exact notice_of_sent notice.flag notice.value rfl
  | returned ctrl ret resp pRespBody =>
    refine ⟨notice.flag,notice.value,fun entry member change carried => ?_⟩
    rcases List.mem_append.mp member with earlier | now
    · exact .inl earlier
    · obtain ⟨item,among,rfl⟩ := List.mem_map.mp now
      rw [CliCtrl.sendCtrlResp2Cli] at among
      split_ifs at among
      · rcases List.mem_pair.mp among with rfl | rfl
        · exact .inr (notice.change change carried)
        · cases carried
      · rw [List.mem_singleton.mp among] at carried
        exact .inr (notice.change change carried)
      · cases among

theorem step_notice (own : CliMgr.Own place event) (ran : session.step event = some after) :
    Notice session after := by
  cases event with
  | filelistChange value => exact own.elim
  | newConn cliSockId =>
    obtain ⟨_,rfl⟩ := step_newConn ran
    exact notice_of_sent rfl rfl rfl
  | download place answer =>
    obtain ⟨thread,_,_,rfl⟩ := step_download ran
    refine ⟨rfl,rfl,fun entry member change carried => ?_⟩
    rcases List.mem_append.mp member with earlier | now
    · exact .inl earlier
    · obtain ⟨item,among,rfl⟩ := List.mem_map.mp now
      have data := CliData.run_silent among
      rw [data] at carried
      cases carried
  | joined sending =>
    obtain ⟨req,place,rfl⟩ := step_joined ran
    exact answer_notice (CliCtrl.joined_notice place)
  | pass pass =>
    obtain ⟨before,body,ctrl,sent,_⟩ := step_pass ran
    -- the history of passes plays no part
    suffices notice : Notice session before by
      refine ⟨by rw [ctrl]; exact notice.flag,by rw [ctrl]; exact notice.value,?_⟩
      rw [sent]
      exact notice.sent
    rcases runBody_cases body with ⟨req,pBody,handled,_,done,rfl⟩ | ⟨_,rfl | ⟨_,_,rfl⟩⟩
    · exact answer_notice (CliCtrl.doRequest_notice done)
    · exact notice_of_sent rfl rfl rfl
    · exact notice_of_sent rfl rfl rfl

end Session

/-- The heartbeats of a client that have been answered, as a number. -/
def Sent.heartbeat : Sent → Bool
  | .response resp => resp.cmdId == CmdId.heartbeat.toWire
  | _ => false

namespace CliMgr

def sentTo (mgr : CliMgr) (client : Nat) : List Sent :=
  ((mgr.cliCtrls[client]?).map fun session => session.sent.map Prod.snd).getD []

def heartbeats (mgr : CliMgr) (client : Nat) : Nat := (mgr.sentTo client).countP Sent.heartbeat

/-- How many responses to the heartbeats of a client have had a type in their change value. -/
def reports (mgr : CliMgr) (client : Nat) (type : Int) : Nat :=
  ((mgr.sentTo client).filterMap changeOf).countP (includes type)

/-- `CliMgr::run` has cleared the vector and has not gone over it. -/
def Adding (mgr : CliMgr) : Prop :=
  match mgr.place with
  | .adding .. => True
  | _ => False

instance (mgr : CliMgr) : Decidable mgr.Adding := by
  unfold Adding
  cases mgr.place <;> infer_instance

/-- No type is signalled between the clear and the end of the sum. -/
def Spaced (mgr : CliMgr) : MgrEvent → Prop
  | .setChangedFiletype _ => ¬ mgr.Adding
  | _ => True

instance (mgr : CliMgr) (event : MgrEvent) : Decidable (mgr.Spaced event) := by
  cases event <;> unfold Spaced <;> infer_instance

/-- Nothing but zero has been told to a client, or will be before the vector is taken again. -/
structure SilentClient (session : Session) : Prop where
  value : session.ctrl.mIsFilelistChanged = true → session.ctrl.mFilelistChangedValue = 0
  sent : ∀ entry ∈ session.sent, ∀ change, changeOf entry.2 = some change → change = 0

def SilentPlace (mgr : CliMgr) : MgrPlace → Prop
  | .adding _ changeValue _ => mgr.mChangedTypeVector = [] ∧ changeValue = 0
  | .telling changeValue _ => changeValue = 0
  | .setting changeValue _ _ => changeValue = 0
  | .flagging changeValue client _ =>
    changeValue = 0 ∧
      ∀ session, mgr.cliCtrls[client]? = some session → session.ctrl.mFilelistChangedValue = 0
  | _ => True

structure Silent (mgr : CliMgr) : Prop where
  place : mgr.SilentPlace mgr.place
  clients : ∀ session ∈ mgr.cliCtrls, SilentClient session

section Step

variable {mgr after : CliMgr} {event : MgrEvent}

theorem next_of_step (ran : mgr.step event = some after) : cliMgrSystem.next mgr event = after := by
  simp only [cliMgrSystem,ran,Option.getD_some]

theorem newSession_silent (time mFilelistChangedValue : Int) :
    SilentClient (newSession time mFilelistChangedValue) :=
  ⟨nofun,fun _ absent => (List.not_mem_nil absent).elim⟩

theorem notice_silent {session after : Session} (silent : SilentClient session)
    (notice : Session.Notice session after) : SilentClient after := by
  constructor
  · rw [notice.flag,notice.value]
    exact silent.value
  · intro entry member change carried
    rcases notice.sent entry member change carried with earlier | ⟨flag,same⟩
    · exact silent.sent entry earlier change carried
    · rw [same,silent.value flag]
      rfl

theorem modify_clients {client : Nat} {change : CliCtrl → CliCtrl}
    (kept : ∀ session, mgr.cliCtrls[client]? = some session →
      SilentClient { session with ctrl := change session.ctrl })
    (clients : ∀ session ∈ mgr.cliCtrls, SilentClient session) :
    ∀ session ∈ (mgr.modify client change).cliCtrls, SilentClient session := by
  intro session member
  obtain ⟨i,found⟩ := List.mem_iff_getElem?.mp member
  rw [modify,List.getElem?_modify] at found
  obtain ⟨old,there,rfl⟩ := Option.map_eq_some_iff.mp found
  split_ifs with here
  · subst here
    exact kept old there
  · exact clients old (List.mem_of_getElem? there)

theorem run_silent (silent : mgr.Silent) : mgr.run.Silent := by
  obtain ⟨place,clients⟩ := silent
  rw [run]
  split
  · split_ifs
    · exact ⟨place,clients⟩
    · exact ⟨trivial,clients⟩
  · exact ⟨⟨rfl,rfl⟩,clients⟩
  · rename_i v changeValue it here
    rw [here] at place
    obtain ⟨empty,rfl⟩ := place
    rw [empty,List.getElem?_nil]
    exact ⟨rfl,clients⟩
  · exact ⟨trivial,clients⟩
  · rename_i changeValue client rest here
    rw [here] at place
    split_ifs
    · exact ⟨place,clients⟩
    · exact ⟨place,clients⟩
  · rename_i changeValue client rest here
    rw [here] at place
    obtain rfl : changeValue = 0 := place
    have zero : ∀ ctrl : CliCtrl, ctrl.setFilelistChangeValue 0 = {ctrl with mFilelistChangedValue := 0} :=
      fun ctrl => if_neg (by decide)
    refine ⟨⟨rfl,fun session found => ?_⟩,?_⟩
    · dsimp only [modify] at found
      rw [List.getElem?_modify] at found
      obtain ⟨old,_,rfl⟩ := Option.map_eq_some_iff.mp found
      rw [if_pos rfl,zero]
    · change ∀ session ∈ (mgr.modify client fun ctrl => ctrl.setFilelistChangeValue 0).cliCtrls, _
      refine modify_clients (fun session there => ?_) clients
      rw [zero]
      exact ⟨fun _ => rfl,(clients session (List.mem_of_getElem? there)).sent⟩
  · rename_i changeValue client rest here
    rw [here] at place
    obtain ⟨value,told⟩ := place
    refine ⟨value,modify_clients (fun session there => ?_) clients⟩
    exact ⟨fun _ => told session there,(clients session (List.mem_of_getElem? there)).sent⟩

theorem step_silent (silent : mgr.Silent)
    (spaced : mgr.Spaced event) (ran : mgr.step event = some after) : after.Silent := by
  cases event with
  | setChangedFiletype type =>
    have other : ¬ mgr.Adding := spaced
    cases ran
    rw [setChangedFiletype]
    split_ifs
    · exact silent
    all_goals
      refine ⟨?_,silent.clients⟩
      have place := silent.place
      rw [Adding] at other
      cases here : mgr.place with
      | adding v changeValue it =>
        rw [here] at other
        exact absurd trivial other
      | _ =>
        rw [here] at place
        exact place
  | semPost =>
    rw [step] at ran
    split_ifs at ran
    cases ran
    exact ⟨silent.place,silent.clients⟩
  | run =>
    cases ran
    exact run_silent silent
  | connect time mFilelistChangedValue =>
    rw [step] at ran
    split_ifs at ran with free
    cases ran
    refine ⟨?_,List.forall_mem_append.mpr
      ⟨silent.clients,List.forall_mem_singleton.mpr (newSession_silent time mFilelistChangedValue)⟩⟩
    have place := silent.place
    cases here : mgr.place with
    | flagging changeValue client rest =>
      rw [here] at free
      exact absurd trivial free
    | _ =>
      rw [here] at place
      exact place
  | client client event =>
    rw [step] at ran
    split_ifs at ran with able
    obtain ⟨session,taken,rfl⟩ := Option.map_eq_some_iff.mp ran
    obtain ⟨before,there,stepped⟩ := Option.bind_eq_some_iff.mp taken
    have notice := Session.step_notice able.2 stepped
    constructor
    · have place := silent.place
      dsimp only
      cases here : mgr.place with
      | flagging changeValue told rest =>
        rw [here] at place
        refine ⟨place.1,fun other found => ?_⟩
        dsimp only at found
        rw [List.getElem?_set] at found
        split_ifs at found with same
        · subst same
          cases found
          rw [notice.value]
          exact place.2 before there
        · exact place.2 other found
      | _ =>
        rw [here] at place
        exact place
    · intro other member
      rcases List.mem_or_eq_of_mem_set member with old | rfl
      · exact silent.clients other old
      · exact notice_silent (silent.clients before (List.mem_of_getElem? there)) notice

theorem silent_reports (silent : mgr.Silent) (client : Nat) {type : Int} (member : type ∈ filetypes) :
    mgr.reports client type = 0 := by
  refine List.countP_eq_zero.mpr fun change carried => ?_
  obtain ⟨sent,among,carried⟩ := List.mem_filterMap.mp carried
  have zero : change = 0 := by
    rw [sentTo] at among
    cases there : mgr.cliCtrls[client]? with
    | none =>
      rw [there] at among
      exact (List.not_mem_nil among).elim
    | some session =>
      rw [there] at among
      obtain ⟨entry,listed,rfl⟩ := List.mem_map.mp among
      exact (silent.clients session (List.mem_of_getElem? there)).sent entry listed change carried
  rw [zero,includes_zero member]
  exact Bool.false_ne_true

end Step

section Runs

variable (run : Endless cliMgrSystem {})

/-- From this step on a client stays logged in and its heartbeats are answered again and again;
`CliMgr::run` and the callers of `setChangedFiletype` go on. -/
structure Attended (client n : Nat) : Prop where
  stays : ∀ m ≥ n, (run.state m).state client = some .login
  answered : ∀ bound, ∃ m, bound ≤ (run.state m).heartbeats client
  managed : ∀ m, ∃ k ≥ m, run.event k = some .run
  posted : ∀ m, ∃ k ≥ m, (run.state k).posting = 0

/-- A type that is signalled while a client is logged in comes to it in a later response, and no
type comes to a client more often than it is signalled. -/
structure Notified : Prop where
  each : ∀ n type client, run.event n = some (.setChangedFiletype type) → type ∈ filetypes →
    Attended run client n → ∃ m, (run.state n).reports client type < (run.state m).reports client type
  once : ∀ n client, ∀ type ∈ filetypeBits,
    (run.state n).reports client type ≤ (run.state n).signalled.countP fun signal =>
      includes type (Int8.ofInt signal)

def AllSpaced : Prop := ∀ n event, run.event n = some event → (run.state n).Spaced event

/-- No type is signalled while a client is logged in. -/
def Unattended : Prop :=
  ∀ n type client, run.event n = some (.setChangedFiletype type) → type ∈ filetypes → ¬ Attended run client n

variable {run}

theorem silent_reachable (spaced : AllSpaced run) (n : Nat) : (run.state n).Silent := by
  induction n with
  | zero =>
    rw [run.initial]
    exact ⟨trivial,fun _ absent => (List.not_mem_nil absent).elim⟩
  | succ n ih =>
    cases taken : run.event n with
    | none => rwa [run.idle n taken]
    | some event =>
      obtain ⟨after,ran⟩ := Option.isSome_iff_exists.mp (run.enabled n event taken)
      rw [run.moved n event taken,next_of_step ran]
      exact step_silent ih (spaced n event taken) ran

theorem spaced_reports (spaced : AllSpaced run) (n client : Nat) {type : Int} (member : type ∈ filetypes) :
    (run.state n).reports client type = 0 :=
  silent_reports (silent_reachable spaced n) client member

theorem unattended_of_notified (spaced : AllSpaced run) (notified : Notified run) : Unattended run := by
  intro n type client signal member attended
  obtain ⟨m,more⟩ := notified.each n type client signal member attended
  rw [spaced_reports spaced m client member] at more
  exact absurd more (Nat.not_lt_zero _)

/-- The clients are told of the changes exactly when there are none to tell. -/
theorem notified_iff (spaced : AllSpaced run) : Notified run ↔ Unattended run := by
  refine ⟨unattended_of_notified spaced,fun unattended => ⟨?_,?_⟩⟩
  · intro n type client signal member attended
    exact absurd attended (unattended n type client signal member)
  · intro n client type member
    rw [spaced_reports spaced n client (List.mem_append_left _ member)]
    exact Nat.zero_le _

/-- A picture is signalled while nobody is there. -/
def pictureEvents : List MgrEvent := [.setChangedFiletype filetypePic,.semPost,.run,.run,.run,.run]

theorem pictureEvents_follow : cliMgrSystem.Follows anyEvent {} pictureEvents := by decide +kernel

theorem spaced_ofEvents {events : List MgrEvent} (follows : cliMgrSystem.Follows anyEvent {} events)
    (spaced : cliMgrSystem.Follows Spaced {} events) : AllSpaced (Endless.ofEvents follows) :=
  fun n _ taken => (follows_taken spaced n taken).2

theorem notified_unseen :
    Notified (Endless.ofEvents pictureEvents_follow) ↔ Unattended (Endless.ofEvents pictureEvents_follow) :=
  notified_iff (spaced_ofEvents pictureEvents_follow (by decide))

section Video

/-- A client is logged in, a video is signalled, and `CliMgr::run` handles it. -/
def videoEvents : List MgrEvent :=
  .connect 0 0 :: (logInEvents (text "username=eric, password=secret")).map (.client 0) ++
    [.setChangedFiletype filetypeVideo,.semPost,.run,.run,.run,.run,.run,.run,.run]

def heartbeatEvent : MgrEvent :=
  .client 0 (.pass (requestPass (emptyWorld (oneUser (text "eric") (text "secret"))) .heartbeat []))

/-- What all this leads to, with what has been sent to the client. -/
def handledVideo (sent : List (CliState × Sent)) (done : List Done) : CliMgr where
  mCliCtrlList := [0]
  cliCtrls := [⟨{ newCliCtrl 0 0 with mState := .login, mIsFilelistChanged := true },none,sent,done⟩]
  signalled := [filetypeVideo]

def loggedIn : CliState × Sent := (.keyAgreed,.response (genResp LogInRet.ok.code CmdId.logIn.toWire))

theorem videoEvents_follow : cliMgrSystem.Follows anyEvent {} videoEvents := by decide +kernel

theorem videoEvents_end : videoEvents.foldl cliMgrSystem.next {} =
    handledVideo [loggedIn] [⟨.keyAgreed,.login,some 0⟩,⟨.idle,.keyAgreed,none⟩] := rfl

/-- The client is told that the file list is changed, and no type. -/
def nothingNew : CliState × Sent :=
  (.login,.response
    { mark := markServer, cmdId := CmdId.heartbeat.toWire, ret := HeartbeatRet.filelistChanged.code, cInfo := 0 })

theorem heartbeat_step (sent : List (CliState × Sent)) (done : List Done) :
    (handledVideo sent done).step heartbeatEvent =
      some (handledVideo (sent ++ [nothingNew]) (⟨.login,.login,none⟩ :: done)) := rfl

theorem run_step (sent : List (CliState × Sent)) (done : List Done) :
    (handledVideo sent done).step .run = some (handledVideo sent done) := rfl

/-- Then heartbeats for ever. -/
def serving (n : Nat) : MgrEvent := if n%2 = 0 then heartbeatEvent else .run

theorem serving_state (n : Nat) : ∃ done,
    stream cliMgrSystem (videoEvents.foldl cliMgrSystem.next {}) serving n =
      handledVideo (loggedIn :: List.replicate ((n+1)/2) nothingNew) done := by
  induction n with
  | zero => exact ⟨_,videoEvents_end⟩
  | succ n ih =>
    obtain ⟨done,here⟩ := ih
    rw [stream,here,serving]
    by_cases even : n%2 = 0
    · have more : (n+1+1)/2 = (n+1)/2+1 := by omega
      refine ⟨⟨.login,.login,none⟩ :: done,?_⟩
      rw [if_pos even,more,List.replicate_succ',← List.cons_append]
      exact next_of_step (heartbeat_step _ done)
    · have same : (n+1+1)/2 = (n+1)/2 := by omega
      refine ⟨done,?_⟩
      rw [if_neg even,same]
      exact next_of_step (run_step _ done)

theorem serving_enabled (n : Nat) :
    cliMgrSystem.Enabled (stream cliMgrSystem (videoEvents.foldl cliMgrSystem.next {}) serving n) (serving n) := by
  obtain ⟨done,here⟩ := serving_state n
  rw [here,serving]
  split_ifs
  · exact congrArg Option.isSome (heartbeat_step _ done)
  · exact congrArg Option.isSome (run_step _ done)

def videoRun : Endless cliMgrSystem {} := .after videoEvents_follow (.ofStream serving serving_enabled)

theorem videoRun_state (n : Nat) :
    ∃ done, videoRun.state (12+n) = handledVideo (loggedIn :: List.replicate ((n+1)/2) nothingNew) done := by
  obtain ⟨done,here⟩ := serving_state n
  exact ⟨done,(after_state videoEvents_follow _ n).trans here⟩

theorem videoRun_event (n : Nat) : videoRun.event (12+n) = some (serving n) :=
  after_event videoEvents_follow _ n

theorem videoRun_spaced : AllSpaced videoRun := by
  intro n event taken
  by_cases early : n < 12
  · have before : videoRun.state n = (videoEvents.take n).foldl cliMgrSystem.next {} := if_pos early
    have listed : videoEvents[n]? = some event := (if_pos early).symm.trans taken
    have spaced : cliMgrSystem.Follows Spaced {} videoEvents := by decide +kernel
    rw [before]
    exact (follows_taken spaced n listed).2
  · obtain ⟨k,rfl⟩ := Nat.exists_eq_add_of_le (Nat.le_of_not_lt early)
    rw [videoRun_event,serving] at taken
    split_ifs at taken
    · cases taken
      trivial
    · cases taken
      trivial

theorem videoRun_attended : Attended videoRun 0 3 := by
  constructor
  · intro m later
    by_cases early : m < 12
    · have before : videoRun.state m = (videoEvents.take m).foldl cliMgrSystem.next {} := if_pos early
      rw [before]
      interval_cases m <;> rfl
    · obtain ⟨k,rfl⟩ := Nat.exists_eq_add_of_le (Nat.le_of_not_lt early)
      obtain ⟨done,here⟩ := videoRun_state k
      rw [here]
      rfl
  · intro bound
    obtain ⟨done,here⟩ := videoRun_state (2*bound)
    refine ⟨12+2*bound,?_⟩
    have half : (2*bound+1)/2 = bound := by omega
    have heartbeats : (handledVideo (loggedIn :: List.replicate bound nothingNew) done).heartbeats 0 =
        (List.replicate bound nothingNew.2).countP Sent.heartbeat := by
      rw [heartbeats,sentTo,← List.map_replicate]
      rfl
    rw [here,half,heartbeats,List.countP_replicate,if_pos (by decide)]
  · intro m
    refine ⟨12+(2*m+1),by omega,?_⟩
    rw [videoRun_event,serving,if_neg (by omega)]
  · intro m
    obtain ⟨done,here⟩ := videoRun_state m
    refine ⟨12+m,Nat.le_add_left m 12,?_⟩
    rw [here]
    rfl

theorem video_never_told :
    videoRun.event 3 = some (.setChangedFiletype filetypeVideo) ∧ Attended videoRun 0 3 ∧
      ¬ Notified videoRun :=
  ⟨rfl,videoRun_attended,fun notified => unattended_of_notified videoRun_spaced notified 3 filetypeVideo 0 rfl
    (by decide) videoRun_attended⟩

end Video

end Runs

end CliMgr

end MoCodes.MoCloud.Server
