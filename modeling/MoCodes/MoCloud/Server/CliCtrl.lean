import MoCodes.MoCloud.Server.CliData

/-! The requests of a client, cliCtrl.cpp. A handler is given what the calls it makes outside of
the class return; `none` stands for the end of the server by an exception, a NULL pointer or a
broken heap. -/
namespace MoCodes.MoCloud.Server

structure CliCtrl where
  mState : CliState
  mIsFilelistChanged : Bool
  mFilelistChangedValue : Int
  mDataSockId : Int
  mCliDataList : List CliData
  mLastHeartbeatTime : Int
  deriving DecidableEq

/-- What the rest of the server and the system answer while one request is processed. -/
structure World where
  time : Int
  db : DbCtrl
  insertUserinfo : Int
  modifyUserinfo : Int
  /-- `none` if `FileMgr::getFilelist` returns a negative value. -/
  getFilelist : Int → Option (List BasicFileinfo)
  malloc : Bool
  mDirpath : Text
  openSys : Text → Int
  newCliData : Bool
  pthreadCreate : Bool

/-- What a request leaves when its handler has returned, or when `doStopDwld` has come to the
`join` of the thread at a place of the list. -/
inductive Handled where
  | returned (ctrl : CliCtrl) (ret : Int) (resp : CtrlResponse) (pRespBody : Option (List BasicFileinfo))
  | joining (ctrl : CliCtrl) (place : Nat)

def genResp (ret : Int) (cmdId : Nat) : CtrlResponse where
  mark := markServer
  cmdId := cmdId
  ret := ret

/-- `if(req.isNeedResp) genResp(ret, cmdId, resp);` -/
def genRespNeeded (req : CtrlRequest) (ret : Int) (cmdId : CmdId) : CtrlResponse :=
  if req.isNeedResp ≠ 0 then genResp ret cmdId.toWire else {}

namespace CliCtrl

variable (ctrl : CliCtrl) (world : World) (req : CtrlRequest) (pBody : Option Text)

def setState (state : CliState) : CliCtrl := {ctrl with mState := state}

def doHeartBeat : Handled :=
  let refreshed := {ctrl with mLastHeartbeatTime := world.time}
  if req.isNeedResp = requestTypeNeedResponse then
    let resp : CtrlResponse :=
      if ctrl.mIsFilelistChanged then
        { mark := markServer
          cmdId := CmdId.heartbeat.toWire
          ret := HeartbeatRet.filelistChanged.code
          cInfo := Int8.ofInt ctrl.mFilelistChangedValue }
      else {mark := markServer, cmdId := CmdId.heartbeat.toWire, ret := HeartbeatRet.ok.code}
    .returned refreshed 0 resp none
  else .returned refreshed 0 {} none

def doSignUp : Option Handled :=
  (getUserPasswd pBody).map fun read =>
    match read with
    | .error _ => .returned ctrl (-1) (genRespNeeded req SignUpRet.errOthers.code .signUp) none
    | .ok _ =>
      if world.insertUserinfo < 0 then
        .returned ctrl (-2) (genRespNeeded req SignUpRet.errDupUsername.code .signUp) none
      else if world.modifyUserinfo < 0 then
        .returned ctrl (-3) (genRespNeeded req SignUpRet.errOthers.code .signUp) none
      else .returned ctrl 0 (genResp world.modifyUserinfo CmdId.signUp.toWire) none

def doLogIn : Option Handled :=
  if ctrl.mState = .login then
    some (.returned ctrl (-1) (genRespNeeded req LogInRet.hasLogin.code .logIn) none)
  else if ctrl.mState ≠ .keyAgreed then
    some (.returned ctrl (-2) (genRespNeeded req LogInRet.others.code .logIn) none)
  else
    (getUserPasswd pBody).bind fun read =>
      match read with
      | .error _ => some (.returned ctrl (-3) (genRespNeeded req LogInRet.others.code .logIn) none)
      | .ok (username,passwd) =>
        (world.db.userLogin username passwd world.time).map fun ret =>
          if ret < 0 then .returned ctrl (-4) (genRespNeeded req ret .logIn) none
          else .returned (ctrl.setState .login) 0 (genRespNeeded req ret .logIn) none

def doLogOut : Handled :=
  if ctrl.mState ≠ .login then
    .returned ctrl (-1) (genRespNeeded req LogOutRet.donotLogin.code .logOut) none
  else .returned (ctrl.setState .keyAgreed) 0 (genRespNeeded req 0 .logOut) none

def doByebye : Handled :=
  let left := if ctrl.mState = .login then ctrl.setState .invalid else ctrl
  .returned left 0 (genRespNeeded req 0 .byebye) none

/-- `int length`. -/
def filelistLength (filelist : List BasicFileinfo) : Int := toInt (filelist.length*basicFileinfoSize : Nat)

def doGetFilelist : Option Handled :=
  if ctrl.mState ≠ .login then
    some (.returned ctrl (-1) (genRespNeeded req GetFilelistErr.donotLogin.code .getFilelist) none)
  else if filetypeMax ≤ req.cInfo.toInt then
    some (.returned ctrl (-2) (genRespNeeded req GetFilelistErr.typeInvalid.code .getFilelist) none)
  else if req.isNeedResp ≠ 0 then
    match world.getFilelist req.cInfo.toInt with
    | none => some (.returned ctrl (-3) (genRespNeeded req GetFilelistErr.typeInvalid.code .getFilelist) none)
    | some filelist =>
      let length := filelistLength filelist
      -- malloc takes a negative length for one beyond any memory
      if length < 0 ∨ !world.malloc then
        some (.returned ctrl (-4) (genRespNeeded req GetFilelistErr.typeInvalid.code .getFilelist) none)
      else if length ≠ (filelist.length*basicFileinfoSize : Nat) then none
      else
        let resp := genResp GetFilelistErr.ok.code CmdId.getFilelist.toWire
        some (.returned ctrl 0 {resp with cInfo := req.cInfo, bodyLen := length} (some filelist))
  else some (.returned ctrl 0 {} none)

def doStartDwld : Option Handled :=
  let fails (ret : Int) : Handled := .returned ctrl ret (genResp ret req.cmdId) none
  match pBody with
  | none => some (fails (-1))
  | some _ =>
    if dwldTaskMaxNum ≤ ctrl.mCliDataList.length then some (fails (-2))
    else
      (getDwldReqInfo pBody).bind fun read =>
        match read with
        | .error _ => some (fails (-3))
        | .ok info =>
          if ctrl.mCliDataList.any fun thread => thread.isOf info.key then some (fails (-4))
          else
            (openFile world.db world.mDirpath world.openSys info.key).map fun file =>
              match file with
              | .error _ => fails (-5)
              | .ok fd =>
                if !world.newCliData then fails (-6)
                else
                  let thread := newCliData ctrl.mDataSockId info fd world.pthreadCreate ctrl.mState
                  .returned {ctrl with mCliDataList := ctrl.mCliDataList ++ [thread]} 0
                    (genResp 0 req.cmdId) none

def doStopDwld : Option Handled :=
  let fails (ret : Int) : Handled := .returned ctrl ret (genResp ret req.cmdId) none
  match pBody with
  | none => some (fails (-1))
  | some _ =>
    (getDwldReqInfo pBody).map fun read =>
      match read with
      | .error _ => fails (-2)
      | .ok info =>
        match ctrl.mCliDataList.findIdx? fun thread => thread.isOf info.key with
        | none => fails (-3)
        | some place =>
          .joining {ctrl with mCliDataList := ctrl.mCliDataList.modify place CliData.closeStop} place

/-- The rest of `doStopDwld` after the `join`. -/
def joined (place : Nat) : Handled :=
  .returned {ctrl with mCliDataList := ctrl.mCliDataList.eraseIdx place} 0 (genResp 0 req.cmdId) none

def doRequest : Option Handled :=
  if req.cmdId = CmdId.heartbeat.toWire then some (ctrl.doHeartBeat world req)
  else if req.cmdId = CmdId.signUp.toWire then ctrl.doSignUp world req pBody
  else if req.cmdId = CmdId.logIn.toWire then ctrl.doLogIn world req pBody
  else if req.cmdId = CmdId.logOut.toWire then some (ctrl.doLogOut req)
  else if req.cmdId = CmdId.byebye.toWire then some (ctrl.doByebye req)
  else if req.cmdId = CmdId.getFilelist.toWire then ctrl.doGetFilelist world req
  else if req.cmdId = CmdId.dwldStart.toWire then ctrl.doStartDwld world req pBody
  else if req.cmdId = CmdId.dwldStop.toWire then ctrl.doStopDwld req pBody
  else some (.returned ctrl (-2) {} none)

end CliCtrl

end MoCodes.MoCloud.Server
