import MoCodes.Cps.Server.Cri
import MoCodes.Cps.Server.CliMgr
import MoCodes.Cps.Server.Receive

/-! The control thread of a client: it takes requests from the bytes of its socket, agrees
on a key as long as the client's state is below KEYAGREED, and does the requests after
that. All bytes of the client have arrived and it closes behind them; passes in which
`pselect` times out are left out. -/
namespace MoCodes.Cps.Server
open MoCodes.Utils.Search MoCodes.Lib.LinkedList

structure Clients where
  cri : Cri
  cliMgr : CliMgr

structure KeyAgreeResponse where
  cmdId : CmdId
  cryptInfo : CryptInfo
  deriving DecidableEq,Repr

structure CtrlResponse where
  cmdId : CmdId
  bodyLen : Nat
  deriving DecidableEq,Repr

inductive CtrlEvent where
  | keyAgreeRequest (bytes : List UInt8)
  | cryptStored (info : CryptInfo)
  | keyAgreeResponse (resp : KeyAgreeResponse)
  | request (bytes : List UInt8)
  | response (resp : CtrlResponse)
  | body (bytes : List UInt8)
  deriving DecidableEq,Repr

def CtrlEvent.done : CtrlEvent → Option (List UInt8)
  | .request bytes => some bytes
  | _ => none

structure CtrlThr where
  ctrlSockId : Int
  clients : Clients
  stream : List UInt8
  log : List CtrlEvent

/-- What a pass gets from outside: whether a `writen` sends everything, `rand`, `clock`, and
the file info or the error that asking the file manager for it ends in. -/
structure Env where
  writes : Nat → Bool
  rand : Nat → Nat
  clock : Int
  fileinfo : Except Int (List UInt8)

def idleEnv : Env := ⟨fun _ => true,fun _ => 0,0,.ok []⟩

namespace CtrlThr

def emit (thr : CtrlThr) (event : CtrlEvent) : CtrlThr := {thr with log := thr.log ++ [event]}

def refreshCri (thr : CtrlThr) (change : CliRunningInfo → CliRunningInfo) : CtrlThr :=
  {thr with clients := {thr.clients with cri := criRefresh thr.clients.cri thr.ctrlSockId change}}

def setCliMgr (thr : CtrlThr) (cliMgr : CliMgr) : CtrlThr := {thr with clients := {thr.clients with cliMgr}}

def info (thr : CtrlThr) : Option CliRunningInfo := criFind thr.clients.cri thr.ctrlSockId

def state (thr : CtrlThr) : Option CliState := cliMgrGetState thr.clients.cliMgr thr.ctrlSockId

def processed (thr : CtrlThr) : List (List UInt8) := thr.log.filterMap CtrlEvent.done

end CtrlThr

section Receive

/-- The key agreement is in plain text. -/
def keyAgreeErr : RecvErr → Int
  | .readn => -2
  | .noMark => -3
  | .readnLeft => -4
  | .decrypt => -1
  | .decryptLeft => -1

def simpleRequestErr : RecvErr → Int
  | .readn => -3
  | .decrypt => -4
  | .noMark => -5
  | .readnLeft => -6
  | .decryptLeft => -7

def doDecrypt (cryptInfo : CryptInfo) (pCipher : List UInt8) : Option (List UInt8) :=
  if cryptInfo.cryptAlgoNo.known then some pCipher else none

end Receive

section KeyAgree

def genRandArray (rand : Nat → Nat) (len : Nat) : List UInt8 :=
  (List.range len).map fun i => UInt8.ofNat (rand i % 127)

def genErrKeyAgreeResp : KeyAgreeResponse := ⟨.keyAgree,⟨.idle,[],0⟩⟩

def cryptKeyLen : CryptAlgo → Option Nat
  | .des => some 8
  | .des3 => some 24
  | .aes => some 24
  | .rc4 => some 256
  | _ => none

/-- The algorithm is always DES; the choice among all of them is commented out. -/
def genRightKeyAgreeResp (rand : Nat → Nat) : KeyAgreeResponse :=
  match cryptKeyLen .des with
  | some len => ⟨.keyAgree,⟨.des,genRandArray rand len,len⟩⟩
  | none => ⟨.keyAgree,⟨.des,[],0⟩⟩

/-- `criRefreshCryptInfo`, whose result the caller does not look at. -/
def refreshCryptInfo (thr : CtrlThr) (info : CryptInfo) : CtrlThr :=
  match thr.info with
  | some _ => (thr.refreshCri (setCryptInfo info)).emit (.cryptStored info)
  | none => thr

def agree (env : Env) (bytes : List UInt8) (thr : CtrlThr) : KeyAgreeResponse × CtrlThr :=
  if isRightFormatRequest bytes then
    let resp := genRightKeyAgreeResp env.rand
    let thr := refreshCryptInfo thr resp.cryptInfo
    (resp,thr.setCliMgr (cliMgrSetState thr.clients.cliMgr thr.ctrlSockId .keyAgreed))
  else (genErrKeyAgreeResp,thr)

def doKeyAgree (env : Env) (thr : CtrlThr) : Int × CtrlThr :=
  match recvRequest some thr.stream with
  | (.error err,stream) => (keyAgreeErr err,{thr with stream})
  | (.ok bytes,stream) =>
    let agreed := agree env bytes (CtrlThr.emit {thr with stream} (.keyAgreeRequest bytes))
    if env.writes 0 then (0,agreed.2.emit (.keyAgreeResponse agreed.1)) else (-5,agreed.2)

end KeyAgree

section Requests

def doRequestHeartbeat (env : Env) (thr : CtrlThr) : Int × CtrlThr :=
  match thr.state with
  | some _ => (0,thr.setCliMgr (cliMgrRefreshHeartbeat thr.clients.cliMgr thr.ctrlSockId env.clock))
  | none => (-1,thr)

def doRequestByebye (thr : CtrlThr) : Int × CtrlThr := (0,thr.refreshCri markDeleting)

def mergeChar2Int (src : List UInt8) : Int := toInt (readLE src)

def doRequestSendDataport (env : Env) (bytes : List UInt8) (thr : CtrlThr) : Int × CtrlThr :=
  match thr.info with
  | none => (-2,thr)
  | some _ =>
    let thr := thr.refreshCri (setDataPort (mergeChar2Int ((bytes.drop 24).take 4)))
    if env.writes 0 then (0,thr.emit (.response ⟨.sendDataport,0⟩)) else (-4,thr)

def doRequestGetFileinfo (env : Env) (thr : CtrlThr) : Int × CtrlThr :=
  match env.fileinfo with
  | .error err => (err,thr)
  | .ok body =>
    if env.writes 0 then
      let thr := thr.emit (.response ⟨.getFileinfo,body.length⟩)
      if body = [] then (0,thr)
      else if env.writes 1 then (0,thr.emit (.body body)) else (-5,thr)
    else (-4,thr)

def doRequest (env : Env) (bytes : List UInt8) (thr : CtrlThr) : Int × CtrlThr :=
  match requestCmdId bytes with
  | none => (-1,thr)
  | some .heartbeat => doRequestHeartbeat env thr
  | some .byebye => doRequestByebye thr
  | some .sendDataport => doRequestSendDataport env bytes thr
  | some .getFileinfo => doRequestGetFileinfo env thr
  | some .getData => (0,thr)
  | some .keyAgree => (-2,thr)

def doSimpleRequest (env : Env) (thr : CtrlThr) : Int × CtrlThr :=
  match thr.info with
  | none => (-2,thr)
  | some info =>
    match recvRequest (doDecrypt info.cryptInfo) thr.stream with
    | (.error err,stream) => (simpleRequestErr err,{thr with stream})
    | (.ok bytes,stream) =>
      if isRightFormatRequest bytes then
        let done := doRequest env bytes (CtrlThr.emit {thr with stream} (.request bytes))
        (if done.1 < 0 then -9 else 0,done.2)
      else (-8,{thr with stream})

end Requests

/-- One pass of the loop of `doCtrlRequestThr`, from `pselect` telling that there is
something to read. -/
def doCtrlRequestThr (env : Env) (thr : CtrlThr) : CtrlThr :=
  match thr.state with
  | none => thr
  | some state =>
    if state.value < CliState.keyAgreed.value then
      let agreed := doKeyAgree env thr
      if agreed.1 < 0 then agreed.2
      else agreed.2.setCliMgr (cliMgrSetState agreed.2.clients.cliMgr thr.ctrlSockId .keyAgreed)
    else (doSimpleRequest env thr).2

section Heaps

variable {heap after : CriHeap} {head : Nat} {thr : CtrlThr} {ret : Int}

/-- What the thread does to the list of infos is what the routines do in the heap. -/
theorem refreshCri_holds {change : CliRunningInfo → CliRunningInfo} {missing : Int}
    (holds : Holds heap head thr.clients.cri)
    (ran : Refreshes heap head (isClient thr.ctrlSockId) change missing after ret) :
    Holds after head (thr.refreshCri change).clients.cri :=
  (criRefresh_holds holds ran).1

theorem refreshCryptInfo_holds {info : CryptInfo} (holds : Holds heap head thr.clients.cri)
    (ran : CriRefreshCryptInfo heap head thr.ctrlSockId info after ret) :
    Holds after head (refreshCryptInfo thr info).clients.cri := by
  have changed := refreshCri_holds holds ran
  unfold refreshCryptInfo
  cases found : thr.info with
  | some old => exact changed
  | none =>
    have same : modifyFirst (isClient thr.ctrlSockId) (setCryptInfo info) thr.clients.cri = thr.clients.cri := by
      apply modifyFirst_none
      intro item member
      simpa using List.find?_eq_none.mp found item member
    rwa [CtrlThr.refreshCri,criRefresh,same] at changed

theorem doRequestByebye_holds (holds : Holds heap head thr.clients.cri)
    (ran : CriDeleteCliInfo heap head thr.ctrlSockId after ret) :
    Holds after head (doRequestByebye thr).2.clients.cri :=
  refreshCri_holds holds ran

end Heaps

section Frame

structure SameClient (thr after : CtrlThr) : Prop where
  ctrlSockId : after.ctrlSockId = thr.ctrlSockId
  cryptInfo : after.info.map CliRunningInfo.cryptInfo = thr.info.map CliRunningInfo.cryptInfo
  state : after.state = thr.state
  log : thr.log <+: after.log

/-- A request changes neither what the thread reads next nor how it reads it. -/
structure Keeps (thr after : CtrlThr) : Prop extends SameClient thr after where
  stream : after.stream = thr.stream
  processed : after.processed = thr.processed

variable {thr after last : CtrlThr}

theorem sameClient_trans (first : SameClient thr after) (second : SameClient after last) :
    SameClient thr last where
  ctrlSockId := second.ctrlSockId.trans first.ctrlSockId
  cryptInfo := second.cryptInfo.trans first.cryptInfo
  state := second.state.trans first.state
  log := first.log.trans second.log

theorem sameClient_stream (thr : CtrlThr) (stream : List UInt8) : SameClient thr {thr with stream} :=
  ⟨rfl,rfl,rfl,List.prefix_refl _⟩

theorem sameClient_emit (thr : CtrlThr) (event : CtrlEvent) : SameClient thr (thr.emit event) :=
  ⟨rfl,rfl,rfl,List.prefix_append _ _⟩

theorem keeps_refl (thr : CtrlThr) : Keeps thr thr := ⟨sameClient_stream thr thr.stream,rfl,rfl⟩

theorem keeps_trans (first : Keeps thr after) (second : Keeps after last) : Keeps thr last where
  toSameClient := sameClient_trans first.toSameClient second.toSameClient
  stream := second.stream.trans first.stream
  processed := second.processed.trans first.processed

theorem emit_processed (thr : CtrlThr) (event : CtrlEvent) :
    (thr.emit event).processed = thr.processed ++ event.done.toList := by
  cases event <;> simp [CtrlThr.processed,CtrlThr.emit,CtrlEvent.done]

theorem keeps_emit (thr : CtrlThr) (event : CtrlEvent) (quiet : event.done = none) :
    Keeps thr (thr.emit event) where
  toSameClient := sameClient_emit thr event
  stream := rfl
  processed := by simp [emit_processed,quiet]

theorem keeps_refreshCri (thr : CtrlThr) (change : CliRunningInfo → CliRunningInfo)
    (sock : ∀ info, (change info).ctrlSockId = info.ctrlSockId)
    (crypt : ∀ info, (change info).cryptInfo = info.cryptInfo) : Keeps thr (thr.refreshCri change) where
  ctrlSockId := rfl
  stream := rfl
  processed := rfl
  cryptInfo := by
    apply find_modifyFirst_view
    · intro info
      simp [isClient,sock]
    · exact fun info _ _ => crypt info
  state := rfl
  log := List.prefix_refl _

theorem doRequestHeartbeat_keeps (env : Env) (thr : CtrlThr) : Keeps thr (doRequestHeartbeat env thr).2 := by
  unfold doRequestHeartbeat
  cases thr.state with
  | none => exact keeps_refl thr
  | some state => exact ⟨⟨rfl,rfl,getState_refreshHeartbeat env.clock,List.prefix_refl _⟩,rfl,rfl⟩

theorem doRequestSendDataport_keeps (env : Env) (bytes : List UInt8) (thr : CtrlThr) :
    Keeps thr (doRequestSendDataport env bytes thr).2 := by
  unfold doRequestSendDataport
  cases thr.info with
  | none => exact keeps_refl thr
  | some info =>
    have set := keeps_refreshCri thr (setDataPort (mergeChar2Int ((bytes.drop 24).take 4)))
      (fun _ => rfl) (fun _ => rfl)
    simp only
    split
    · exact keeps_trans set (keeps_emit _ _ rfl)
    · exact set

theorem doRequestGetFileinfo_keeps (env : Env) (thr : CtrlThr) :
    Keeps thr (doRequestGetFileinfo env thr).2 := by
  unfold doRequestGetFileinfo
  cases env.fileinfo with
  | error err => exact keeps_refl thr
  | ok body =>
    have told := keeps_emit thr (.response ⟨.getFileinfo,body.length⟩) rfl
    simp only
    split
    · split
      · exact told
      · split
        · exact keeps_trans told (keeps_emit _ _ rfl)
        · exact told
    · exact keeps_refl thr

theorem doRequest_keeps (env : Env) (bytes : List UInt8) (thr : CtrlThr) :
    Keeps thr (doRequest env bytes thr).2 := by
  unfold doRequest
  cases requestCmdId bytes with
  | none => exact keeps_refl thr
  | some cmdId =>
    cases cmdId with
    | keyAgree => exact keeps_refl thr
    | heartbeat => exact doRequestHeartbeat_keeps env thr
    | byebye => exact keeps_refreshCri thr _ (fun _ => rfl) (fun _ => rfl)
    | sendDataport => exact doRequestSendDataport_keeps env bytes thr
    | getFileinfo => exact doRequestGetFileinfo_keeps env thr
    | getData => exact keeps_refl thr

theorem doSimpleRequest_same (env : Env) (thr : CtrlThr) : SameClient thr (doSimpleRequest env thr).2 := by
  unfold doSimpleRequest
  cases thr.info with
  | none => exact (keeps_refl thr).toSameClient
  | some info =>
    simp only
    obtain ⟨result,stream⟩ := recvRequest (doDecrypt info.cryptInfo) thr.stream
    cases result with
    | error err => exact sameClient_stream thr stream
    | ok bytes =>
      simp only
      split
      · have taken := sameClient_trans (sameClient_stream thr stream) (sameClient_emit _ (.request bytes))
        exact sameClient_trans taken (doRequest_keeps env bytes _).toSameClient
      · exact sameClient_stream thr stream

end Frame

end MoCodes.Cps.Server
