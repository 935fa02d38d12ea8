import MoCodes.Cps.Server.Control
import MoCodes.Cps.Server.Sweep
import MoCodes.Lib.Transition
import Mathlib.Logic.Function.Basic

/-! All threads of the CPS server that share the two client lists: the accept thread, the
control threads and the sweeping thread. A step is what a thread does under one of the
two mutexes, or up to a call in which it can wait. Only the sweep holds `gCriMutex` from
one step to the next, and every other thread takes it for single routines; the routines
of `cliMgr` are single steps under `gMutex`. No socket of a client is ever closed, so
`accept` never returns the same number twice. -/
namespace MoCodes.Cps.Server
open MoCodes.Lib.LinkedList MoCodes.Lib.Transition

section Parties

structure NewCli where
  ipValue : Nat
  sockId : Int
  port : Int
  deriving DecidableEq

/-- Where `doAcceptThr` is with the client it has accepted: the next routine it calls. -/
inductive AcceptPc where
  | waiting
  | criIsCliExist (c : NewCli)
  | criSetDataSocketInfo (c : NewCli)
  | criInsertNewCliInfo (c : NewCli)
  | cliMgrInsertNewCli (c : NewCli)
  | criDeleteCliInfo (c : NewCli)
  | startCtrlThread (c : NewCli)
  | cliMgrDeleteCli (c : NewCli)
  | criDeleteStopped (c : NewCli)
  | criRefreshCtrlThrInfo (c : NewCli) (thId : Nat)
  deriving DecidableEq

/-- A call of a control thread that uses one of the lists. -/
inductive Task where
  | criGetCryptInfo
  | criRefreshCryptInfo (info : CryptInfo)
  | criSetDataSockPort (dataPort : Int)
  | criDeleteCliInfo
  | cliMgrSetState (state : CliState)
  | cliMgrRefreshHeartbeat (clock : Int)
  deriving DecidableEq

def Task.locksCri : Task → Bool
  | .cliMgrSetState _ | .cliMgrRefreshHeartbeat _ => false
  | _ => true

inductive PassRequest where
  | failed
  | heartbeat (clock : Int)
  | byebye
  | sendDataport (dataPort : Int)
  | other
  deriving DecidableEq

/-- What one pass of `doCtrlRequestThr` turns out to do, by the state it reads first: the key
agreement with the bytes not read, or with the crypt info for a right request, and whether the
response is written; or a request. -/
inductive Pass where
  | unknown
  | keyAgree (received : Option (Option CryptInfo)) (written : Bool)
  | simple (request : PassRequest)
  deriving DecidableEq

def Pass.allowed (state : Option CliState) : Pass → Bool
  | .unknown => state.isNone
  | .keyAgree _ _ => state.any (·.value < CliState.keyAgreed.value)
  | .simple _ => state.any (CliState.keyAgreed.value ≤ ·.value)

def keyAgreeTasks (received : Option CryptInfo) (written : Bool) : List Task :=
  (match received with
    | some info => [.criRefreshCryptInfo info,.cliMgrSetState .keyAgreed]
    | none => []) ++
  if written then [.cliMgrSetState .keyAgreed] else []

def requestTasks : PassRequest → List Task
  | .heartbeat clock => [.cliMgrRefreshHeartbeat clock]
  | .byebye => [.criDeleteCliInfo]
  | .sendDataport dataPort => [.criSetDataSockPort dataPort]
  | .failed | .other => []

def Pass.tasks : Pass → List Task
  | .unknown => []
  | .keyAgree none _ => []
  | .keyAgree (some received) written => keyAgreeTasks received written
  | .simple request => .criGetCryptInfo :: requestTasks request

inductive CtrlPc where
  | absent
  | selecting
  | working (tasks : List Task)
  | locking (task : Task) (tasks : List Task)
  | exited
  deriving DecidableEq

/-- `readable` is what pselect finds out about the socket, bytes or the end of the connection;
the stop signal stays pending while it is blocked. -/
structure CtrlThread where
  sockId : Int
  pc : CtrlPc
  readable : Bool
  signalled : Bool

/-- `criCheckThr` asleep, at the node with the given number, or stopping the threads of that
node; nodes that are passed stay, and unlinking starts the count again. -/
inductive SweepPc where
  | sleeping
  | walking (pos : Nat)
  | killing (pos : Nat) (thIds : List Nat)
  | joining (pos : Nat) (thId : Nat) (thIds : List Nat)
  deriving DecidableEq

end Parties

/-- The thread that is being joined. -/
def SweepPc.joins : SweepPc → Option Nat
  | .joining _ thId _ => some thId
  | _ => none

structure ServerState where
  cri : Cri
  cliMgr : CliMgr
  accept : AcceptPc
  sweep : SweepPc
  threads : Nat → CtrlThread
  opened : List Int

def ServerState.initial : ServerState where
  cri := []
  cliMgr := []
  accept := .waiting
  sweep := .sleeping
  threads := fun _ => ⟨0,.absent,false,false⟩
  opened := []

/-- `gCriMutex` can be taken. -/
def ServerState.free (s : ServerState) : Prop := s.sweep = .sleeping

instance (s : ServerState) : Decidable s.free := inferInstanceAs (Decidable (_ = _))

def ServerState.pc (s : ServerState) (thId : Nat) : CtrlPc := (s.threads thId).pc

def ServerState.setThread (s : ServerState) (thId : Nat) (change : CtrlThread → CtrlThread) : ServerState :=
  {s with threads := Function.update s.threads thId (change (s.threads thId))}

section Steps

inductive ServerEvent where
  | accept (c : NewCli)
  | criIsCliExist (c : NewCli)
  | criSetDataSocketInfo (c : NewCli)
  | criInsertNewCliInfo (c : NewCli) (memory : Option CryptInfo)
  | cliMgrInsertNewCli (c : NewCli) (memory : Bool)
  | criDeleteCliInfo (c : NewCli)
  | startCtrlThread (c : NewCli) (ret : Int) (thId : Nat)
  | cliMgrDeleteCli (c : NewCli)
  | criDeleteStopped (c : NewCli)
  | criRefreshCtrlThrInfo (c : NewCli) (thId : Nat)
  | arrive (thId : Nat)
  | pselect (thId : Nat) (pass : Pass)
  | readn (thId : Nat) (tasks : List Task)
  | lock (thId : Nat) (task : Task) (tasks : List Task)
  | criTask (thId : Nat) (task : Task) (tasks : List Task)
  | cliMgrTask (thId : Nat) (task : Task) (tasks : List Task)
  | loop (thId : Nat)
  | interrupt (thId : Nat)
  | sweepLock
  | sweepNode (pos : Nat) (info : CliRunningInfo)
  | killThread (pos thId : Nat) (thIds : List Nat)
  | joined (pos thId : Nat) (thIds : List Nat)
  | sweepUnlink (pos : Nat) (info : CliRunningInfo)
  | sweepUnlock (pos : Nat)

def taskCri (sockId : Int) (task : Task) (cri : Cri) : Cri :=
  match task with
  | .criRefreshCryptInfo info => criRefresh cri sockId (setCryptInfo info)
  | .criSetDataSockPort dataPort => criRefresh cri sockId (setDataPort dataPort)
  | .criDeleteCliInfo => criRefresh cri sockId markDeleting
  | _ => cri

def taskCliMgr (sockId : Int) (task : Task) (cliMgr : CliMgr) : CliMgr :=
  match task with
  | .cliMgrSetState state => cliMgrSetState cliMgr sockId state
  | .cliMgrRefreshHeartbeat clock => cliMgrRefreshHeartbeat cliMgr sockId clock
  | _ => cliMgr

/-- Without its crypt info a request is given up. -/
def tasksAfter (sockId : Int) (cri : Cri) (task : Task) (tasks : List Task) : List Task :=
  if task = .criGetCryptInfo ∧ criFind cri sockId = none then [] else tasks

def setDataSocket (c : NewCli) (info : CliRunningInfo) : CliRunningInfo :=
  if c.port ≠ info.dataPort then info else {info with dataSockId := c.sockId}

def killIds (info : CliRunningInfo) : List Nat :=
  info.ctrlThrId :: if info.dataThrState = .deleting then [info.dataThrId] else []

def serverEnabled (s : ServerState) : ServerEvent → Prop
  | .accept c => s.accept = .waiting ∧ c.sockId ∉ s.opened
  | .criIsCliExist c => s.accept = .criIsCliExist c ∧ s.free
  | .criSetDataSocketInfo c => s.accept = .criSetDataSocketInfo c ∧ s.free
  | .criInsertNewCliInfo c _ => s.accept = .criInsertNewCliInfo c ∧ s.free
  | .cliMgrInsertNewCli c _ => s.accept = .cliMgrInsertNewCli c
  | .criDeleteCliInfo c => s.accept = .criDeleteCliInfo c ∧ s.free
  | .startCtrlThread c ret thId => s.accept = .startCtrlThread c ∧
      (ret = 0 → 0 < thId ∧ s.pc thId = .absent)
  | .cliMgrDeleteCli c => s.accept = .cliMgrDeleteCli c
  | .criDeleteStopped c => s.accept = .criDeleteStopped c ∧ s.free
  | .criRefreshCtrlThrInfo c thId => s.accept = .criRefreshCtrlThrInfo c thId ∧ s.free
  | .arrive thId => s.pc thId ≠ .absent
  | .pselect thId pass => s.pc thId = .selecting ∧ (s.threads thId).readable = true ∧
      pass.allowed (cliMgrGetState s.cliMgr (s.threads thId).sockId) = true
  | .readn thId tasks => s.pc thId = .working tasks
  | .lock thId task tasks => s.pc thId = .working (task :: tasks) ∧ task.locksCri = true
  | .criTask thId task tasks => s.pc thId = .locking task tasks ∧ s.free
  | .cliMgrTask thId task tasks => s.pc thId = .working (task :: tasks) ∧ task.locksCri = false
  | .loop thId => s.pc thId = .working []
  | .interrupt thId => s.pc thId = .selecting ∧ (s.threads thId).signalled = true
  | .sweepLock => s.free
  | .sweepNode pos info => s.sweep = .walking pos ∧ s.cri[pos]? = some info
  | .killThread pos thId thIds => s.sweep = .killing pos (thId :: thIds)
  | .joined pos thId thIds => s.sweep = .joining pos thId thIds ∧ s.pc thId = .exited
  | .sweepUnlink pos info => s.sweep = .killing pos [] ∧ s.cri[pos]? = some info
  | .sweepUnlock pos => s.sweep = .walking pos ∧ s.cri[pos]? = none

instance (s : ServerState) : (event : ServerEvent) → Decidable (serverEnabled s event)
  | .accept _ | .criIsCliExist _ | .criSetDataSocketInfo _ | .criInsertNewCliInfo _ _
  | .criDeleteCliInfo _ | .startCtrlThread _ _ _ | .criDeleteStopped _ | .criRefreshCtrlThrInfo _ _
  | .lock _ _ _ | .criTask _ _ _ | .cliMgrTask _ _ _ | .interrupt _ | .sweepNode _ _ | .joined _ _ _
  | .sweepUnlink _ _ | .sweepUnlock _ => inferInstanceAs (Decidable (_ ∧ _))
  | .pselect _ _ => inferInstanceAs (Decidable (_ ∧ _ ∧ _))
  | .cliMgrInsertNewCli _ _ | .cliMgrDeleteCli _ | .readn _ _ | .loop _ | .killThread _ _ _ =>
    inferInstanceAs (Decidable (_ = _))
  | .arrive _ => inferInstanceAs (Decidable (_ ≠ _))
  | .sweepLock => inferInstanceAs (Decidable (_ = _))

/-- Sending the signal and waiting for the thread, unless there is none. -/
def killThread (s : ServerState) (pos thId : Nat) (thIds : List Nat) : ServerState :=
  if thId = 0 ∨ s.pc thId = .absent then {s with sweep := .killing pos thIds}
  else {s.setThread thId ({· with signalled := true}) with sweep := .joining pos thId thIds}

def serverNext (s : ServerState) : ServerEvent → ServerState
  | .accept c => {s with accept := .criIsCliExist c, opened := c.sockId :: s.opened}
  | .criIsCliExist c =>
    {s with
      accept := if s.cri.any (·.ipValue == c.ipValue) then .criSetDataSocketInfo c
        else .criInsertNewCliInfo c}
  | .criSetDataSocketInfo c =>
    {s with
      accept := .waiting
      cri := modifyFirst (·.ipValue == c.ipValue) (setDataSocket c) s.cri}
  | .criInsertNewCliInfo c memory =>
    {s with
      accept := .cliMgrInsertNewCli c
      cri := match memory with
        | some memory => criInsert s.cri (newCliInfo c.ipValue c.sockId c.port memory)
        | none => s.cri}
  | .cliMgrInsertNewCli c memory =>
    let inserted := cliMgrInsertNewCli s.cliMgr c.sockId c.ipValue c.port memory
    {s with
      accept := if inserted.2 < 0 then .criDeleteCliInfo c else .startCtrlThread c
      cliMgr := inserted.1}
  | .criDeleteCliInfo c =>
    {s with accept := .startCtrlThread c, cri := criRefresh s.cri c.sockId markDeleting}
  | .startCtrlThread c ret thId =>
    if ret < 0 then {s with accept := .cliMgrDeleteCli c}
    else
      -- pthread_create returns a positive number when it fails
      let started := if ret = 0 then s.setThread thId fun _ => ⟨c.sockId,.selecting,false,false⟩ else s
      {started with accept := .criRefreshCtrlThrInfo c thId}
  | .cliMgrDeleteCli c =>
    {s with accept := .criDeleteStopped c, cliMgr := cliMgrDeleteCli s.cliMgr c.sockId}
  | .criDeleteStopped c =>
    {s with accept := .waiting, cri := criRefresh s.cri c.sockId markDeleting}
  | .criRefreshCtrlThrInfo c thId =>
    {s with accept := .waiting, cri := criRefresh s.cri c.sockId (setCtrlThr thId)}
  | .arrive thId => s.setThread thId ({· with readable := true})
  | .pselect thId pass => s.setThread thId ({· with pc := .working pass.tasks})
  | .readn thId _ => s.setThread thId ({· with readable := false})
  | .lock thId task tasks => s.setThread thId ({· with pc := .locking task tasks})
  | .criTask thId task tasks =>
    let sockId := (s.threads thId).sockId
    {s.setThread thId ({· with pc := .working (tasksAfter sockId s.cri task tasks)}) with
      cri := taskCri sockId task s.cri}
  | .cliMgrTask thId task tasks =>
    {s.setThread thId ({· with pc := .working tasks}) with
      cliMgr := taskCliMgr (s.threads thId).sockId task s.cliMgr}
  | .loop thId => s.setThread thId ({· with pc := .selecting})
  | .interrupt thId => s.setThread thId ({· with pc := .exited})
  | .sweepLock => {s with sweep := .walking 0}
  | .sweepNode pos info =>
    {s with sweep := if isDeleting info then .killing pos (killIds info) else .walking (pos+1)}
  | .killThread pos thId thIds => killThread s pos thId thIds
  | .joined pos thId thIds =>
    {s.setThread thId ({· with pc := .absent}) with sweep := .killing pos thIds}
  | .sweepUnlink pos info =>
    -- pPreNode is the head node still, so the nodes before go with the one that is freed
    {s with
      sweep := .walking 0
      cliMgr := cliMgrDeleteCli s.cliMgr info.ctrlSockId
      cri := s.cri.drop (pos+1)}
  | .sweepUnlock _ => {s with sweep := .sleeping}

end Steps

abbrev server : System ServerState ServerEvent := ⟨serverEnabled,serverNext⟩

section Passes

/-! The tasks of a pass are what `doCtrlRequestThr` does to the lists, one after another. -/

def runTasks (sockId : Int) : List Task → Clients → Clients
  | [],clients => clients
  | task :: tasks,clients =>
    if task = .criGetCryptInfo ∧ criFind clients.cri sockId = none then clients
    else runTasks sockId tasks ⟨taskCri sockId task clients.cri,taskCliMgr sockId task clients.cliMgr⟩

variable (env : Env) {thr : CtrlThr}

theorem refreshCryptInfo_clients (thr : CtrlThr) (info : CryptInfo) : (refreshCryptInfo thr info).clients =
    {thr.clients with cri := criRefresh thr.clients.cri thr.ctrlSockId (setCryptInfo info)} := by
  unfold refreshCryptInfo
  cases found : thr.info with
  | some old => rfl
  | none =>
    rw [criRefresh,modifyFirst_none]
    intro item member
    simpa using List.find?_eq_none.mp found item member

theorem refreshCryptInfo_sockId (thr : CtrlThr) (info : CryptInfo) :
    (refreshCryptInfo thr info).ctrlSockId = thr.ctrlSockId := by
  unfold refreshCryptInfo
  cases thr.info <;> rfl

theorem keyAgree_tasks {state : CliState} (known : thr.state = some state)
    (early : state.value < CliState.keyAgreed.value) :
    ∃ pass : Pass, pass.allowed thr.state = true ∧
      (doCtrlRequestThr env thr).clients = runTasks thr.ctrlSockId pass.tasks thr.clients := by
  have allowed : ∀ received written, (Pass.keyAgree received written).allowed thr.state = true := by
    intro received written
    rw [known]
    simpa [Pass.allowed] using early
  simp only [doCtrlRequestThr,known,if_pos early]
  rw [← known]
  cases reads : recvRequest some thr.stream with
  | mk result stream =>
    cases result with
    | error err =>
      refine ⟨.keyAgree none false,allowed _ _,?_⟩
      cases err <;> simp [doKeyAgree,reads,keyAgreeErr,Pass.tasks,runTasks]
    | ok bytes =>
      by_cases right : isRightFormatRequest bytes = true
      · refine ⟨.keyAgree (some (some (genRightKeyAgreeResp env.rand).cryptInfo)) (env.writes 0),
          allowed _ _,?_⟩
        cases written : env.writes 0 <;>
          simp [doKeyAgree,reads,agree,right,written,Pass.tasks,keyAgreeTasks,runTasks,taskCri,taskCliMgr,
            CtrlThr.setCliMgr,CtrlThr.emit,refreshCryptInfo_clients,refreshCryptInfo_sockId]
      · refine ⟨.keyAgree (some none) (env.writes 0),allowed _ _,?_⟩
        cases written : env.writes 0 <;>
          simp [doKeyAgree,reads,agree,right,written,Pass.tasks,keyAgreeTasks,runTasks,taskCri,taskCliMgr,
            CtrlThr.setCliMgr,CtrlThr.emit]

variable (thr) in
theorem doRequest_tasks {state : CliState} {info : CliRunningInfo} (known : thr.state = some state)
    (found : thr.info = some info) (bytes : List UInt8) :
    ∃ request, (doRequest env bytes thr).2.clients =
      runTasks thr.ctrlSockId (requestTasks request) thr.clients := by
  have other : ∃ request, thr.clients = runTasks thr.ctrlSockId (requestTasks request) thr.clients :=
    ⟨.other,rfl⟩
  unfold doRequest
  split
  · exact other
  · refine ⟨.heartbeat env.clock,?_⟩
    simp [doRequestHeartbeat,known,requestTasks,runTasks,taskCri,taskCliMgr,CtrlThr.setCliMgr]
  · exact ⟨.byebye,rfl⟩
  · refine ⟨.sendDataport (mergeChar2Int ((bytes.drop 24).take 4)),?_⟩
    simp only [doRequestSendDataport,found]
    split <;> rfl
  · unfold doRequestGetFileinfo
    split
    · exact other
    · split
      · split
        · exact other
        · split <;> exact other
      · exact other
  · exact other
  · exact other

theorem simple_tasks {state : CliState} (known : thr.state = some state)
    (late : ¬state.value < CliState.keyAgreed.value) :
    ∃ pass : Pass, pass.allowed thr.state = true ∧
      (doCtrlRequestThr env thr).clients = runTasks thr.ctrlSockId pass.tasks thr.clients := by
  have allowed : ∀ request, (Pass.simple request).allowed thr.state = true := by
    intro request
    rw [known]
    simpa [Pass.allowed] using late
  simp only [doCtrlRequestThr,known,if_neg late]
  rw [← known]
  cases found : thr.info with
  | none =>
    have absent : criFind thr.clients.cri thr.ctrlSockId = none := found
    refine ⟨.simple .failed,allowed _,?_⟩
    simp [doSimpleRequest,found,Pass.tasks,runTasks,absent]
  | some info =>
    have present : criFind thr.clients.cri thr.ctrlSockId = some info := found
    have failed : thr.clients = runTasks thr.ctrlSockId (Pass.simple .failed).tasks thr.clients := by
      simp [Pass.tasks,requestTasks,runTasks,present,taskCri,taskCliMgr]
    simp only [doSimpleRequest,found]
    split
    · exact ⟨_,allowed _,failed⟩
    · split
      · rename_i bytes stream _ _
        obtain ⟨request,same⟩ := doRequest_tasks env (CtrlThr.emit {thr with stream} (.request bytes))
          known found bytes
        refine ⟨.simple request,allowed _,?_⟩
        rw [same]
        simp [Pass.tasks,runTasks,present,taskCri,taskCliMgr,CtrlThr.emit]
      · exact ⟨_,allowed _,failed⟩

theorem pass_tasks (thr : CtrlThr) : ∃ pass : Pass, pass.allowed thr.state = true ∧
    (doCtrlRequestThr env thr).clients = runTasks thr.ctrlSockId pass.tasks thr.clients := by
  cases known : thr.state with
  | none =>
    refine ⟨.unknown,rfl,?_⟩
    simp [doCtrlRequestThr,known,Pass.tasks,runTasks]
  | some state =>
    rw [← known]
    by_cases early : state.value < CliState.keyAgreed.value
    · exact keyAgree_tasks env known early
    · exact simple_tasks env known early

end Passes

section OneClient

/-- A client connects, agrees on a key and says byebye. -/
def byebyeClient : NewCli := ⟨1,5,4000⟩

def byebyeKey : CryptInfo := ⟨.des,[1,2,3,4,5,6,7,8],8⟩

def byebyeInfo : CliRunningInfo :=
  markDeleting (setCryptInfo byebyeKey (setCtrlThr 7 (newCliInfo 1 5 4000 ⟨.idle,[],0⟩)))

def byebyeEvents : List ServerEvent :=
  let agreed : List Task := [.cliMgrSetState .keyAgreed,.cliMgrSetState .keyAgreed]
  [.accept byebyeClient,.criIsCliExist byebyeClient,.criInsertNewCliInfo byebyeClient (some ⟨.idle,[],0⟩),
    .cliMgrInsertNewCli byebyeClient true,.startCtrlThread byebyeClient 0 7,
    .criRefreshCtrlThrInfo byebyeClient 7,
    .arrive 7,.pselect 7 (.keyAgree (some (some byebyeKey)) true),
    .readn 7 (.criRefreshCryptInfo byebyeKey :: agreed),.lock 7 (.criRefreshCryptInfo byebyeKey) agreed,
    .criTask 7 (.criRefreshCryptInfo byebyeKey) agreed,
    .cliMgrTask 7 (.cliMgrSetState .keyAgreed) [.cliMgrSetState .keyAgreed],
    .cliMgrTask 7 (.cliMgrSetState .keyAgreed) [],.loop 7,
    .arrive 7,.pselect 7 (.simple .byebye),.lock 7 .criGetCryptInfo [.criDeleteCliInfo],
    .criTask 7 .criGetCryptInfo [.criDeleteCliInfo],.readn 7 [.criDeleteCliInfo],
    .lock 7 .criDeleteCliInfo [],.criTask 7 .criDeleteCliInfo [],.loop 7]

end OneClient

section Threads

variable (s : ServerState) (thId : Nat) (change : CtrlThread → CtrlThread)

@[simp] theorem setThread_self : (s.setThread thId change).threads thId = change (s.threads thId) :=
  Function.update_self _ _ _

@[simp] theorem setThread_other {other : Nat} (apart : other ≠ thId) :
    (s.setThread thId change).threads other = s.threads other :=
  Function.update_of_ne apart _ _

@[simp] theorem setThread_opened : (s.setThread thId change).opened = s.opened := rfl

@[simp] theorem setThread_cliMgr : (s.setThread thId change).cliMgr = s.cliMgr := rfl

end Threads

end MoCodes.Cps.Server
