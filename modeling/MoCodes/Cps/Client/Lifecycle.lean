import MoCodes.Cps.Proto
import MoCodes.Lib.Transition

/-! moCpsCli_init and moCpsCli_unInit of moCpsClient.c with the memory, the sockets and the threads
they take and give back. The calls follow one another; a thread may come to its end between them. -/
namespace MoCodes.Cps.Client
open MoCodes.Lib.Transition

def invalidSockId : Int := -1

/-- The flag and the state by which a thread is stopped, and whether it is there to see the flag. -/
structure StopVars where
  runningFlag : Bool
  runningState : Bool
  alive : Bool
  deriving DecidableEq

namespace StopVars

def off : StopVars := ⟨false,false,false⟩

/-- createHeartBeatThr and createRecvDataThr: `created` is what pthread_create returns, which is no
negative number; `enters` tells whether the thread comes to its loop. -/
def create (created : Int) (enters : Bool) : Int × StopVars :=
  if created < 0 then (-1,off) else (0,⟨true,true,created == 0 && enters⟩)

/-- stopHeartBeatThr and stopRecvDataThr; `none` if they wait for ever. -/
def stop (thr : StopVars) : Option StopVars :=
  if thr.runningFlag then
    if thr.alive then some off
    else if thr.runningState then none
    else some {thr with runningFlag := false}
  else some thr

end StopVars

/-- What socket, bind, the two attributes and connect answer. -/
structure SockAnswers where
  fd : Int
  bind : Bool
  attr : Bool
  connect : Bool
  deriving DecidableEq

def SockAnswers.made (answers : SockAnswers) : Bool :=
  0 ≤ answers.fd && answers.bind && answers.attr && answers.connect

structure CpsClient where
  gIsInited : Bool
  /-- whether somebody holds it and will not give it back -/
  gMutex : Bool
  gpDmmData : Bool
  gCrmmData : Bool
  gCtrlSockId : Int
  gDataSockId : Int
  gpDataCallbackFunc : Bool
  heartbeat : StopVars
  recvdata : StopVars
  descriptors : List Int
  deriving DecidableEq

/-- How the parts of a call of moCpsCli_init end. -/
structure InitAnswers where
  params : Bool
  dmmMalloc : Bool
  crmmMalloc : Bool
  parseConf : Bool
  ctrl : SockAnswers
  /-- the algorithm doKeyAgree has got -/
  keyAgree : Option CryptAlgo
  heartbeatCreated : Int
  /-- of the heartbeat thread, before its loop -/
  cipherMalloc : Bool
  /-- sendDataport2Server, its encryption apart -/
  sendDataport : Bool
  data : SockAnswers
  recvdataCreated : Int
  deriving DecidableEq

namespace CpsClient

variable (cli : CpsClient)

/-- createCtrlSocket and createDataSocket; a socket of which a later part fails is closed again. -/
def createSocket (sockId : Int) (descriptors : List Int) (answers : SockAnswers) : Int × Int × List Int :=
  if sockId ≠ invalidSockId then (0,sockId,descriptors)
  else if answers.fd < 0 ∨ answers.bind = false then (-13,invalidSockId,descriptors)
  else if answers.attr = false then (-14,invalidSockId,descriptors)
  else if answers.connect = false then (-15,invalidSockId,descriptors)
  else (0,answers.fd,answers.fd :: descriptors)

def closeSocket (sockId : Int) (descriptors : List Int) : List Int :=
  if 0 < sockId then descriptors.erase sockId else descriptors

def destroyCtrlSocket : CpsClient :=
  {cli with gCtrlSockId := invalidSockId,descriptors := closeSocket cli.gCtrlSockId cli.descriptors}

def destroyDataSocket : CpsClient :=
  {cli with gDataSockId := invalidSockId,descriptors := closeSocket cli.gDataSockId cli.descriptors}

def stopHeartBeatThr : Option CpsClient := cli.heartbeat.stop.map fun thr => {cli with heartbeat := thr}

def stopRecvDataThr : Option CpsClient := cli.recvdata.stop.map fun thr => {cli with recvdata := thr}

/-- crmmUnInit and dmmUnInit. -/
def freeMemory : CpsClient := {cli with gCrmmData := false,gpDmmData := false}

/-- From step 5 of moCpsCli_init on, with the algorithm in use. -/
def initData (algo : CryptAlgo) (answers : InitAnswers) : Option (Int × CpsClient) :=
  if algo.known = false ∨ answers.sendDataport = false then
    cli.stopHeartBeatThr.map fun cli => (-5,cli.destroyCtrlSocket.freeMemory)
  else
    let (ret,gDataSockId,descriptors) := createSocket cli.gDataSockId cli.descriptors answers.data
    let cli := {cli with gDataSockId := gDataSockId,descriptors := descriptors}
    if ret < 0 then cli.stopHeartBeatThr.map fun cli => (-4,cli.destroyCtrlSocket.freeMemory)
    else
      let (ret,recvdata) := StopVars.create answers.recvdataCreated true
      let cli := {cli with recvdata := recvdata}
      if ret < 0 then
        cli.stopHeartBeatThr.map fun cli => (-5,cli.destroyCtrlSocket.destroyDataSocket.freeMemory)
      else some (0,{cli with gpDataCallbackFunc := true,gIsInited := true})

/-- From step 1 on. -/
def initCtrl (answers : InitAnswers) : Option (Int × CpsClient) :=
  if answers.parseConf = false then some (-3,cli.freeMemory)
  else
    let (ret,gCtrlSockId,descriptors) := createSocket cli.gCtrlSockId cli.descriptors answers.ctrl
    let cli := {cli with gCtrlSockId := gCtrlSockId,descriptors := descriptors}
    if ret < 0 then some (-4,cli.freeMemory)
    else
      match answers.keyAgree with
      | none => some (-5,cli.destroyCtrlSocket.freeMemory)
      | some algo =>
        let (ret,heartbeat) := StopVars.create answers.heartbeatCreated (answers.cipherMalloc && algo.known)
        let cli := {cli with heartbeat := heartbeat}
        if ret < 0 then some (-5,cli.destroyCtrlSocket.freeMemory) else cli.initData algo answers

/-- `none` if the call does not return. -/
def moCpsCli_init (answers : InitAnswers) : Option (Int × CpsClient) :=
  if answers.params = false then some (-1,cli)
  else if cli.gMutex then none
  else if cli.gIsInited then some (-2,cli)
  -- these two returns leave the mutex locked
  else if cli.gpDmmData ∨ answers.dmmMalloc = false then some (-8,{cli with gMutex := true})
  else if cli.gCrmmData ∨ answers.crmmMalloc = false then some (-8,{cli with gpDmmData := true,gMutex := true})
  else {cli with gpDmmData := true,gCrmmData := true}.initCtrl answers

def moCpsCli_unInit : Option CpsClient :=
  if cli.gMutex then none
  else if cli.gIsInited = false then some cli
  else
    (cli.stopHeartBeatThr.bind stopRecvDataThr).map fun cli =>
      {cli.destroyCtrlSocket.destroyDataSocket.freeMemory with gpDataCallbackFunc := false,gIsInited := false}

end CpsClient

/-- A call, or the end of a thread on its own. -/
inductive LifeEvent where
  | init (answers : InitAnswers)
  | unInit
  /-- heartBeatThr cannot write and leaves in order -/
  | unwritten
  /-- select fails in recvDataThr, which leaves without a word -/
  | selectFailed
  deriving DecidableEq

namespace CpsClient

variable (cli : CpsClient)

def step : LifeEvent → Option CpsClient
  | .init answers => (cli.moCpsCli_init answers).map Prod.snd
  | .unInit => cli.moCpsCli_unInit
  | .unwritten => some {cli with heartbeat := .off}
  | .selectFailed => some {cli with recvdata := {cli.recvdata with alive := false}}

/-- The system gives out a descriptor that is not in use. -/
def possible : LifeEvent → Prop
  | .init answers => answers.ctrl.fd ≠ answers.data.fd
  | .unInit => True
  | .unwritten => cli.heartbeat.alive = true
  | .selectFailed => cli.recvdata.alive = true

/-- `none` once a call does not return. -/
def lifeSystem : System (Option CpsClient) LifeEvent where
  Enabled state event := ∃ cli, state = some cli ∧ cli.possible event
  next state event := state.bind fun cli => cli.step event

def moCpsClient : CpsClient :=
  ⟨false,false,false,false,invalidSockId,invalidSockId,false,.off,.off,[]⟩

/-- No memory, no open socket and no thread. -/
structure Nothing : Prop where
  memory : cli.gpDmmData = false ∧ cli.gCrmmData = false
  sockets : cli.descriptors = []
  threads : cli.heartbeat.alive = false ∧ cli.recvdata.alive = false

/-- moCpsCli_unInit returns and leaves nothing behind. -/
def Closable : Option CpsClient → Prop
  | none => False
  | some cli => ∃ after, cli.moCpsCli_unInit = some after ∧ after.Nothing

end CpsClient

/-- Both threads are made and come to their loops, where they are reached. -/
structure InitAnswers.Smooth (answers : InitAnswers) : Prop where
  memory : answers.dmmMalloc = true ∧ answers.crmmMalloc = true
  ctrl : answers.parseConf = true → answers.ctrl.made = true → answers.ctrl.fd ≠ 0
  heartbeat : answers.parseConf = true → answers.ctrl.made = true → ∀ algo, answers.keyAgree = some algo →
    0 ≤ answers.heartbeatCreated →
      answers.heartbeatCreated = 0 ∧ answers.cipherMalloc = true ∧ algo.known = true
  data : answers.parseConf = true → answers.ctrl.made = true → answers.keyAgree.isSome = true →
    0 ≤ answers.heartbeatCreated → answers.sendDataport = true → answers.data.made = true →
      answers.data.fd ≠ 0 ∧ answers.recvdataCreated ≤ 0

/-- What an init may meet in a state, and that recvDataThr is never left behind. -/
def smooth : Option CpsClient → LifeEvent → Prop
  | some cli,.init answers => answers.params = true → cli.gIsInited = false → answers.Smooth
  | _,.selectFailed => False
  | _,_ => True

section Stop

variable {thr : StopVars}

def StopVars.Ended (thr : StopVars) : Prop := thr.runningFlag = false ∧ thr.alive = false

/-- The thread is there where its flag says so. -/
theorem StopVars.stop_ends (same : thr.runningFlag = thr.alive) :
    ∃ after, thr.stop = some after ∧ after.Ended := by
  rw [stop,same]
  cases alive : thr.alive with
  | false => exact ⟨thr,rfl,same.trans alive,alive⟩
  | true => exact ⟨off,rfl,rfl,rfl⟩

/-- The thread is not there, and who stops it waits for its answer. -/
def StopVars.Missing (thr : StopVars) : Prop := thr.runningFlag = true ∧ thr.runningState = true ∧ thr.alive = false

theorem StopVars.Missing.stop (missing : thr.Missing) : thr.stop = none := by
  rw [StopVars.stop,if_pos missing.1,if_neg (by simp [missing.2.2]),if_pos missing.2.1]

theorem StopVars.missing_of_created {created : Int} {enters : Bool} (positive : 0 ≤ created)
    (gone : ¬ (created = 0 ∧ enters = true)) : (StopVars.create created enters).2.Missing := by
  rw [StopVars.create,if_neg (not_lt.mpr positive)]
  exact ⟨rfl,rfl,by simpa using gone⟩

theorem made_iff {answers : SockAnswers} : answers.made = true ↔
    ¬ (answers.fd < 0 ∨ answers.bind = false) ∧ answers.attr = true ∧ answers.connect = true := by
  simp [SockAnswers.made,and_assoc]

theorem createSocket_made {answers : SockAnswers} (made : answers.made = true) (descriptors : List Int) :
    CpsClient.createSocket invalidSockId descriptors answers = (0,answers.fd,answers.fd :: descriptors) := by
  obtain ⟨bound,attr,connect⟩ := made_iff.mp made
  simp only [CpsClient.createSocket,ne_eq,not_true_eq_false,if_false,if_neg bound,attr,connect,Bool.true_eq_false]

theorem createSocket_unmade {answers : SockAnswers} (unmade : answers.made = false) (descriptors : List Int) :
    ∃ ret < 0, CpsClient.createSocket invalidSockId descriptors answers = (ret,invalidSockId,descriptors) := by
  simp only [CpsClient.createSocket,ne_eq,not_true_eq_false,if_false]
  split_ifs with bound attr connect
  · exact ⟨-13,by decide,rfl⟩
  · exact ⟨-14,by decide,rfl⟩
  · exact ⟨-15,by decide,rfl⟩
  · have made := made_iff.mpr ⟨bound,by simpa using attr,by simpa using connect⟩
    rw [unmade] at made
    cases made

end Stop

namespace CpsClient

variable {cli : CpsClient} {answers : InitAnswers}

/-- Not initialised. -/
structure Idle (cli : CpsClient) : Prop where
  flags : cli.gIsInited = false ∧ cli.gMutex = false
  memory : cli.gpDmmData = false ∧ cli.gCrmmData = false
  sockets : cli.gCtrlSockId = invalidSockId ∧ cli.gDataSockId = invalidSockId ∧ cli.descriptors = []
  threads : cli.heartbeat.Ended ∧ cli.recvdata.Ended

/-- Initialised. -/
structure Ready (cli : CpsClient) : Prop where
  flags : cli.gIsInited = true ∧ cli.gMutex = false
  sockets : 0 < cli.gCtrlSockId ∧ 0 < cli.gDataSockId ∧ cli.descriptors = [cli.gDataSockId,cli.gCtrlSockId]
  apart : cli.gDataSockId ≠ cli.gCtrlSockId
  threads : cli.heartbeat.runningFlag = cli.heartbeat.alive ∧ cli.recvdata = ⟨true,true,true⟩

def Sound : Option CpsClient → Prop
  | none => False
  | some cli => cli.Idle ∨ cli.Ready

theorem Idle.closable (idle : cli.Idle) : Closable (some cli) := by
  refine ⟨cli,?_,idle.memory,idle.sockets.2.2,idle.threads.1.2,idle.threads.2.2⟩
  simp [moCpsCli_unInit,idle.flags]

theorem Ready.unInit (ready : cli.Ready) : ∃ after, cli.moCpsCli_unInit = some after ∧ after.Idle := by
  obtain ⟨ctrl,data,open_⟩ := ready.sockets
  obtain ⟨heartbeat,stopped,ended⟩ := StopVars.stop_ends ready.threads.1
  obtain ⟨recvdata,stopped',ended'⟩ := @StopVars.stop_ends cli.recvdata (by rw [ready.threads.2])
  have both : cli.stopHeartBeatThr.bind stopRecvDataThr =
      some {cli with heartbeat := heartbeat,recvdata := recvdata} := by
    simp [stopHeartBeatThr,stopRecvDataThr,stopped,stopped']
  refine ⟨_,by rw [moCpsCli_unInit,ready.flags.1,ready.flags.2,both]; rfl,?_⟩
  refine ⟨⟨rfl,ready.flags.2⟩,⟨rfl,rfl⟩,⟨rfl,rfl,?_⟩,ended,ended'⟩
  simp [freeMemory,destroyCtrlSocket,destroyDataSocket,closeSocket,ctrl,data,open_,ready.apart]

theorem Ready.closable (ready : cli.Ready) : Closable (some cli) := by
  obtain ⟨after,closed,idle⟩ := ready.unInit
  exact ⟨after,closed,idle.memory,idle.sockets.2.2,idle.threads.1.2,idle.threads.2.2⟩

theorem sound_closable {state : Option CpsClient} (sound : Sound state) : Closable state := by
  cases state with
  | none => exact sound
  | some cli => exact sound.elim Idle.closable Ready.closable

/-- Step 5 is reached: the memory, the control socket and the heartbeat thread are there. -/
structure Begun (cli : CpsClient) : Prop where
  flags : cli.gIsInited = false ∧ cli.gMutex = false
  sockets : 0 < cli.gCtrlSockId ∧ cli.gDataSockId = invalidSockId ∧ cli.descriptors = [cli.gCtrlSockId]
  threads : cli.heartbeat.runningFlag = cli.heartbeat.alive ∧ cli.recvdata.Ended

theorem Begun.undone (begun : cli.Begun) (ret : Int) : ∃ after,
    (cli.stopHeartBeatThr.map fun cli => (ret,cli.destroyCtrlSocket.freeMemory)) = some (ret,after) ∧ after.Idle := by
  obtain ⟨heartbeat,stopped,ended⟩ := StopVars.stop_ends begun.threads.1
  refine ⟨({cli with heartbeat := heartbeat} : CpsClient).destroyCtrlSocket.freeMemory,
    by simp only [stopHeartBeatThr,stopped,Option.map_some],?_⟩
  refine ⟨begun.flags,⟨rfl,rfl⟩,⟨rfl,begun.sockets.2.1,?_⟩,ended,begun.threads.2⟩
  simp [freeMemory,destroyCtrlSocket,closeSocket,begun.sockets]

theorem Begun.initData {algo : CryptAlgo} (begun : cli.Begun) (fresh : cli.gCtrlSockId ≠ answers.data.fd)
    (fits : answers.sendDataport = true → answers.data.made = true →
      answers.data.fd ≠ 0 ∧ answers.recvdataCreated ≤ 0) :
    ∃ ret after, cli.initData algo answers = some (ret,after) ∧ (after.Idle ∨ after.Ready) := by
  rw [CpsClient.initData]
  split_ifs with refused
  · obtain ⟨after,undone,idle⟩ := begun.undone (-5)
    exact ⟨_,after,undone,Or.inl idle⟩
  have sent : answers.sendDataport = true := by simpa using (not_or.mp refused).2
  cases made : answers.data.made with
  | false =>
    obtain ⟨ret,negative,failed⟩ := createSocket_unmade made cli.descriptors
    obtain ⟨after,undone,idle⟩ := begun.undone (-4)
    refine ⟨-4,after,?_,Or.inl idle⟩
    rw [begun.sockets.2.1]
    simp only [failed,if_pos negative]
    rw [← begun.sockets.2.1]
    exact undone
  | true =>
    obtain ⟨some_,few⟩ := fits sent made
    have positive : 0 < answers.data.fd := by
      have bound := (not_or.mp (made_iff.mp made).1).1
      omega
    obtain ⟨heartbeat,stopped,ended⟩ := StopVars.stop_ends begun.threads.1
    rw [begun.sockets.2.1]
    simp only [createSocket_made made,lt_irrefl,if_false]
    rcases few.lt_or_eq with negative | zero
    · let opened : CpsClient :=
        {cli with
          gDataSockId := answers.data.fd,descriptors := answers.data.fd :: cli.descriptors
          recvdata := .off,heartbeat := heartbeat}
      refine ⟨-5,opened.destroyCtrlSocket.destroyDataSocket.freeMemory,?_,Or.inl ?_⟩
      · simp [StopVars.create,negative,stopHeartBeatThr,stopped,opened]
      refine ⟨begun.flags,⟨rfl,rfl⟩,⟨rfl,rfl,?_⟩,ended,rfl,rfl⟩
      simp [opened,freeMemory,destroyCtrlSocket,destroyDataSocket,closeSocket,begun.sockets,positive,Ne.symm fresh]
    · let opened : CpsClient :=
        {cli with
          gDataSockId := answers.data.fd,descriptors := answers.data.fd :: cli.descriptors
          recvdata := ⟨true,true,true⟩,gpDataCallbackFunc := true,gIsInited := true}
      refine ⟨0,opened,by simp [StopVars.create,zero,opened],Or.inr ?_⟩
      refine ⟨⟨rfl,begun.flags.2⟩,⟨begun.sockets.1,positive,?_⟩,Ne.symm fresh,begun.threads.1,rfl⟩
      simp [opened,begun.sockets]

/-- Step 1 is reached: the memory is there. -/
structure Allocated (cli : CpsClient) : Prop where
  flags : cli.gIsInited = false ∧ cli.gMutex = false
  sockets : cli.gCtrlSockId = invalidSockId ∧ cli.gDataSockId = invalidSockId ∧ cli.descriptors = []
  threads : cli.heartbeat.Ended ∧ cli.recvdata.Ended

theorem Allocated.freed (allocated : cli.Allocated) : cli.freeMemory.Idle :=
  ⟨allocated.flags,⟨rfl,rfl⟩,allocated.sockets,allocated.threads⟩

/-- The client with the control socket, and with what its heartbeat thread has left in its variables. -/
def connected (cli : CpsClient) (fd : Int) (heartbeat : StopVars) : CpsClient :=
  {cli with gCtrlSockId := fd,descriptors := fd :: cli.descriptors,heartbeat := heartbeat}

theorem Allocated.disconnected (allocated : cli.Allocated) {fd : Int} (positive : 0 < fd) :
    (cli.connected fd cli.heartbeat).destroyCtrlSocket.freeMemory.Idle := by
  refine ⟨allocated.flags,⟨rfl,rfl⟩,⟨rfl,allocated.sockets.2.1,?_⟩,allocated.threads⟩
  simp [connected,freeMemory,destroyCtrlSocket,closeSocket,allocated.sockets,positive]

theorem initCtrl_made (sockets : cli.gCtrlSockId = invalidSockId) (parsed : answers.parseConf = true)
    (made : answers.ctrl.made = true) : cli.initCtrl answers =
      match answers.keyAgree with
      | none => some (-5,(cli.connected answers.ctrl.fd cli.heartbeat).destroyCtrlSocket.freeMemory)
      | some algo =>
        let created := StopVars.create answers.heartbeatCreated (answers.cipherMalloc && algo.known)
        if created.1 < 0 then
          some (-5,(cli.connected answers.ctrl.fd created.2).destroyCtrlSocket.freeMemory)
        else (cli.connected answers.ctrl.fd created.2).initData algo answers := by
  rw [initCtrl,if_neg (by simp [parsed]),sockets]
  simp only [createSocket_made made,lt_irrefl,if_false]
  rfl

theorem Allocated.initCtrl (allocated : cli.Allocated) (fresh : answers.ctrl.fd ≠ answers.data.fd)
    (smooth : answers.Smooth) :
    ∃ ret after, cli.initCtrl answers = some (ret,after) ∧ (after.Idle ∨ after.Ready) := by
  cases parsed : answers.parseConf with
  | false => exact ⟨-3,_,by rw [CpsClient.initCtrl,if_pos parsed],Or.inl allocated.freed⟩
  | true =>
    cases made : answers.ctrl.made with
    | false =>
      obtain ⟨ret,negative,failed⟩ := createSocket_unmade made cli.descriptors
      refine ⟨-4,cli.freeMemory,?_,Or.inl allocated.freed⟩
      rw [CpsClient.initCtrl,if_neg (by simp [parsed]),allocated.sockets.1]
      simp only [failed,if_pos negative]
      rw [← allocated.sockets.1]
    | true =>
      have positive : 0 < answers.ctrl.fd := by
        have bound := (not_or.mp (made_iff.mp made).1).1
        have other := smooth.ctrl parsed made
        omega
      rw [initCtrl_made allocated.sockets.1 parsed made]
      cases agreed : answers.keyAgree with
      | none => exact ⟨_,_,rfl,Or.inl (allocated.disconnected positive)⟩
      | some algo =>
        rcases lt_or_ge answers.heartbeatCreated 0 with negative | created
        · refine ⟨_,_,by simp only [StopVars.create,if_pos negative]; rfl,Or.inl ?_⟩
          have undone := allocated.disconnected positive
          exact ⟨undone.flags,undone.memory,undone.sockets,⟨rfl,rfl⟩,undone.threads.2⟩
        · obtain ⟨zero,given,known⟩ := smooth.heartbeat parsed made algo agreed created
          simp only [StopVars.create,zero,given,known,lt_irrefl,if_false]
          have begun : (cli.connected answers.ctrl.fd ⟨true,true,true⟩).Begun :=
            ⟨allocated.flags,⟨positive,allocated.sockets.2.1,by simp [connected,allocated.sockets]⟩,rfl,
              allocated.threads.2⟩
          exact begun.initData fresh (smooth.data parsed made (by rw [agreed]; rfl) created)

theorem Idle.allocated (idle : cli.Idle) : ({cli with gpDmmData := true,gCrmmData := true} : CpsClient).Allocated :=
  ⟨idle.flags,idle.sockets,idle.threads⟩

theorem Idle.init_given (idle : cli.Idle) (given : answers.params = true) (dmm : answers.dmmMalloc = true)
    (crmm : answers.crmmMalloc = true) :
    cli.moCpsCli_init answers = ({cli with gpDmmData := true,gCrmmData := true} : CpsClient).initCtrl answers := by
  rw [moCpsCli_init,if_neg (by simp [given]),if_neg (by simp [idle.flags]),if_neg (by simp [idle.flags]),
    if_neg (by simp [idle.memory,dmm]),if_neg (by simp [idle.memory,crmm])]

theorem Idle.init (idle : cli.Idle) (fresh : answers.ctrl.fd ≠ answers.data.fd)
    (smooth : answers.params = true → answers.Smooth) :
    ∃ ret after, cli.moCpsCli_init answers = some (ret,after) ∧ (after.Idle ∨ after.Ready) := by
  cases given : answers.params with
  | false => exact ⟨-1,cli,by rw [moCpsCli_init,if_pos given],Or.inl idle⟩
  | true =>
    have fine := smooth given
    rw [idle.init_given given fine.memory.1 fine.memory.2]
    exact idle.allocated.initCtrl fresh fine

theorem Ready.init (ready : cli.Ready) : ∃ ret, cli.moCpsCli_init answers = some (ret,cli) := by
  rw [moCpsCli_init,ready.flags.1,ready.flags.2]
  cases answers.params with
  | false => exact ⟨-1,rfl⟩
  | true => exact ⟨-2,rfl⟩

/-- Descriptor 0 is taken for no socket, and a thread of an initialised client may be missing. -/
def Marred (cli : CpsClient) : Prop :=
  0 ∈ cli.descriptors ∨ cli.gIsInited = true ∧ (cli.heartbeat.Missing ∨ cli.recvdata.Missing)

theorem zero_mem_closeSocket {descriptors : List Int} (sockId : Int) (zero : 0 ∈ descriptors) :
    0 ∈ closeSocket sockId descriptors := by
  rw [closeSocket]
  split_ifs with positive
  · exact (List.mem_erase_of_ne positive.ne).mpr zero
  · exact zero

theorem zero_mem_stopHeartBeatThr {next : CpsClient} (zero : 0 ∈ cli.descriptors)
    (stopped : cli.stopHeartBeatThr = some next) : 0 ∈ next.descriptors := by
  obtain ⟨heartbeat,_,rfl⟩ := Option.map_eq_some_iff.mp stopped
  exact zero

theorem zero_mem_stopRecvDataThr {next : CpsClient} (zero : 0 ∈ cli.descriptors)
    (stopped : cli.stopRecvDataThr = some next) : 0 ∈ next.descriptors := by
  obtain ⟨recvdata,_,rfl⟩ := Option.map_eq_some_iff.mp stopped
  exact zero

theorem Marred.not_closable (marred : cli.Marred) : ¬ Closable (some cli) := by
  rintro ⟨after,closed,nothing⟩
  rw [moCpsCli_unInit] at closed
  split_ifs at closed with held idle
  · cases closed
    rcases marred with zero | ⟨inited,_⟩
    · rw [nothing.sockets] at zero
      cases zero
    · rw [idle] at inited
      cases inited
  · obtain ⟨last,stopped,rfl⟩ := Option.map_eq_some_iff.mp closed
    obtain ⟨next,first,second⟩ := Option.bind_eq_some_iff.mp stopped
    rcases marred with zero | ⟨_,missing | missing⟩
    · have kept : 0 ∈ last.destroyCtrlSocket.destroyDataSocket.freeMemory.descriptors :=
        zero_mem_closeSocket _ (zero_mem_closeSocket _
          (zero_mem_stopRecvDataThr (zero_mem_stopHeartBeatThr zero first) second))
      have none_left : last.destroyCtrlSocket.destroyDataSocket.freeMemory.descriptors = [] := nothing.sockets
      rw [none_left] at kept
      cases kept
    · rw [stopHeartBeatThr,missing.stop] at first
      cases first
    · obtain ⟨heartbeat,_,rfl⟩ := Option.map_eq_some_iff.mp first
      rw [stopRecvDataThr,missing.stop] at second
      cases second

/-- Where the call returns, it has left the client marred. -/
def Mars (result : Option (Int × CpsClient)) : Prop := ∀ after, result.map Prod.snd = some after → after.Marred

theorem mars_undone (zero : 0 ∈ cli.descriptors) (ret : Int) :
    Mars (cli.stopHeartBeatThr.map fun cli => (ret,cli.destroyCtrlSocket.freeMemory)) := by
  intro after returned
  rw [Option.map_map] at returned
  obtain ⟨next,stopped,rfl⟩ := Option.map_eq_some_iff.mp returned
  exact Or.inl (zero_mem_closeSocket _ (zero_mem_stopHeartBeatThr zero stopped))

theorem zero_mem_createSocket {sockId : Int} {descriptors : List Int} (zero : 0 ∈ descriptors)
    (answers : SockAnswers) : 0 ∈ (createSocket sockId descriptors answers).2.2 := by
  rw [createSocket]
  split_ifs
  all_goals first | exact zero | exact List.mem_cons_of_mem _ zero

theorem mars_initData {algo : CryptAlgo} (zero : 0 ∈ cli.descriptors) : Mars (cli.initData algo answers) := by
  have kept := @zero_mem_createSocket cli.gDataSockId _ zero answers.data
  rw [CpsClient.initData]
  split_ifs with refused
  · exact mars_undone zero _
  simp only []
  split_ifs with unmade uncreated
  · exact mars_undone kept _
  · intro after returned
    rw [Option.map_map] at returned
    obtain ⟨next,stopped,rfl⟩ := Option.map_eq_some_iff.mp returned
    exact Or.inl (zero_mem_closeSocket _ (zero_mem_closeSocket _ (zero_mem_stopHeartBeatThr kept stopped)))
  · rintro after returned
    cases returned
    exact Or.inl kept

theorem mars_of_missing {algo : CryptAlgo} (missing : cli.heartbeat.Missing) : Mars (cli.initData algo answers) := by
  rw [CpsClient.initData]
  simp only [stopHeartBeatThr,missing.stop,Option.map_none]
  split_ifs
  all_goals
    intro after returned
    cases returned
  exact Or.inr ⟨rfl,Or.inl missing⟩

theorem initData_opened {algo : CryptAlgo} (free : cli.gDataSockId = invalidSockId) (known : algo.known = true)
    (sent : answers.sendDataport = true) (made : answers.data.made = true) : cli.initData algo answers =
      let created := StopVars.create answers.recvdataCreated true
      let opened : CpsClient :=
        {cli with
          gDataSockId := answers.data.fd,descriptors := answers.data.fd :: cli.descriptors,recvdata := created.2}
      if created.1 < 0 then
        opened.stopHeartBeatThr.map fun cli => (-5,cli.destroyCtrlSocket.destroyDataSocket.freeMemory)
      else some (0,{opened with gpDataCallbackFunc := true,gIsInited := true}) := by
  rw [CpsClient.initData,if_neg (by simp [known,sent]),free]
  simp only [createSocket_made made,lt_irrefl,if_false]

/-- A data socket of descriptor 0, or no thread behind it. -/
theorem mars_opened {algo : CryptAlgo} (free : cli.gDataSockId = invalidSockId) (known : algo.known = true)
    (sent : answers.sendDataport = true) (made : answers.data.made = true)
    (rough : ¬ (answers.data.fd ≠ 0 ∧ answers.recvdataCreated ≤ 0)) : Mars (cli.initData algo answers) := by
  rw [initData_opened free known sent made]
  rcases eq_or_ne answers.data.fd 0 with zero | other
  · have there : 0 ∈ answers.data.fd :: cli.descriptors := by simp [zero]
    simp only []
    split_ifs with uncreated
    · intro after returned
      rw [Option.map_map] at returned
      obtain ⟨next,stopped,rfl⟩ := Option.map_eq_some_iff.mp returned
      exact Or.inl (zero_mem_closeSocket _ (zero_mem_closeSocket _ (zero_mem_stopHeartBeatThr there stopped)))
    · intro after returned
      cases returned
      exact Or.inl there
  · have positive : 0 < answers.recvdataCreated := by
      by_contra few
      exact rough ⟨other,not_lt.mp few⟩
    have missing := @StopVars.missing_of_created _ true positive.le (by simp [positive.ne'])
    simp only [StopVars.create,if_neg (not_lt.mpr positive.le),lt_irrefl,if_false] at missing ⊢
    intro after returned
    cases returned
    exact Or.inr ⟨rfl,Or.inr missing⟩

theorem mars_connected (free : cli.gCtrlSockId = invalidSockId) (parsed : answers.parseConf = true)
    (made : answers.ctrl.made = true) (zero : answers.ctrl.fd = 0) : Mars (cli.initCtrl answers) := by
  have there (heartbeat : StopVars) : 0 ∈ (cli.connected answers.ctrl.fd heartbeat).descriptors := by
    simp [connected,zero]
  have undone (heartbeat : StopVars) (ret : Int) :
      Mars (some (ret,(cli.connected answers.ctrl.fd heartbeat).destroyCtrlSocket.freeMemory)) := by
    intro after returned
    cases returned
    exact Or.inl (zero_mem_closeSocket _ (there heartbeat))
  rw [initCtrl_made free parsed made]
  cases answers.keyAgree with
  | none => exact undone cli.heartbeat (-5)
  | some algo =>
    simp only []
    split_ifs
    · exact undone _ (-5)
    · exact mars_initData (there _)

theorem mars_created {algo : CryptAlgo} (free : cli.gCtrlSockId = invalidSockId)
    (parsed : answers.parseConf = true) (made : answers.ctrl.made = true) (agreed : answers.keyAgree = some algo)
    (created : 0 ≤ answers.heartbeatCreated)
    (gone : ¬ (answers.heartbeatCreated = 0 ∧ answers.cipherMalloc = true ∧ algo.known = true)) :
    Mars (cli.initCtrl answers) := by
  have missing := @StopVars.missing_of_created _ (answers.cipherMalloc && algo.known) created
    (by simpa using gone)
  rw [initCtrl_made free parsed made,agreed]
  simp only [StopVars.create,if_neg (not_lt.mpr created),lt_irrefl,if_false] at missing ⊢
  exact mars_of_missing missing

theorem smooth_of_unmarred (ctrl : cli.gCtrlSockId = invalidSockId) (data : cli.gDataSockId = invalidSockId)
    (memory : answers.dmmMalloc = true ∧ answers.crmmMalloc = true) (unmarred : ¬ Mars (cli.initCtrl answers)) :
    answers.Smooth := by
  have heartbeat (parsed : answers.parseConf = true) (made : answers.ctrl.made = true) (algo : CryptAlgo)
      (agreed : answers.keyAgree = some algo) (created : 0 ≤ answers.heartbeatCreated) :
      answers.heartbeatCreated = 0 ∧ answers.cipherMalloc = true ∧ algo.known = true := by
    by_contra gone
    exact unmarred (mars_created ctrl parsed made agreed created gone)
  refine ⟨memory,fun parsed made zero => unmarred (mars_connected ctrl parsed made zero),heartbeat,?_⟩
  intro parsed made agreed created sent opened
  obtain ⟨algo,agreed⟩ := Option.isSome_iff_exists.mp agreed
  have known := (heartbeat parsed made algo agreed created).2.2
  by_contra rough
  apply unmarred
  rw [initCtrl_made ctrl parsed made,agreed]
  simp only [StopVars.create,if_neg (not_lt.mpr created),lt_irrefl,if_false]
  exact mars_opened data known sent opened rough

theorem Idle.smooth_of_closable (idle : cli.Idle) (given : answers.params = true)
    (closable : Closable ((cli.moCpsCli_init answers).map Prod.snd)) : answers.Smooth := by
  have dmm : answers.dmmMalloc = true := by
    by_contra out
    rw [moCpsCli_init,if_neg (by simp [given]),if_neg (by simp [idle.flags]),if_neg (by simp [idle.flags]),
      if_pos (by simp [out])] at closable
    obtain ⟨after,closed,_⟩ := closable
    simp [moCpsCli_unInit] at closed
  have crmm : answers.crmmMalloc = true := by
    by_contra out
    rw [moCpsCli_init,if_neg (by simp [given]),if_neg (by simp [idle.flags]),if_neg (by simp [idle.flags]),
      if_neg (by simp [idle.memory,dmm]),if_pos (by simp [out])] at closable
    obtain ⟨after,closed,_⟩ := closable
    simp [moCpsCli_unInit] at closed
  have unmarred : ¬ Mars (cli.moCpsCli_init answers) := by
    intro mars
    cases returned : (cli.moCpsCli_init answers).map Prod.snd with
    | none =>
      rw [returned] at closable
      exact closable
    | some after =>
      rw [returned] at closable
      exact (mars after returned).not_closable closable
  rw [idle.init_given given dmm crmm] at unmarred
  exact smooth_of_unmarred idle.allocated.sockets.1 idle.allocated.sockets.2.1 ⟨dmm,crmm⟩ unmarred

theorem Sound.next {event : LifeEvent} {state : Option CpsClient} (sound : Sound state)
    (enabled : lifeSystem.Enabled state event) (fits : smooth state event) : Sound (lifeSystem.next state event) := by
  obtain ⟨cli,rfl,possible⟩ := enabled
  change Sound (cli.step event)
  cases event with
  | init answers =>
    rcases sound with idle | ready
    · obtain ⟨ret,after,returned,sound⟩ := idle.init possible fun given => fits given idle.flags.1
      rw [step,returned]
      exact sound
    · obtain ⟨ret,returned⟩ := @Ready.init _ answers ready
      rw [step,returned]
      exact Or.inr ready
  | unInit =>
    rcases sound with idle | ready
    · rw [step,moCpsCli_unInit,if_neg (by simp [idle.flags]),if_pos idle.flags.1]
      exact Or.inl idle
    · obtain ⟨after,closed,idle⟩ := ready.unInit
      rw [step,closed]
      exact Or.inl idle
  | unwritten =>
    rcases sound with idle | ready
    · exact Or.inl ⟨idle.flags,idle.memory,idle.sockets,⟨rfl,rfl⟩,idle.threads.2⟩
    · exact Or.inr ⟨ready.flags,ready.sockets,ready.apart,rfl,ready.threads.2⟩
  | selectFailed => exact fits.elim

theorem Sound.smooth_of_closable {event : LifeEvent} {state : Option CpsClient} (sound : Sound state)
    (enabled : lifeSystem.Enabled state event) (closable : Closable (lifeSystem.next state event)) :
    smooth state event := by
  obtain ⟨cli,rfl,possible⟩ := enabled
  cases event with
  | init answers =>
    intro given out
    rcases sound with idle | ready
    · exact idle.smooth_of_closable given closable
    · rw [ready.flags.1] at out
      cases out
  | unInit => trivial
  | unwritten => trivial
  | selectFailed =>
    rcases sound with idle | ready
    · cases idle.threads.2.2.symm.trans possible
    · have missing : ({cli.recvdata with alive := false} : StopVars).Missing := by
        rw [ready.threads.2]
        exact ⟨rfl,rfl,rfl⟩
      have marred : ({cli with recvdata := {cli.recvdata with alive := false}} : CpsClient).Marred :=
        Or.inr ⟨ready.flags.1,Or.inr missing⟩
      exact marred.not_closable closable

/-- moCpsCli_unInit can be called at every moment of a run and leaves nothing behind exactly when
no socket takes descriptor 0, both threads come to their loops, no memory is wanting and
recvDataThr is not left by a failing select. -/
theorem unInit_leaves_nothing_iff {events : List LifeEvent}
    (follows : lifeSystem.Follows anyEvent (some moCpsClient) events) :
    (∀ front, front <+: events → Closable (front.foldl lifeSystem.next (some moCpsClient))) ↔
      lifeSystem.Follows smooth (some moCpsClient) events := by
  apply follows_iff_kept (I := Sound)
  · exact Sound.next
  · exact Sound.smooth_of_closable
  · exact sound_closable
  · exact Or.inl ⟨⟨rfl,rfl⟩,⟨rfl,rfl⟩,⟨rfl,rfl,rfl⟩,⟨rfl,rfl⟩,rfl,rfl⟩
  · exact follows

/-- The two sockets take the descriptors 3 and 4, and both threads run. -/
def succeeding : InitAnswers where
  params := true
  dmmMalloc := true
  crmmMalloc := true
  parseConf := true
  ctrl := ⟨3,true,true,true⟩
  keyAgree := some .rc4
  heartbeatCreated := 0
  cipherMalloc := true
  sendDataport := true
  data := ⟨4,true,true,true⟩
  recvdataCreated := 0

theorem unInit_leaves_nothing_iff_two_calls :
    (∀ front, front <+: [.init succeeding,.unwritten,.unInit,.init succeeding] →
      Closable (front.foldl lifeSystem.next (some moCpsClient))) ↔
      lifeSystem.Follows smooth (some moCpsClient) [.init succeeding,.unwritten,.unInit,.init succeeding] := by
  apply unInit_leaves_nothing_iff
  have apart : succeeding.ctrl.fd ≠ succeeding.data.fd := by decide
  exact ⟨⟨⟨_,rfl,apart⟩,trivial⟩,⟨⟨_,rfl,rfl⟩,trivial⟩,⟨⟨_,rfl,trivial⟩,trivial⟩,⟨⟨_,rfl,apart⟩,trivial⟩,trivial⟩

end CpsClient

end MoCodes.Cps.Client
