import MoCodes.CryptFileTool.CryptThread
import MoCodes.CryptFileTool.CftProt
import MoCodes.Lib.Transition

/-! The server of cpSocket.cpp with its three kinds of threads: the one that receives requests, the
crypt threads with their callback, and the one that sends the progress. -/
namespace MoCodes.CryptFileTool.CpServer
open Lib.Transition

inductive MocftAlgo where
  | rc4
  | base64
  | max
deriving DecidableEq

/-- `TaskMgr::doCrypt`: an error, or the reports of the thread that is started. -/
def doCrypt (algo : MocftAlgo) (start : Start) : Except Err (List Int) :=
  match algo,start with
  | .rc4,.started outcome => .ok (outcome.reports .rc4)
  | .base64,.started outcome => .ok (outcome.reports .base64)
  | .rc4,.refused err => .error err
  | .base64,.refused err => .error err
  | .max,_ => .error ⟨-2,by decide⟩

inductive CpservSockState where
  | idle
  | crypting
deriving DecidableEq

/-- Where `cpServerRecvReq` is: in `select` and `recv`, before `doCrypt`, and after an error before
it is the progress, before `sem_post`, and before the state is idle again. -/
inductive Recv where
  | selecting
  | starting (id : Nat) (algo : MocftAlgo) (start : Start)
  | refusing (id : Nat)
  | posting (id : Nat)
  | resetting (id : Nat)
deriving DecidableEq

/-- Where `cpServerSendProg` is: before `sem_wait`, before it looks at the state, before it reads the
progress, before `send`, in `isTaskOver` before `>= 100` and before `< 0`, and before the state is
idle. It has the value it sends, and whose it is. -/
inductive Send where
  | waiting
  | woken
  | loading
  | sending (value : Int) (writer : Option Nat)
  | checking (value : Int)
  | negative (value : Int)
  | ending
deriving DecidableEq

/-- A `MOCFT_RESPMSG` with what it says, the task which that comes from, the task that was the last
one started when it was sent, and if that had ended. -/
structure Message where
  value : Int
  writer : Option Nat
  task : Nat
  ended : Bool
deriving DecidableEq

/-- A task has its number from the time when the state is set for it. `posting` are the calls of
`cpServerSetProg` before `sem_post`. -/
structure Server where
  cpServerState : CpservSockState
  cpServerProgress : Int
  writer : Option Nat
  cpServerSem : Nat
  recv : Recv
  send : Send
  started : Nat
  tasks : Nat → CryptThread
  posting : Nat → Bool
  sent : List Message

inductive Event where
  | request (algo : MocftAlgo) (start : Start)
  | recv
  | send
  | callback (id : Nat)
deriving DecidableEq

/-- A step that the server takes without a request. -/
def Event.Own : Event → Prop
  | request _ _ => False
  | _ => True

/-- The task has reported all. -/
def Ended (task : CryptThread) : Prop := task.todo = [] ∧ task.done ≠ []

instance (task : CryptThread) : Decidable (Ended task) := instDecidableAnd

theorem Ended.not_running {task : CryptThread} (ended : Ended task) : ¬ task.Running := fun running =>
  running ended.1

namespace Server

/-- `cpServerProgress = prog`, with the next report of the task. -/
def setProg (server : Server) (id : Nat) (prog : Int) : Server :=
  { server with
    cpServerProgress := prog
    writer := some id
    tasks := Function.update server.tasks id (server.tasks id).report
    posting := Function.update server.posting id true }

def semPost (server : Server) (id : Nat) : Server :=
  {server with cpServerSem := server.cpServerSem+1, posting := Function.update server.posting id false}

/-- A request has been received whole. While a task is done another one is not. -/
def request (server : Server) (algo : MocftAlgo) (start : Start) : Option Server :=
  match server.recv with
  | .selecting =>
    some <| match server.cpServerState with
    | .idle =>
      { server with
        cpServerState := .crypting
        started := server.started+1
        recv := .starting server.started algo start }
    | .crypting => server
  | _ => none

def startTask (server : Server) (id : Nat) (reports : List Int) (recv : Recv) : Server :=
  {server with tasks := Function.update server.tasks id (.start reports), recv}

def recvReq (server : Server) : Option Server :=
  match server.recv with
  | .selecting => none
  | .starting id algo start =>
    some <| match doCrypt algo start with
    | .ok reports => server.startTask id reports .selecting
    | .error ret => server.startTask id [ret.val] (.refusing id)
  | .refusing id => (server.tasks id).todo.head?.map fun ret => {server.setProg id ret with recv := .posting id}
  | .posting id => some {server.semPost id with recv := .resetting id}
  | .resetting _ => some {server with cpServerState := .idle, recv := .selecting}

def message (server : Server) (value : Int) (writer : Option Nat) : Message :=
  ⟨value,writer,server.started-1,decide (Ended (server.tasks (server.started-1)))⟩

def sendProg (server : Server) : Option Server :=
  match server.send with
  | .waiting =>
    if server.cpServerSem = 0 then none
    else some {server with cpServerSem := server.cpServerSem-1, send := .woken}
  | .woken => some {server with send := if server.cpServerState = .idle then .waiting else .loading}
  | .loading => some {server with send := .sending server.cpServerProgress server.writer}
  | .sending value writer =>
    some {server with sent := server.sent ++ [server.message value writer], send := .checking value}
  | .checking value =>
    some {server with send := if 100 ≤ server.cpServerProgress then .ending else .negative value}
  | .negative _ => some {server with send := if server.cpServerProgress < 0 then .ending else .waiting}
  | .ending => some {server with cpServerState := .idle, send := .waiting}

/-- A crypt thread in `cpServerSetProg`. What is refused is reported by the receiving thread. -/
def callback (server : Server) (id : Nat) : Option Server :=
  if server.recv = .refusing id ∨ server.recv = .posting id then none
  else if server.posting id then some (server.semPost id)
  else (server.tasks id).todo.head?.map fun prog => server.setProg id prog

def step (server : Server) : Event → Option Server
  | .request algo start => server.request algo start
  | .recv => server.recvReq
  | .send => server.sendProg
  | .callback id => server.callback id

end Server

def cpServer : System Server Event where
  Enabled server event := (server.step event).isSome
  next server event := (server.step event).getD server

instance (server : Server) (event : Event) : Decidable (cpServer.Enabled server event) :=
  inferInstanceAs (Decidable (_ = true))

def cpServerInit : Server := ⟨.idle,0,none,0,.selecting,.waiting,0,fun _ => .none,fun _ => false,[]⟩

namespace Server

/-- The client has been sent an end of the task that comes from it. -/
def Told (server : Server) (id : Nat) : Prop :=
  ∃ message ∈ server.sent, message.writer = some id ∧ Final message.value

/-- Nothing goes on before the next request. -/
def Quiet (server : Server) : Prop := ∀ event, event.Own → ¬ cpServer.Enabled server event

/-- What is sent as an end is that of the last task, which has ended; the state is idle only if no
task is running; and when nothing goes on all tasks have been told. -/
structure Reported (server : Server) : Prop where
  truthful : ∀ message ∈ server.sent, ¬ Underway message.value → message.ended ∧ message.writer = some message.task
  idle : server.cpServerState = .idle → ∀ id, ¬ (server.tasks id).Running
  told : server.Quiet → ∀ id < server.started, server.Told id

/-- The percentages of a task lie between 0 and 99, and it does not end silently; and an error has
been sent before the state is idle again. -/
def recvPrompt (server : Server) : Recv → Prop
  | .starting _ algo (.started outcome) => outcome.InRange ∧ (algo = .base64 → outcome ≠ .diffStateFailed)
  | .resetting _ => server.send = .waiting ∧ server.cpServerSem = 0
  | _ => True

/-- The progress that is sent is not the end of an earlier task, and a task is found done only by
one whose end has been sent. -/
def sendPrompt (server : Server) : Send → Prop
  | .loading => (server.tasks (server.started-1)).done = [] → Underway server.cpServerProgress
  | .checking value => 100 ≤ server.cpServerProgress → ¬ Underway value
  | .negative value => server.cpServerProgress < 0 → ¬ Underway value
  | _ => True

def prompt (server : Server) : Event → Prop
  | .recv => server.recvPrompt server.recv
  | .send => server.sendPrompt server.send
  | _ => True

instance (server : Server) : (recv : Recv) → Decidable (server.recvPrompt recv)
  | .selecting => instDecidableTrue
  | .starting _ algo (.started outcome) =>
    inferInstanceAs (Decidable (outcome.InRange ∧ (algo = .base64 → outcome ≠ .diffStateFailed)))
  | .starting _ _ (.refused _) => instDecidableTrue
  | .refusing _ => instDecidableTrue
  | .posting _ => instDecidableTrue
  | .resetting _ => inferInstanceAs (Decidable (server.send = .waiting ∧ server.cpServerSem = 0))

instance (server : Server) : (send : Send) → Decidable (server.sendPrompt send)
  | .waiting => instDecidableTrue
  | .woken => instDecidableTrue
  | .loading =>
    inferInstanceAs (Decidable ((server.tasks (server.started-1)).done = [] → Underway server.cpServerProgress))
  | .sending _ _ => instDecidableTrue
  | .checking value => inferInstanceAs (Decidable (100 ≤ server.cpServerProgress → ¬ Underway value))
  | .negative value => inferInstanceAs (Decidable (server.cpServerProgress < 0 → ¬ Underway value))
  | .ending => instDecidableTrue

instance (server : Server) : (event : Event) → Decidable (server.prompt event)
  | .request _ _ => instDecidableTrue
  | .recv => inferInstanceAs (Decidable (server.recvPrompt server.recv))
  | .send => inferInstanceAs (Decidable (server.sendPrompt server.send))
  | .callback _ => instDecidableTrue

end Server

/-- Between the test of the state and its reset. -/
def Send.busy : Send → Bool
  | waiting => false
  | woken => false
  | _ => true

/-- What has been reported is still going to be sent. -/
def Send.comes : Send → Prop
  | woken => True
  | loading => True
  | sending value _ => Final value
  | _ => False

namespace Server

/-- The end of a task that has reported it is on its way to the client. -/
def Pending (server : Server) (id : Nat) : Prop :=
  server.posting id ∨ 0 < server.cpServerSem ∨ server.send.comes

/-- The last of the tasks; no other one is left to report. -/
def IsLast (server : Server) (id : Nat) : Prop := id+1 = server.started

def RecvAt (server : Server) : Recv → Prop
  | .selecting => ∀ id, server.IsLast id → (server.tasks id).done ≠ [] ∨ (server.tasks id).Running
  | .starting id _ _ => server.IsLast id ∧ server.tasks id = .none ∧ server.cpServerState = .crypting
  | .refusing id => server.IsLast id ∧ ∃ ret, (server.tasks id).todo = [ret]
  | .posting id => server.IsLast id ∧ Ended (server.tasks id) ∧ server.posting id
  | .resetting id => server.IsLast id ∧ Ended (server.tasks id) ∧ server.posting id = false

structure Tasks (server : Server) : Prop where
  reports : ∀ id, (server.tasks id).Reports Final
  unstarted : ∀ id, server.started ≤ id → server.tasks id = .none ∧ server.posting id = false
  older : ∀ id, id+1 < server.started → Ended (server.tasks id)
  running : ∀ id, (server.tasks id).Running → server.IsLast id ∧ server.cpServerState = .crypting
  wrote : ∀ id, server.IsLast id → (server.tasks id).done ≠ [] →
    (server.tasks id).done.getLast? = some server.cpServerProgress ∧ server.writer = some id
  begun : server.cpServerState = .crypting → 0 < server.started
  receives : server.RecvAt server.recv

def SendAt (server : Server) : Send → Prop
  | .sending value writer =>
    ¬ Underway value → ∃ id, server.IsLast id ∧ Ended (server.tasks id) ∧ Final value ∧ writer = some id
  | .checking value => ¬ Underway value → ∃ id, server.IsLast id ∧ Ended (server.tasks id) ∧ server.Told id
  | .negative value => ¬ Underway value → ∃ id, server.IsLast id ∧ Ended (server.tasks id) ∧ server.Told id
  | .ending => ∃ id, server.IsLast id ∧ Ended (server.tasks id) ∧ server.Told id
  | _ => True

structure Telling (server : Server) : Prop where
  earlier : ∀ id, id+1 < server.started → server.Told id
  last : ∀ id, server.IsLast id → Ended (server.tasks id) →
    server.Told id ∨ server.cpServerState = .crypting ∧ server.Pending id
  busy : server.send.busy → server.cpServerState = .crypting
  sends : server.SendAt server.send
  truthful : ∀ message ∈ server.sent, ¬ Underway message.value → message.ended ∧ message.writer = some message.task

structure Kept (server : Server) : Prop extends Tasks server, Telling server

variable {server : Server} {event : Event}

theorem IsLast.unique {id other : Nat} (last : server.IsLast id) (last' : server.IsLast other) : other = id :=
  Nat.succ.inj (last'.trans last.symm)

theorem sendAt_free {send : Send} (free : send.busy = false) : server.SendAt send := by
  cases send with
  | waiting => trivial
  | woken => trivial
  | _ => cases free

theorem Kept.free (kept : server.Kept) (idle : server.cpServerState = .idle) : server.send.busy = false := by
  by_contra busy
  have state := kept.busy (by simpa using busy)
  rw [idle] at state
  cases state

theorem Kept.all_told (kept : server.Kept) (idle : server.cpServerState = .idle) {id : Nat}
    (last : server.IsLast id) (ended : Ended (server.tasks id)) : server.Told id := by
  rcases kept.last id last ended with told | ⟨state,_⟩
  · exact told
  · rw [idle] at state
    cases state

theorem Kept.idle_running (kept : server.Kept) (idle : server.cpServerState = .idle) (id : Nat) :
    ¬ (server.tasks id).Running := by
  intro running
  have state := (kept.running id running).2
  rw [idle] at state
  cases state

theorem Kept.all_ended (kept : server.Kept) {id : Nat} (last : server.IsLast id) (ended : Ended (server.tasks id))
    (task : Nat) : ¬ (server.tasks task).Running := by
  intro running
  obtain rfl : task = id := last.unique (kept.running task running).1
  exact ended.not_running running

theorem Kept.ended (kept : server.Kept) (recv : server.recv = .selecting) {id : Nat} (last : server.IsLast id)
    (idle : ¬ (server.tasks id).Running) : Ended (server.tasks id) := by
  have receives := kept.receives
  rw [recv] at receives
  exact ⟨not_not.mp idle,(receives id last).resolve_right idle⟩

theorem kept_request (kept : server.Kept) (recv : server.recv = .selecting) (idle : server.cpServerState = .idle)
    (algo : MocftAlgo) (start : Start) :
    { server with
      cpServerState := .crypting
      started := server.started+1
      recv := .starting server.started algo start }.Kept := by
  have ended : ∀ id, id+1 < server.started+1 → Ended (server.tasks id) := by
    intro id bound
    rcases Nat.lt_or_ge (id+1) server.started with old | last
    · exact kept.older id old
    · exact kept.ended recv (by unfold IsLast; omega) (kept.idle_running idle id)
  have fresh := kept.unstarted server.started le_rfl
  have newest : ∀ id, id+1 = server.started+1 → (server.tasks id).done = [] := by
    intro id last
    obtain rfl := Nat.succ.inj last
    rw [fresh.1]
    rfl
  constructor
  · refine ⟨kept.reports,fun id (bound : server.started+1 ≤ id) => kept.unstarted id (by omega),ended,
      fun id running => absurd running (kept.idle_running idle id),
      fun id last reported => absurd (newest id last) reported,fun _ => Nat.succ_pos _,rfl,fresh.1,rfl⟩
  · refine ⟨fun id (bound : id+1 < server.started+1) => ?_,fun id last ended => absurd (newest id last) ended.2,
      fun _ => rfl,sendAt_free (kept.free idle),kept.truthful⟩
    rcases Nat.lt_or_ge (id+1) server.started with old | last
    · exact kept.earlier id old
    · exact kept.all_told idle (by unfold IsLast; omega) (ended id bound)

theorem SendAt.begin {id : Nat} {send : Send} (at_ : server.SendAt send) (last : server.IsLast id)
    (fresh : ¬ Ended (server.tasks id)) (after : Server) : after.SendAt send := by
  have none : ∀ {P : Nat → Prop},
      (∃ other, server.IsLast other ∧ Ended (server.tasks other) ∧ P other) → False := by
    rintro P ⟨other,last',ended,_⟩
    obtain rfl := last.unique last'
    exact fresh ended
  cases send with
  | sending value writer => exact fun ends => (none (at_ ends)).elim
  | checking value => exact fun ends => (none (at_ ends)).elim
  | negative value => exact fun ends => (none (at_ ends)).elim
  | ending => exact (none at_).elim
  | _ => trivial

theorem kept_startTask (kept : server.Kept) {id : Nat} {algo : MocftAlgo} {start : Start}
    (place : server.recv = .starting id algo start) {reports : List Int} (more : reports ≠ [])
    (sound : (CryptThread.start reports).Reports Final) {recv : Recv}
    (goes : recv = .selecting ∨ recv = .refusing id ∧ ∃ ret, reports = [ret]) :
    (server.startTask id reports recv).Kept := by
  have at_ := kept.receives
  rw [place] at at_
  obtain ⟨last,fresh,state⟩ := at_
  have other : ∀ {task}, task ≠ id → (server.startTask id reports recv).tasks task = server.tasks task :=
    fun apart => Function.update_of_ne apart _ _
  have here : (server.startTask id reports recv).tasks id = .start reports := Function.update_self ..
  have older : ∀ {task}, task+1 < server.started → task ≠ id := by
    rintro task bound rfl
    exact absurd last (by unfold IsLast; omega)
  constructor
  · refine ⟨fun task => ?_,fun task bound => ?_,fun task bound => ?_,fun task running => ?_,
      fun task last' reported => ?_,kept.begun,?_⟩
    · rcases eq_or_ne task id with rfl | apart
      · rwa [here]
      · rw [other apart]
        exact kept.reports task
    · have apart : task ≠ id := by
        rintro rfl
        exact absurd last (by unfold IsLast; exact fun last => absurd bound (by simp [startTask]; omega))
      rw [other apart]
      exact kept.unstarted task bound
    · rw [other (older bound)]
      exact kept.older task bound
    · rcases eq_or_ne task id with rfl | apart
      · exact ⟨last,state⟩
      · rw [other apart] at running
        exact kept.running task running
    · obtain rfl : task = id := last.unique last'
      rw [here] at reported
      exact absurd rfl reported
    · rcases goes with rfl | ⟨rfl,ret,rfl⟩
      · intro task last'
        obtain rfl : task = id := last.unique last'
        rw [here]
        exact Or.inr more
      · exact ⟨last,ret,by rw [here]; rfl⟩
  · refine ⟨kept.earlier,fun task last' ended => ?_,kept.busy,?_,kept.truthful⟩
    · obtain rfl : task = id := last.unique last'
      rw [here] at ended
      exact absurd rfl ended.2
    · refine SendAt.begin kept.sends last (fun ended => ?_) _
      rw [fresh] at ended
      exact ended.2 rfl

theorem running_of_head {task : CryptThread} {prog : Int} (next : task.todo.head? = some prog) : task.Running := by
  rintro none
  rw [none] at next
  cases next

theorem kept_setProg (kept : server.Kept) {id : Nat} {prog : Int} (next : (server.tasks id).todo.head? = some prog)
    {recv : Recv} (receives : (server.setProg id prog).RecvAt recv) : {server.setProg id prog with recv}.Kept := by
  obtain ⟨rest,todo⟩ := List.head?_eq_some_iff.mp next
  have running := running_of_head next
  obtain ⟨last,state⟩ := kept.running id running
  have other : ∀ {task}, task ≠ id → (server.setProg id prog).tasks task = server.tasks task :=
    fun apart => Function.update_of_ne apart _ _
  have here : (server.setProg id prog).tasks id = ⟨(server.tasks id).done ++ [prog],rest⟩ :=
    (Function.update_self ..).trans (CryptThread.report_done todo)
  constructor
  · refine ⟨fun task => ?_,fun task bound => ?_,fun task bound => ?_,fun task runs => ?_,
      fun task last' _ => ?_,kept.begun,?_⟩
    · rcases eq_or_ne task id with rfl | apart
      · rw [here,← CryptThread.report_done todo]
        exact (kept.reports task).report todo
      · rw [other apart]
        exact kept.reports task
    · have apart : task ≠ id := by
        rintro rfl
        exact absurd (kept.unstarted task bound).1 fun none => running (by rw [none]; rfl)
      have posting : (server.setProg id prog).posting task = server.posting task := Function.update_of_ne apart _ _
      rw [other apart,posting]
      exact kept.unstarted task bound
    · have apart : task ≠ id := by
        rintro rfl
        exact (kept.older task bound).not_running running
      rw [other apart]
      exact kept.older task bound
    · rcases eq_or_ne task id with rfl | apart
      · exact ⟨last,state⟩
      · rw [other apart] at runs
        exact kept.running task runs
    · obtain rfl : task = id := last.unique last'
      rw [here]
      exact ⟨List.getLast?_concat,rfl⟩
    · exact receives
  · refine ⟨kept.earlier,fun task last' _ => ?_,kept.busy,?_,kept.truthful⟩
    · obtain rfl : task = id := last.unique last'
      exact Or.inr ⟨state,Or.inl (Function.update_self ..)⟩
    · exact SendAt.begin kept.sends last (fun ended => ended.not_running running) _

theorem kept_semPost (kept : server.Kept) {id : Nat} (posting : server.posting id) {recv : Recv}
    (receives : (server.semPost id).RecvAt recv) : {server.semPost id with recv}.Kept := by
  constructor
  · refine ⟨kept.reports,fun task bound => ⟨(kept.unstarted task bound).1,?_⟩,kept.older,kept.running,kept.wrote,
      kept.begun,receives⟩
    have apart : task ≠ id := by
      rintro rfl
      rw [(kept.unstarted task bound).2] at posting
      cases posting
    exact (Function.update_of_ne apart _ _).trans (kept.unstarted task bound).2
  · refine ⟨kept.earlier,fun task last ended => ?_,kept.busy,kept.sends,kept.truthful⟩
    exact (kept.last task last ended).imp_right fun pending => ⟨pending.1,Or.inr (Or.inl (Nat.succ_pos _))⟩

theorem kept_callback (kept : server.Kept) {id : Nat} {after : Server} (made : server.callback id = some after) :
    after.Kept := by
  rw [callback] at made
  split_ifs at made with own posting
  · obtain rfl := Option.some.inj made
    refine kept_semPost kept posting ?_
    have receives := kept.receives
    cases place : server.recv with
    | posting other =>
      rw [place] at receives
      have apart : other ≠ id := fun same => own (Or.inr (same ▸ place))
      exact ⟨receives.1,receives.2.1,(congrArg (· = true) (Function.update_of_ne apart _ _)).mpr receives.2.2⟩
    | resetting other =>
      rw [place] at receives
      refine ⟨receives.1,receives.2.1,?_⟩
      rcases eq_or_ne other id with rfl | apart
      · exact Function.update_self ..
      · exact (Function.update_of_ne apart _ _).trans receives.2.2
    | _ =>
      rw [place] at receives
      exact receives
  · obtain ⟨prog,next,rfl⟩ := Option.map_eq_some_iff.mp made
    refine kept_setProg kept next ?_
    have running := running_of_head next
    have last := (kept.running id running).1
    have receives := kept.receives
    cases place : server.recv with
    | selecting =>
      intro task last'
      obtain rfl : task = id := last.unique last'
      refine Or.inl ?_
      obtain ⟨rest,todo⟩ := List.head?_eq_some_iff.mp next
      simp [setProg,CryptThread.report_done todo]
    | starting other algo start =>
      rw [place] at receives
      obtain rfl : id = other := receives.1.unique last
      exact absurd (by rw [receives.2.1]; rfl) running
    | refusing other =>
      rw [place] at receives
      obtain rfl : id = other := receives.1.unique last
      exact absurd (Or.inl place) own
    | posting other =>
      rw [place] at receives
      obtain rfl : id = other := receives.1.unique last
      exact absurd (Or.inr place) own
    | resetting other =>
      rw [place] at receives
      obtain rfl : id = other := receives.1.unique last
      exact absurd running receives.2.1.not_running

theorem kept_reset (kept : server.Kept) {id : Nat} (place : server.recv = .resetting id)
    (sent : server.send = .waiting ∧ server.cpServerSem = 0) :
    {server with cpServerState := .idle, recv := .selecting}.Kept := by
  have receives := kept.receives
  rw [place] at receives
  obtain ⟨last,ended,posted⟩ := receives
  have idle := kept.all_ended last ended
  constructor
  · refine ⟨kept.reports,kept.unstarted,kept.older,fun task running => absurd running (idle task),kept.wrote,
      fun state => (by cases state),fun task last' => ?_⟩
    obtain rfl : task = id := last.unique last'
    exact Or.inl ended.2
  · have free : server.send.busy = false := by rw [sent.1]; rfl
    refine ⟨kept.earlier,fun task last' _ => Or.inl ?_,fun busy => ?_,sendAt_free free,kept.truthful⟩
    · obtain rfl : task = id := last.unique last'
      rcases kept.last task last ended with told | ⟨_,posting | sem | comes⟩
      · exact told
      · rw [posted] at posting
        cases posting
      · exact absurd sem (by rw [sent.2]; exact lt_irrefl _)
      · rw [sent.1] at comes
        exact comes.elim
    · exact absurd busy (by simp [free])

theorem doCrypt_ok {algo : MocftAlgo} {start : Start} {reports : List Int}
    (started : doCrypt algo start = .ok reports) :
    ∃ func outcome, start = .started outcome ∧ reports = outcome.reports func ∧
      (func = .base64 → algo = .base64) := by
  cases algo <;> cases start <;> simp only [doCrypt,Except.ok.injEq,reduceCtorEq] at started
  · exact ⟨.rc4,_,rfl,started.symm,fun same => by cases same⟩
  · exact ⟨.base64,_,rfl,started.symm,fun _ => rfl⟩

theorem kept_starting (kept : server.Kept) {id : Nat} {algo : MocftAlgo} {start : Start}
    (place : server.recv = .starting id algo start)
    (prompt : ∀ outcome, start = .started outcome →
      outcome.InRange ∧ (algo = .base64 → outcome ≠ .diffStateFailed))
    {after : Server} (made : server.recvReq = some after) : after.Kept := by
  simp only [recvReq,place] at made
  cases crypt : doCrypt algo start with
  | ok reports =>
    rw [crypt] at made
    obtain rfl := Option.some.inj made
    obtain ⟨func,outcome,rfl,rfl,base64⟩ := doCrypt_ok crypt
    obtain ⟨inRange,loud⟩ := prompt outcome rfl
    refine kept_startTask kept place ?_ (outcome.start_reports func inRange (fun _ final => final) ?_) (Or.inl rfl)
    · obtain ⟨front,last,split,_⟩ := outcome.reports_split func inRange
      rw [split]
      exact List.append_ne_nil_of_right_ne_nil _ (List.cons_ne_nil _ _)
    · exact fun same failed => absurd failed (loud (base64 same))
  | error ret =>
    rw [crypt] at made
    obtain rfl := Option.some.inj made
    refine kept_startTask kept place (List.cons_ne_nil _ _) ?_ (Or.inr ⟨rfl,_,rfl⟩)
    refine CryptThread.reports_start (by simp) fun prog last => ?_
    obtain rfl := Option.some.inj last
    exact Or.inr ret.property

theorem kept_recvReq (kept : server.Kept) (prompt : server.recvPrompt server.recv) {after : Server}
    (made : server.recvReq = some after) : after.Kept := by
  have receives := kept.receives
  cases place : server.recv with
  | selecting =>
    simp only [recvReq,place] at made
    cases made
  | starting id algo start =>
    rw [place] at prompt
    refine kept_starting kept place ?_ made
    rintro outcome rfl
    exact prompt
  | refusing id =>
    rw [place] at receives
    obtain ⟨last,ret,todo⟩ := receives
    simp only [recvReq,place,todo,List.head?_cons,Option.map_some,Option.some.injEq] at made
    subst made
    refine kept_setProg kept (by rw [todo]; rfl) ⟨last,?_,Function.update_self ..⟩
    have here : (server.setProg id ret).tasks id = ⟨(server.tasks id).done ++ [ret],[]⟩ :=
      (Function.update_self ..).trans (CryptThread.report_done todo)
    rw [here]
    exact ⟨rfl,List.append_ne_nil_of_right_ne_nil _ (List.cons_ne_nil _ _)⟩
  | posting id =>
    rw [place] at receives
    simp only [recvReq,place,Option.some.injEq] at made
    subst made
    exact kept_semPost kept receives.2.2 ⟨receives.1,receives.2.1,Function.update_self ..⟩
  | resetting id =>
    rw [place] at prompt
    simp only [recvReq,place,Option.some.injEq] at made
    subst made
    exact kept_reset kept place prompt

theorem Kept.sender (kept : server.Kept) {cpServerSem : Nat} {send : Send} {sent : List Message}
    (earlier : server.sent ⊆ sent)
    (comes : ∀ id, server.IsLast id → Ended (server.tasks id) → 0 < server.cpServerSem ∨ server.send.comes →
      (∃ message ∈ sent, message.writer = some id ∧ Final message.value) ∨ 0 < cpServerSem ∨ send.comes)
    (busy : send.busy → server.cpServerState = .crypting)
    (sends : {server with cpServerSem, send, sent}.SendAt send)
    (truthful : ∀ message ∈ sent, ¬ Underway message.value → message.ended ∧ message.writer = some message.task) :
    {server with cpServerSem, send, sent}.Kept := by
  constructor
  · exact ⟨kept.reports,kept.unstarted,kept.older,kept.running,kept.wrote,kept.begun,kept.receives⟩
  · refine ⟨fun id old => ?_,fun id last ended => ?_,busy,sends,truthful⟩
    · obtain ⟨message,among,own⟩ := kept.earlier id old
      exact ⟨message,earlier among,own⟩
    · rcases kept.last id last ended with ⟨message,among,own⟩ | ⟨state,posting | coming⟩
      · exact Or.inl ⟨message,earlier among,own⟩
      · exact Or.inr ⟨state,Or.inl posting⟩
      · exact (comes id last ended coming).imp_right fun coming => ⟨state,Or.inr coming⟩

theorem Kept.last_of_progress (kept : server.Kept) (state : server.cpServerState = .crypting)
    (prompt : (server.tasks (server.started-1)).done = [] → Underway server.cpServerProgress)
    (ends : ¬ Underway server.cpServerProgress) :
    ∃ id, server.IsLast id ∧ Ended (server.tasks id) ∧ Final server.cpServerProgress ∧
      server.writer = some id := by
  have last : server.IsLast (server.started-1) := Nat.sub_add_cancel (kept.begun state)
  have reported : (server.tasks (server.started-1)).done ≠ [] := fun none => ends (prompt none)
  obtain ⟨wrote,writer⟩ := kept.wrote _ last reported
  obtain ⟨todo,final⟩ := (kept.reports _).ended wrote ends
  exact ⟨_,last,⟨todo,reported⟩,final,writer⟩

theorem Kept.final_progress (kept : server.Kept) {id : Nat} (last : server.IsLast id)
    (ended : Ended (server.tasks id)) : Final server.cpServerProgress :=
  (kept.reports id).last ended.1 _ (kept.wrote id last ended.2).1

theorem kept_loading (kept : server.Kept) (place : server.send = .loading)
    (prompt : (server.tasks (server.started-1)).done = [] → Underway server.cpServerProgress) :
    {server with send := .sending server.cpServerProgress server.writer}.Kept := by
  have state := kept.busy (by rw [place]; rfl)
  exact kept.sender (List.Subset.refl _) (fun id last ended _ => Or.inr (Or.inr (kept.final_progress last ended)))
    (fun _ => state) (kept.last_of_progress state prompt) kept.truthful

theorem kept_sending (kept : server.Kept) {value : Int} {writer : Option Nat}
    (place : server.send = .sending value writer) :
    {server with sent := server.sent ++ [server.message value writer], send := .checking value}.Kept := by
  have state := kept.busy (by rw [place]; rfl)
  have sends := kept.sends
  rw [place] at sends
  have told : ∀ id, writer = some id → Final value →
      ∃ message ∈ server.sent ++ [server.message value writer], message.writer = some id ∧ Final message.value :=
    fun id own final => ⟨_,List.mem_concat_self,own,final⟩
  refine kept.sender (List.subset_append_left ..) (fun id last _ coming => ?_) (fun _ => state) (fun ends => ?_)
    fun message among ends => ?_
  · rcases coming with sem | final
    · exact Or.inr (Or.inl sem)
    · rw [place] at final
      obtain ⟨other,last',_,_,own⟩ := sends (Final.not_underway final)
      obtain rfl := last.unique last'
      exact Or.inl (told other own final)
  · obtain ⟨id,last,ended,final,own⟩ := sends ends
    exact ⟨id,last,ended,told id own final⟩
  · rcases List.mem_append.mp among with old | new
    · exact kept.truthful message old ends
    · obtain rfl := List.mem_singleton.mp new
      obtain ⟨id,last,ended,_,own⟩ := sends ends
      obtain rfl : id = server.started-1 := Nat.eq_sub_of_add_eq last
      exact ⟨decide_eq_true ended,own⟩

theorem kept_checked (kept : server.Kept) {value : Int}
    (place : server.send = .checking value ∨ server.send = .negative value) {send : Send}
    (told : send = .waiting ∨ send = .negative value ∨ send = .ending ∧ ¬ Underway value) :
    {server with send}.Kept := by
  have state := kept.busy (by rcases place with place | place <;> rw [place] <;> rfl)
  have sends : ¬ Underway value → ∃ id, server.IsLast id ∧ Ended (server.tasks id) ∧ server.Told id := by
    have sends := kept.sends
    rcases place with place | place <;> rw [place] at sends <;> exact sends
  refine kept.sender (List.Subset.refl _) (fun id last _ coming => ?_) (fun _ => state) ?_ kept.truthful
  · rcases coming with sem | comes
    · exact Or.inr (Or.inl sem)
    · rcases place with place | place <;> rw [place] at comes <;> exact comes.elim
  · rcases told with rfl | rfl | ⟨rfl,ends⟩
    · trivial
    · exact sends
    · exact sends ends

theorem kept_ending (kept : server.Kept) (place : server.send = .ending) :
    {server with cpServerState := .idle, send := .waiting}.Kept := by
  have sends := kept.sends
  rw [place] at sends
  obtain ⟨id,last,ended,told⟩ := sends
  have idle := kept.all_ended last ended
  constructor
  · refine ⟨kept.reports,kept.unstarted,kept.older,fun task running => absurd running (idle task),kept.wrote,
      fun state => (by cases state),?_⟩
    have receives := kept.receives
    cases here : server.recv with
    | starting other algo start =>
      rw [here] at receives
      obtain rfl := last.unique receives.1
      rw [receives.2.1] at ended
      exact absurd rfl ended.2
    | _ =>
      rw [here] at receives
      exact receives
  · refine ⟨kept.earlier,fun task last' _ => Or.inl ?_,fun busy => (by cases busy),trivial,kept.truthful⟩
    obtain rfl := last.unique last'
    exact told

theorem kept_sendProg (kept : server.Kept) (prompt : server.sendPrompt server.send) {after : Server}
    (made : server.sendProg = some after) : after.Kept := by
  cases place : server.send with
  | waiting =>
    simp only [sendProg,place] at made
    split_ifs at made
    obtain rfl := Option.some.inj made
    exact kept.sender (List.Subset.refl _) (fun _ _ _ _ => Or.inr (Or.inr trivial)) (fun busy => (by cases busy))
      trivial kept.truthful
  | woken =>
    simp only [sendProg,place,Option.some.injEq] at made
    subst made
    split_ifs with idle
    · exact kept.sender (List.Subset.refl _) (fun id last ended _ => Or.inl (kept.all_told idle last ended))
        (fun busy => (by cases busy)) trivial kept.truthful
    · have state : server.cpServerState = .crypting := by
        cases here : server.cpServerState with
        | idle => exact absurd here idle
        | crypting => rfl
      exact kept.sender (List.Subset.refl _) (fun _ _ _ _ => Or.inr (Or.inr trivial)) (fun _ => state) trivial
        kept.truthful
  | loading =>
    simp only [sendProg,place,Option.some.injEq] at made
    subst made
    rw [place] at prompt
    exact kept_loading kept place prompt
  | sending value writer =>
    simp only [sendProg,place,Option.some.injEq] at made
    subst made
    exact kept_sending kept place
  | checking value =>
    simp only [sendProg,place,Option.some.injEq] at made
    subst made
    rw [place] at prompt
    refine kept_checked kept (Or.inl place) ?_
    split_ifs with all
    · exact Or.inr (Or.inr ⟨rfl,prompt all⟩)
    · exact Or.inr (Or.inl rfl)
  | negative value =>
    simp only [sendProg,place,Option.some.injEq] at made
    subst made
    rw [place] at prompt
    refine kept_checked kept (Or.inr place) ?_
    split_ifs with failed
    · exact Or.inr (Or.inr ⟨rfl,prompt failed⟩)
    · exact Or.inl rfl
  | ending =>
    simp only [sendProg,place,Option.some.injEq] at made
    subst made
    exact kept_ending kept place

theorem kept_next (kept : server.Kept) (enabled : cpServer.Enabled server event) (prompt : server.prompt event) :
    (cpServer.next server event).Kept := by
  obtain ⟨after,made⟩ := Option.isSome_iff_exists.mp enabled
  rw [show cpServer.next server event = after from congrArg (Option.getD · server) made]
  cases event with
  | request algo start =>
    simp only [step,request] at made
    split at made
    · rename_i recv
      obtain rfl := Option.some.inj made
      split
      · exact kept_request kept recv ‹_› algo start
      · exact kept
    · cases made
  | recv => exact kept_recvReq kept prompt made
  | send => exact kept_sendProg kept prompt made
  | callback id => exact kept_callback kept made

theorem Quiet.selecting (quiet : server.Quiet) (kept : server.Kept) : server.recv = .selecting := by
  have idle := quiet .recv trivial
  have receives := kept.receives
  simp only [cpServer,step,recvReq] at idle
  cases place : server.recv with
  | selecting => rfl
  | refusing id =>
    rw [place] at receives idle
    obtain ⟨_,ret,todo⟩ := receives
    simp [todo] at idle
  | _ => simp [place] at idle

theorem Quiet.waiting (quiet : server.Quiet) : server.send = .waiting ∧ server.cpServerSem = 0 := by
  have idle := quiet .send trivial
  simp only [cpServer,step,sendProg] at idle
  cases place : server.send with
  | waiting =>
    refine ⟨rfl,?_⟩
    by_contra more
    simp [place,more] at idle
  | _ => simp [place] at idle

theorem Quiet.task (quiet : server.Quiet) (recv : server.recv = .selecting) (id : Nat) :
    ¬ (server.tasks id).Running ∧ server.posting id = false := by
  have idle := quiet (.callback id) trivial
  simp only [cpServer,step,callback,recv,reduceCtorEq,or_self,if_false] at idle
  split_ifs at idle with posting
  · exact absurd rfl idle
  · refine ⟨fun running => idle ?_,by simpa using posting⟩
    obtain ⟨prog,rest,todo⟩ := List.exists_cons_of_ne_nil running
    rw [todo]
    rfl

theorem Kept.reported (kept : server.Kept) : server.Reported := by
  refine ⟨kept.truthful,kept.idle_running,fun quiet id bound => ?_⟩
  have recv := quiet.selecting kept
  obtain ⟨idle,posted⟩ := quiet.task recv id
  rcases Nat.lt_or_ge (id+1) server.started with old | newest
  · exact kept.earlier id old
  · have last : server.IsLast id := Nat.le_antisymm bound newest
    rcases kept.last id last (kept.ended recv last idle) with told | ⟨_,posting | sem | comes⟩
    · exact told
    · rw [posted] at posting
      cases posting
    · rw [quiet.waiting.2] at sem
      exact absurd sem (lt_irrefl _)
    · rw [quiet.waiting.1] at comes
      exact comes.elim

end Server

theorem cpServerInit_kept : cpServerInit.Kept where
  reports _ := ⟨fun running => absurd rfl running,fun _ among => (by cases among),fun _ last => (by cases last),
    fun _ _ last => (by cases last)⟩
  unstarted _ _ := ⟨rfl,rfl⟩
  older _ bound := absurd bound (Nat.not_lt_zero _)
  running _ running := absurd rfl running
  wrote _ last := absurd last (Nat.succ_ne_zero _)
  begun state := by cases state
  receives _ last := absurd last (Nat.succ_ne_zero _)
  earlier _ bound := absurd bound (Nat.not_lt_zero _)
  last _ last := absurd last (Nat.succ_ne_zero _)
  busy busy := by cases busy
  sends := trivial
  truthful _ among := by cases among

/-- In a run in which no end of an earlier task is read as the progress of the last one, the sender
stops only for an end that it has sent, and a refusal is sent before the state is idle again, the
client is sent an end of each task, and none before the task has ended. -/
theorem tasks_reported {server : Server} (run : cpServer.Run Server.prompt cpServerInit server) :
    server.Reported :=
  (run_invariant cpServerInit_kept Server.kept_next run).reported

/-- One RC4 task; after the last report the progress is sent. -/
def oneTask : List Event :=
  [.request .rc4 (.started (.crypted [90])),.recv] ++ List.replicate 12 (.callback 0) ++ List.replicate 5 .send

theorem tasks_reported_one : (oneTask.foldl cpServer.next cpServerInit).sent = [⟨100,some 0,0,true⟩] ∧
    (oneTask.foldl cpServer.next cpServerInit).Reported := by
  have follows : cpServer.Follows Server.prompt cpServerInit oneTask := by decide
  exact ⟨by decide,tasks_reported (run_of_events follows .start)⟩

def invalidKey : Err := ⟨-20003,by decide⟩

/-- A task whose key is refused. The state is idle when the sender looks at it. -/
def refusedTask : List Event :=
  [.request .rc4 (.refused invalidKey)] ++ List.replicate 4 .recv ++ List.replicate 2 .send

def refusedServer : Server where
  cpServerState := .idle
  cpServerProgress := invalidKey.val
  writer := some 0
  cpServerSem := 0
  recv := .selecting
  send := .waiting
  started := 1
  tasks :=
    Function.update (Function.update (fun _ => .none) 0 (.start [invalidKey.val])) 0 ⟨[invalidKey.val],[]⟩
  posting := Function.update (Function.update (fun _ => false) 0 true) 0 false
  sent := []

theorem refusal_unsent : cpServer.Follows anyEvent cpServerInit refusedTask ∧
    refusedTask.foldl cpServer.next cpServerInit = refusedServer ∧ refusedServer.Quiet ∧
    Ended (refusedServer.tasks 0) ∧ refusedServer.sent = [] ∧ ¬ refusedServer.Reported := by
  have quiet : refusedServer.Quiet := by
    rintro (_ | _ | _ | id) own
    · exact own.elim
    · decide
    · decide
    · rcases eq_or_ne id 0 with rfl | apart
      · decide
      · simp [cpServer,Server.step,Server.callback,refusedServer,apart,CryptThread.none]
  refine ⟨by decide,rfl,quiet,by decide,rfl,fun reported => ?_⟩
  obtain ⟨message,among,_⟩ := reported.told quiet 0 (by decide)
  cases among

end MoCodes.CryptFileTool.CpServer
