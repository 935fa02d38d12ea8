import MoCodes.Lib.Transition

/-! The loop of `cpServerRecvReq` in cpSocket.cpp. Clients connect one after another, send requests
and disconnect; the loop takes what `select` shows it. -/
namespace MoCodes.CryptFileTool.CpRecv
open Lib.Transition

def mocftInvalidSockId : Int := -1

/-- Clients are numbered as they connect. `backlog` are those that have not been accepted, `clients`
tells whose a descriptor is, and `peer` is the client that is connected now. -/
structure CpServer (ρ : Type) where
  looping : Bool
  cpServerCliSockId : Int
  clients : Int → Option Nat
  backlog : List Nat
  connected : Nat
  peer : Option Nat
  asked : Nat → List ρ
  unread : Nat → List ρ
  read : Nat → List ρ

/-- What a client does, or one pass of the loop with the descriptor that `accept` returns if it is
called. -/
inductive Event (ρ : Type) where
  | connect
  | request (req : ρ)
  | disconnect
  | loop (fd : Int)

inductive Ready where
  | timeout
  | listener
  | client (id : Nat)
deriving DecidableEq

namespace CpServer

variable {ρ : Type}

/-- The descriptor that is looked at, the listening one first. A client can be read when it has sent
something and when it is gone. -/
def select (server : CpServer ρ) : Ready :=
  match server.backlog,server.clients server.cpServerCliSockId with
  | _ :: _,_ => .listener
  | [],none => .timeout
  | [],some id => if (server.unread id).isEmpty ∧ server.peer = some id then .timeout else .client id

def accept (server : CpServer ρ) (fd : Int) : CpServer ρ :=
  { server with
    cpServerCliSockId := fd
    clients := Function.update server.clients fd server.backlog.head?
    backlog := server.backlog.tail }

/-- `recv` gives a whole request, or nothing when the client is gone, and then the loop goes on. -/
def recv (server : CpServer ρ) (id : Nat) : CpServer ρ :=
  match server.unread id with
  | [] => server
  | req :: rest =>
    { server with
      unread := Function.update server.unread id rest
      read := Function.update server.read id (server.read id ++ [req]) }

def cpServerRecvReq (server : CpServer ρ) (fd : Int) : CpServer ρ :=
  match server.select with
  | .timeout => server
  | .listener => if 0 < server.cpServerCliSockId then {server with looping := false} else server.accept fd
  | .client id => server.recv id

/-- The next pass of the loop, if it has not ended. -/
def pass (server : CpServer ρ) (fd : Int) : CpServer ρ :=
  if server.looping then server.cpServerRecvReq fd else server

def connect (server : CpServer ρ) : CpServer ρ :=
  { server with
    backlog := server.backlog ++ [server.connected]
    connected := server.connected+1
    peer := some server.connected }

def request (server : CpServer ρ) (id : Nat) (req : ρ) : CpServer ρ :=
  { server with
    asked := Function.update server.asked id (server.asked id ++ [req])
    unread := Function.update server.unread id (server.unread id ++ [req]) }

/-- One client is connected at a time. A descriptor of a client is positive, since 0 has been taken
before, by the standard input or the listening socket. -/
def step (server : CpServer ρ) : Event ρ → Option (CpServer ρ)
  | .connect => if server.peer.isSome then none else some server.connect
  | .request req => server.peer.map (server.request · req)
  | .disconnect => server.peer.map fun _ => {server with peer := none}
  | .loop fd => if server.looping ∧ 0 < fd then some (server.cpServerRecvReq fd) else none

/-- The loop goes on, all clients have been accepted, and all of their requests have been read. -/
structure Settled (server : CpServer ρ) : Prop where
  looping : server.looping
  accepted : ∀ id < server.connected, ∃ fd, server.clients fd = some id
  read : ∀ id < server.connected, server.read id = server.asked id

/-- The loop goes on, and after some passes all that has come is done. -/
structure Available (server : CpServer ρ) : Prop where
  looping : server.looping
  serves : ∃ count, ∀ fds : List Int, (∀ fd ∈ fds, 0 < fd) → count ≤ fds.length →
    (fds.foldl pass server).Settled

def first (server : CpServer ρ) : Event ρ → Prop
  | .connect => server.connected = 0
  | _ => True

end CpServer

def cpRecv (ρ : Type) : System (CpServer ρ) (Event ρ) where
  Enabled server event := (server.step event).isSome
  next server event := (server.step event).getD server

instance {ρ : Type} (server : CpServer ρ) (event : Event ρ) : Decidable ((cpRecv ρ).Enabled server event) :=
  inferInstanceAs (Decidable (_ = true))

instance {ρ : Type} (server : CpServer ρ) : (event : Event ρ) → Decidable (server.first event)
  | .connect => inferInstanceAs (Decidable (server.connected = 0))
  | .request _ => instDecidableTrue
  | .disconnect => instDecidableTrue
  | .loop _ => instDecidableTrue

def cpServerInit (ρ : Type) : CpServer ρ :=
  ⟨true,mocftInvalidSockId,fun _ => none,[],0,none,fun _ => [],fun _ => [],fun _ => []⟩

namespace CpServer

variable {ρ : Type} {server : CpServer ρ} {event : Event ρ} {fd : Int}

/-- Nobody has connected, or the only client waits, or it has been accepted. -/
def Place (server : CpServer ρ) : Prop :=
  server.connected = 0 ∧ server.backlog = [] ∧ server.cpServerCliSockId ≤ 0 ∧
      server.clients server.cpServerCliSockId = none ∨
    server.connected = 1 ∧ server.backlog = [0] ∧ server.cpServerCliSockId ≤ 0 ∨
    server.connected = 1 ∧ server.backlog = [] ∧ 0 < server.cpServerCliSockId ∧
      server.clients server.cpServerCliSockId = some 0

structure Kept (server : CpServer ρ) : Prop where
  looping : server.looping
  whole : ∀ id, server.asked id = server.read id ++ server.unread id
  unsent : ∀ id, server.connected ≤ id → server.unread id = []
  peer : ∀ id, server.peer = some id → id < server.connected
  known : ∀ fd id, server.clients fd = some id → id < server.connected
  place : server.Place

/-- What the loop has still to do for the only client. -/
def left (server : CpServer ρ) : Nat := server.backlog.length + (server.unread 0).length

theorem kept_accept (kept : server.Kept) (one : server.connected = 1) (waits : server.backlog = [0])
    (positive : 0 < fd) : (server.accept fd).Kept where
  looping := kept.looping
  whole := kept.whole
  unsent := kept.unsent
  peer := kept.peer
  known := by
    intro other id whose
    rcases eq_or_ne other fd with rfl | apart
    · have taken : (server.accept other).clients other = server.backlog.head? := Function.update_self ..
      rw [taken,waits] at whose
      obtain rfl := Option.some.inj whose
      exact one ▸ Nat.one_pos
    · have same : (server.accept fd).clients other = server.clients other := Function.update_of_ne apart _ _
      exact kept.known other id (same ▸ whose)
  place := by
    refine Or.inr (Or.inr ⟨one,?_,positive,?_⟩)
    · rw [accept,waits]
      rfl
    · have taken : (server.accept fd).clients fd = server.backlog.head? := Function.update_self ..
      rw [waits] at taken
      exact taken

theorem kept_recv (kept : server.Kept) (one : server.connected = 1) :
    (server.recv 0).Kept ∧ (server.recv 0).left = server.backlog.length + ((server.unread 0).length - 1) := by
  rw [recv]
  cases unread : server.unread 0 with
  | nil => exact ⟨kept,by rw [left,unread]; rfl⟩
  | cons req rest =>
    refine ⟨⟨kept.looping,fun id => ?_,fun id bound => ?_,kept.peer,kept.known,kept.place⟩,?_⟩
    · rcases eq_or_ne id 0 with rfl | apart
      · simp [kept.whole,unread]
      · simp [kept.whole,apart]
    · have apart : id ≠ 0 := by
        rintro rfl
        exact absurd bound (by simp [one])
      simpa [apart] using kept.unsent id bound
    · simp [left]

theorem kept_pass (kept : server.Kept) (positive : 0 < fd) :
    (server.cpServerRecvReq fd).Kept ∧ (server.cpServerRecvReq fd).left = server.left-1 := by
  rcases kept.place with ⟨none,empty,_,nobody⟩ | ⟨one,waits,free⟩ | ⟨one,empty,taken,whose⟩
  · have idle : server.cpServerRecvReq fd = server := by simp [cpServerRecvReq,select,empty,nobody]
    have unread := kept.unsent 0 none.le
    rw [idle]
    exact ⟨kept,by simp [left,empty,unread]⟩
  · have accepts : server.cpServerRecvReq fd = server.accept fd := by
      simp [cpServerRecvReq,select,waits,not_lt.mpr free]
    rw [accepts]
    exact ⟨kept_accept kept one waits positive,by simp [left,accept,waits]⟩
  · have receives : server.cpServerRecvReq fd = server.recv 0 := by
      simp only [cpServerRecvReq,select,empty,whose]
      split_ifs with idle
      · rw [recv,List.isEmpty_iff.mp idle.1]
      · rfl
    obtain ⟨after,less⟩ := kept_recv kept one
    rw [receives]
    refine ⟨after,?_⟩
    rw [less,left,empty]
    simp

theorem kept_passes (kept : server.Kept) (fds : List Int) (positive : ∀ fd ∈ fds, 0 < fd) :
    (fds.foldl pass server).Kept ∧ (fds.foldl pass server).left = server.left-fds.length := by
  induction fds generalizing server with
  | nil => exact ⟨kept,rfl⟩
  | cons fd fds ih =>
    obtain ⟨next,less⟩ := kept_pass kept (positive fd List.mem_cons_self)
    have passes : server.pass fd = server.cpServerRecvReq fd := if_pos kept.looping
    obtain ⟨last,rest⟩ := ih next fun other among => positive other (List.mem_cons_of_mem _ among)
    rw [List.foldl_cons,passes]
    refine ⟨last,?_⟩
    rw [rest,less,List.length_cons]
    omega

theorem Kept.settled (kept : server.Kept) (done : server.left = 0) : server.Settled := by
  obtain ⟨backlog,unread⟩ := Nat.add_eq_zero_iff.mp done
  refine ⟨kept.looping,fun id bound => ?_,fun id bound => ?_⟩
  · rcases kept.place with ⟨none,_⟩ | ⟨_,waits,_⟩ | ⟨one,_,_,whose⟩
    · omega
    · simp [waits] at backlog
    · obtain rfl : id = 0 := by omega
      exact ⟨_,whose⟩
  · have first : id = 0 := by
      rcases kept.place with ⟨none,_⟩ | ⟨one,_⟩ | ⟨one,_⟩ <;> omega
    rw [kept.whole id,first,List.length_eq_zero_iff.mp unread,List.append_nil]

theorem Kept.available (kept : server.Kept) : server.Available := by
  refine ⟨kept.looping,server.left,fun fds positive enough => ?_⟩
  obtain ⟨last,rest⟩ := kept_passes kept fds positive
  exact last.settled (by omega)

theorem kept_connect (kept : server.Kept) (nobody : server.connected = 0) : server.connect.Kept := by
  have place : server.connect.Place := by
    rcases kept.place with ⟨_,empty,free,_⟩ | ⟨one,_⟩ | ⟨one,_⟩
    · refine Or.inr (Or.inl ⟨congrArg (·+1) nobody,?_,free⟩)
      rw [connect,empty,nobody]
      rfl
    · omega
    · omega
  refine ⟨kept.looping,kept.whole,fun id bound => kept.unsent id (Nat.le_of_succ_le bound),fun id here => ?_,
    fun fd id whose => Nat.lt_succ_of_lt (kept.known fd id whose),place⟩
  obtain rfl := Option.some.inj here
  exact Nat.lt_succ_self _

theorem kept_request (kept : server.Kept) {id : Nat} (here : server.peer = some id) (req : ρ) :
    (server.request id req).Kept := by
  refine ⟨kept.looping,fun other => ?_,fun other bound => ?_,kept.peer,kept.known,kept.place⟩
  · rcases eq_or_ne other id with rfl | apart
    · simp [request,kept.whole]
    · simp [request,kept.whole,apart]
  · have apart : other ≠ id := by
      rintro rfl
      exact absurd (kept.peer other here) (not_lt.mpr bound)
    simpa [request,apart] using kept.unsent other bound

theorem kept_next (kept : server.Kept) (enabled : (cpRecv ρ).Enabled server event) (ok : server.first event) :
    ((cpRecv ρ).next server event).Kept := by
  obtain ⟨after,made⟩ := Option.isSome_iff_exists.mp enabled
  rw [show (cpRecv ρ).next server event = after from congrArg (Option.getD · server) made]
  cases event with
  | connect =>
    simp only [step] at made
    split_ifs at made
    obtain rfl := Option.some.inj made
    exact kept_connect kept ok
  | request req =>
    obtain ⟨id,here,rfl⟩ := Option.map_eq_some_iff.mp made
    exact kept_request kept here req
  | disconnect =>
    obtain ⟨id,_,rfl⟩ := Option.map_eq_some_iff.mp made
    exact ⟨kept.looping,kept.whole,kept.unsent,fun _ gone => (by cases gone),kept.known,kept.place⟩
  | loop fd =>
    simp only [step] at made
    split_ifs at made with goes
    obtain rfl := Option.some.inj made
    exact (kept_pass kept goes.2).1

/-- A second client has connected. -/
structure Blocked (server : CpServer ρ) : Prop where
  connected : server.connected = 2
  waits : ∀ fd, server.clients fd ≠ some 1
  place : server.backlog = [0,1] ∨ server.backlog = [1] ∧ 0 < server.cpServerCliSockId

theorem blocked_connect (kept : server.Kept) (again : server.connected ≠ 0) : server.connect.Blocked := by
  have one : server.connected = 1 := by
    rcases kept.place with ⟨none,_⟩ | ⟨one,_⟩ | ⟨one,_⟩
    · exact absurd none again
    · exact one
    · exact one
  refine ⟨congrArg (·+1) one,fun fd whose => ?_,?_⟩
  · exact absurd (kept.known fd 1 whose) (by omega)
  · rcases kept.place with ⟨none,_⟩ | ⟨_,waits,_⟩ | ⟨_,empty,taken,_⟩
    · exact absurd none again
    · refine Or.inl ?_
      rw [connect,waits,one]
      rfl
    · refine Or.inr ⟨?_,taken⟩
      rw [connect,empty,one]
      rfl

theorem blocked_pass (blocked : server.Blocked) (positive : 0 < fd) : (server.pass fd).Blocked := by
  rw [pass]
  split_ifs
  · have listens : server.select = .listener := by
      rcases blocked.place with both | ⟨second,_⟩
      · rw [select,both]
      · rw [select,second]
    simp only [cpServerRecvReq,listens]
    split_ifs with taken
    · exact ⟨blocked.connected,blocked.waits,blocked.place⟩
    · have both : server.backlog = [0,1] := blocked.place.resolve_right fun second => taken second.2
      refine ⟨blocked.connected,fun other whose => ?_,Or.inr ⟨by rw [accept,both]; rfl,positive⟩⟩
      rcases eq_or_ne other fd with rfl | apart
      · have first : (server.accept other).clients other = server.backlog.head? := Function.update_self ..
        rw [first,both] at whose
        cases whose
      · have same : (server.accept fd).clients other = server.clients other := Function.update_of_ne apart _ _
        exact blocked.waits other (same ▸ whose)
  · exact blocked

theorem blocked_passes (blocked : server.Blocked) (fds : List Int) (positive : ∀ fd ∈ fds, 0 < fd) :
    (fds.foldl pass server).Blocked := by
  induction fds generalizing server with
  | nil => exact blocked
  | cons fd fds ih =>
    exact ih (blocked_pass blocked (positive fd List.mem_cons_self))
      fun other among => positive other (List.mem_cons_of_mem _ among)

theorem Blocked.not_available (blocked : server.Blocked) : ¬ server.Available := by
  rintro ⟨_,count,settles⟩
  have positive : ∀ fd ∈ List.replicate count (1 : Int), 0 < fd :=
    fun fd among => List.eq_of_mem_replicate among ▸ Int.one_pos
  have after := blocked_passes blocked _ positive
  have settled := settles _ positive (List.length_replicate ..).ge
  obtain ⟨fd,whose⟩ := settled.accepted 1 (by rw [after.connected]; exact Nat.one_lt_two)
  exact after.waits fd whose

theorem first_of_available (kept : server.Kept) (enabled : (cpRecv ρ).Enabled server event)
    (available : ((cpRecv ρ).next server event).Available) : server.first event := by
  cases event with
  | connect =>
    by_contra again
    obtain ⟨after,made⟩ := Option.isSome_iff_exists.mp enabled
    rw [show (cpRecv ρ).next server .connect = after from congrArg (Option.getD · server) made] at available
    simp only [step] at made
    split_ifs at made
    obtain rfl := Option.some.inj made
    exact (blocked_connect kept again).not_available available
  | _ => trivial

end CpServer

theorem cpServerInit_kept (ρ : Type) : (cpServerInit ρ).Kept where
  looping := rfl
  whole _ := rfl
  unsent _ _ := rfl
  peer _ here := by cases here
  known _ _ whose := by cases whose
  place := Or.inl ⟨rfl,rfl,(by decide : mocftInvalidSockId ≤ 0),rfl⟩

/-- The loop goes on and serves all clients exactly as long as only one has connected. -/
theorem available_iff {ρ : Type} {events : List (Event ρ)}
    (follows : (cpRecv ρ).Follows anyEvent (cpServerInit ρ) events) :
    (∀ front, front <+: events → (front.foldl (cpRecv ρ).next (cpServerInit ρ)).Available) ↔
      (cpRecv ρ).Follows CpServer.first (cpServerInit ρ) events :=
  follows_iff_kept (I := CpServer.Kept) CpServer.kept_next CpServer.first_of_available CpServer.Kept.available
    (cpServerInit_kept ρ) follows

/-- The client connects, sends two requests, and is gone. -/
def oneClient : List (Event String) := [.connect,.loop 5,.request "rc4",.loop 6,.request "base64",.disconnect]

theorem available_one : (oneClient.foldl (cpRecv String).next (cpServerInit String)).Available :=
  (available_iff (by decide)).mpr (by decide) oneClient List.prefix_rfl

/-- The pass after the first client is gone receives nothing, and the one after the second client has
come ends the loop. -/
def twoClients : List (Event String) := [.connect,.loop 5,.disconnect,.loop 6,.connect,.loop 6]

theorem loop_ended : (cpRecv String).Follows anyEvent (cpServerInit String) twoClients ∧
    (twoClients.foldl (cpRecv String).next (cpServerInit String)).looping = false ∧
    (twoClients.foldl (cpRecv String).next (cpServerInit String)).backlog = [1] ∧
    ¬ (twoClients.foldl (cpRecv String).next (cpServerInit String)).Available := by
  have ended : (twoClients.foldl (cpRecv String).next (cpServerInit String)).looping = false := by decide
  refine ⟨by decide,ended,by decide,fun available => ?_⟩
  rw [available.looping] at ended
  cases ended

end MoCodes.CryptFileTool.CpRecv
