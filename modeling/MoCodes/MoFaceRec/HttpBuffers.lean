import MoCodes.Lib.Transition
import Mathlib.Data.List.Perm.Basic
import Mathlib.Data.List.Range

/-! The buffer of a request's data. `ev_handler` allocates it, a worker has it, and
`on_work_complete` gives it back when it finds the connection of the request. -/
namespace MoCodes.MoFaceRec.HttpServer
open Lib.Transition

/-- What `httpSerAddEndpoint` has registered: a method, and which urls its expression matches. -/
structure HSEpNode where
  cMethod : String
  stRegex : String → Bool

/-- An accepted connection; `nc` tells it from all others. -/
structure Connection where
  nc : Nat
  user_data : UInt64

/-- A request that a worker has and not answered. `nc` is the connection it came from. -/
structure WorkRequest where
  conn_id : UInt64
  reqData : Nat
  nc : Nat
deriving DecidableEq

structure WorkResult where
  conn_id : UInt64
  status : Nat
  reqData : Option Nat
  result : Option String

/-- What was written to the connection `nc` for a request of `origin`. -/
structure Response where
  origin : Nat
  nc : Nat
  status : Nat
  chunk : String

structure Server where
  gHSEpList : List HSEpNode
  s_next_id : UInt64
  connections : List Connection
  requests : List WorkRequest
  accepted : Nat
  allocated : Nat
  freed : List Nat
  responses : List Response

/-- The url is the one behind `getPureUrl`. -/
inductive Event where
  | accept
  | request (nc : Nat) (method url : String)
  | close (nc : Nat)
  | complete (reqData status : Nat) (result : Option String)

/-- `c->user_data != NULL` and `(unsigned long)c->user_data == res->conn_id`. -/
def Connection.hasId (c : Connection) (conn_id : UInt64) : Bool := c.user_data != 0 && c.user_data == conn_id

namespace Server

/-- One pass of the loop over the connections. What is freed is set to `NULL`. -/
def respond (origin : Nat) (state : Server × WorkResult) (c : Connection) : Server × WorkResult :=
  let (server,res) := state
  if c.hasId res.conn_id then
    ({ server with
        responses := server.responses ++ [⟨origin,c.nc,res.status,res.result.getD ""⟩]
        freed := server.freed ++ res.reqData.toList },
      {res with reqData := none, result := none})
  else (server,res)

def on_work_complete (server : Server) (origin : Nat) (res : WorkResult) : Server :=
  (server.connections.foldl (respond origin) (server,res)).1

/-- `MG_EV_ACCEPT`. The number 0 would be no `user_data`. -/
def accept (server : Server) : Server :=
  let s_next_id := server.s_next_id+1
  { server with
    s_next_id
    connections := ⟨server.accepted,if s_next_id = 0 then 1 else s_next_id⟩ :: server.connections
    accepted := server.accepted+1 }

/-- `MG_EV_HTTP_REQUEST`. Without an endpoint a static page is served. -/
def httpRequest (server : Server) (c : Connection) (method url : String) : Server :=
  match server.gHSEpList.find? fun cur => cur.cMethod == method && cur.stRegex url with
  | some _ =>
    { server with
      allocated := server.allocated+1
      requests := server.requests ++ [⟨c.user_data,server.allocated,c.nc⟩] }
  | none => {server with allocated := server.allocated+1}

/-- `MG_EV_CLOSE`; the connection is gone behind it. -/
def close (server : Server) (nc : Nat) : Server :=
  {server with connections := server.connections.filter fun c => c.nc != nc}

/-- `httpSerDoResponse` of the callback, broadcast to the polling thread. -/
def complete (server : Server) (request : WorkRequest) (status : Nat) (result : Option String) : Server :=
  {server with requests := server.requests.erase request}.on_work_complete request.nc
    ⟨request.conn_id,status,some request.reqData,result⟩

def connection? (server : Server) (nc : Nat) : Option Connection :=
  server.connections.find? fun c => c.nc == nc

def request? (server : Server) (reqData : Nat) : Option WorkRequest :=
  server.requests.find? fun request => request.reqData == reqData

def step (server : Server) : Event → Option Server
  | .accept => some server.accept
  | .request nc method url => (server.connection? nc).map fun c => server.httpRequest c method url
  | .close nc => (server.connection? nc).map fun _ => server.close nc
  | .complete reqData status result =>
    (server.request? reqData).map fun request => server.complete request status result

end Server

def httpServer : System Server Event where
  Enabled server event := (server.step event).isSome
  next server event := (server.step event).getD server

instance (server : Server) (event : Event) : Decidable (httpServer.Enabled server event) :=
  inferInstanceAs (Decidable (_ = true))

def started (gHSEpList : List HSEpNode) : Server := ⟨gHSEpList,0,[],[],0,0,[],[]⟩

namespace Server

/-- Each buffer that was allocated is with a worker, or has been freed once; and what was written
went to the connection its request came from. -/
structure Released (server : Server) : Prop where
  buffers : (server.freed ++ server.requests.map WorkRequest.reqData).Perm (List.range server.allocated)
  origin : ∀ response ∈ server.responses, response.nc = response.origin

def found (server : Server) (conn_id : UInt64) : List Nat :=
  (server.connections.filter fun c => c.hasId conn_id).map Connection.nc

/-- A request has an endpoint; when it is answered, its connection is open, and no other one that
is has the same number. -/
def settles (server : Server) : Event → Prop
  | .request _ method url => (server.gHSEpList.find? fun cur => cur.cMethod == method && cur.stRegex url).isSome
  | .complete reqData _ _ =>
    ∀ request, server.request? reqData = some request → server.found request.conn_id = [request.nc]
  | _ => True

variable {server : Server} {event : Event}

section Complete

variable {origin : Nat} {res : WorkResult}

theorem respond_all (connections : List Connection) (server : Server) (res : WorkResult) :
    ∃ responses, (∀ response ∈ responses, response.origin = origin) ∧
      responses.map Response.nc = (connections.filter fun c => c.hasId res.conn_id).map Connection.nc ∧
      (connections.foldl (respond origin) (server,res)).1 =
        { server with
          responses := server.responses ++ responses
          freed := server.freed ++ if responses = [] then [] else res.reqData.toList } := by
  induction connections generalizing server res with
  | nil => exact ⟨[],by simp,rfl,by simp⟩
  | cons c connections ih =>
    rw [List.foldl_cons,respond]
    by_cases has : c.hasId res.conn_id
    · obtain ⟨responses,own,same,made⟩ := ih _ {res with reqData := none, result := none}
      rw [if_pos has,made]
      refine ⟨⟨origin,c.nc,res.status,res.result.getD ""⟩ :: responses,?_,?_,?_⟩
      · exact List.forall_mem_cons.mpr ⟨rfl,own⟩
      · rw [List.filter_cons_of_pos (by exact has),List.map_cons,List.map_cons,same]
      · simp
    · obtain ⟨responses,own,same,made⟩ := ih server res
      rw [if_neg has,made,List.filter_cons_of_neg (by exact has)]
      exact ⟨responses,own,same,rfl⟩

theorem complete_eq (server : Server) (request : WorkRequest) (status : Nat) (result : Option String) :
    ∃ responses, (∀ response ∈ responses, response.origin = request.nc) ∧
      responses.map Response.nc = server.found request.conn_id ∧
      server.complete request status result =
        { server with
          requests := server.requests.erase request
          responses := server.responses ++ responses
          freed := server.freed ++ if responses = [] then [] else [request.reqData] } :=
  respond_all server.connections {server with requests := server.requests.erase request}
    ⟨request.conn_id,status,some request.reqData,result⟩

end Complete

/-- The number of the connection that is accepted after so many others. -/
def number (nc : Nat) : UInt64 := if UInt64.ofNat (nc+1) = 0 then 1 else UInt64.ofNat (nc+1)

structure Kept (server : Server) : Prop extends Released server where
  apart : (server.connections.map Connection.nc).Nodup
  counted : server.s_next_id = UInt64.ofNat server.accepted
  numbered : ∀ c ∈ server.connections, c.nc < server.accepted ∧ c.user_data = number c.nc
  asked : ∀ request ∈ server.requests, request.nc < server.accepted ∧ request.conn_id = number request.nc

theorem request_among {reqData : Nat} {request : WorkRequest} (waits : server.request? reqData = some request) :
    request ∈ server.requests ∧ request.reqData = reqData :=
  ⟨List.mem_of_find?_eq_some waits,by simpa using List.find?_some waits⟩

theorem connection_among {nc : Nat} {c : Connection} (opened : server.connection? nc = some c) :
    c ∈ server.connections ∧ c.nc = nc :=
  ⟨List.mem_of_find?_eq_some opened,by simpa using List.find?_some opened⟩

theorem erase_perm {request : WorkRequest} (among : request ∈ server.requests) :
    (request.reqData :: (server.requests.erase request).map WorkRequest.reqData).Perm
      (server.requests.map WorkRequest.reqData) :=
  ((List.perm_cons_erase among).map WorkRequest.reqData).symm

theorem Kept.found_one (kept : server.Kept) {conn_id : UInt64} {nc : Nat}
    (all : ∀ other ∈ server.found conn_id, other = nc) (some : server.found conn_id ≠ []) :
    server.found conn_id = [nc] := by
  have once : (server.found conn_id).Nodup := kept.apart.sublist (List.filter_sublist.map _)
  have copies := List.eq_replicate_of_mem all
  rw [copies,List.nodup_replicate] at once
  have one : (server.found conn_id).length = 1 := Nat.le_antisymm once (List.length_pos_of_ne_nil some)
  rw [copies,one]
  rfl

theorem kept_accept (kept : server.Kept) : server.accept.Kept where
  buffers := kept.buffers
  origin := kept.origin
  apart := by
    refine List.nodup_cons.mpr ⟨fun among => ?_,kept.apart⟩
    obtain ⟨c,opened,same⟩ := List.mem_map.mp among
    exact absurd (kept.numbered c opened).1 (by rw [same]; exact lt_irrefl _)
  counted := by
    change server.s_next_id+1 = UInt64.ofNat (server.accepted+1)
    rw [kept.counted,UInt64.ofNat_add]
    rfl
  numbered c opened := by
    rcases List.mem_cons.mp opened with rfl | old
    · refine ⟨Nat.lt_succ_self _,?_⟩
      change (if server.s_next_id+1 = 0 then 1 else server.s_next_id+1) = number server.accepted
      rw [kept.counted,number,UInt64.ofNat_add]
      rfl
    · obtain ⟨below,same⟩ := kept.numbered c old
      exact ⟨Nat.lt_succ_of_lt below,same⟩
  asked request waits := by
    obtain ⟨below,same⟩ := kept.asked request waits
    exact ⟨Nat.lt_succ_of_lt below,same⟩

theorem kept_request (kept : server.Kept) {c : Connection} (opened : c ∈ server.connections)
    {method url : String}
    (endpoint : (server.gHSEpList.find? fun cur => cur.cMethod == method && cur.stRegex url).isSome) :
    (server.httpRequest c method url).Kept := by
  obtain ⟨cur,matching⟩ := Option.isSome_iff_exists.mp endpoint
  rw [httpRequest,matching]
  refine ⟨⟨?_,kept.origin⟩,kept.apart,kept.counted,kept.numbered,fun request waits => ?_⟩
  · change (server.freed ++ (server.requests ++ [_]).map WorkRequest.reqData).Perm
      (List.range (server.allocated+1))
    rw [List.map_append,← List.append_assoc,List.range_succ]
    exact kept.buffers.append_right _
  · rcases List.mem_append.mp waits with old | new
    · exact kept.asked request old
    · rw [List.mem_singleton.mp new]
      exact kept.numbered c opened

theorem kept_close (kept : server.Kept) (nc : Nat) : (server.close nc).Kept where
  buffers := kept.buffers
  origin := kept.origin
  apart := kept.apart.sublist (List.filter_sublist.map _)
  counted := kept.counted
  numbered c opened := kept.numbered c (List.mem_of_mem_filter opened)
  asked := kept.asked

theorem kept_complete (kept : server.Kept) {request : WorkRequest} (among : request ∈ server.requests)
    (own : server.found request.conn_id = [request.nc]) (status : Nat) (result : Option String) :
    (server.complete request status result).Kept := by
  obtain ⟨responses,origin,targets,made⟩ := complete_eq server request status result
  rw [own] at targets
  have some : responses ≠ [] := by
    rintro rfl
    cases targets
  rw [made,if_neg some]
  refine ⟨⟨?_,?_⟩,kept.apart,kept.counted,kept.numbered,?_⟩
  · change (server.freed ++ [request.reqData] ++ (server.requests.erase request).map WorkRequest.reqData).Perm _
    rw [List.append_assoc,List.singleton_append]
    exact ((erase_perm among).append_left _).trans kept.buffers
  · intro response written
    rcases List.mem_append.mp written with old | new
    · exact kept.origin response old
    · have target : response.nc ∈ [request.nc] := targets ▸ List.mem_map_of_mem new
      rw [List.mem_singleton.mp target,origin response new]
  · exact fun other waits => kept.asked other (List.mem_of_mem_erase waits)

theorem found_of_complete (kept : server.Kept) {request : WorkRequest} (among : request ∈ server.requests)
    {status : Nat} {result : Option String} (released : (server.complete request status result).Released) :
    server.found request.conn_id = [request.nc] := by
  obtain ⟨responses,origin,targets,made⟩ := complete_eq server request status result
  rw [made] at released
  have all : ∀ nc ∈ server.found request.conn_id, nc = request.nc := by
    intro nc target
    rw [← targets] at target
    obtain ⟨response,new,rfl⟩ := List.mem_map.mp target
    rw [released.origin response (List.mem_append_right _ new),origin response new]
  refine kept.found_one all fun none => ?_
  rw [none,List.map_eq_nil_iff] at targets
  have length := released.buffers.length_eq.trans kept.buffers.length_eq.symm
  have less := (erase_perm among).length_eq
  rw [targets] at length
  simp only [if_true,List.append_nil,List.length_append,List.length_cons] at length less
  omega

theorem kept_next (kept : server.Kept) (enabled : httpServer.Enabled server event) (settles : server.settles event) :
    (httpServer.next server event).Kept := by
  obtain ⟨after,made⟩ := Option.isSome_iff_exists.mp enabled
  rw [show httpServer.next server event = after from congrArg (Option.getD · server) made]
  cases event with
  | accept =>
    obtain rfl := Option.some.inj made
    exact kept_accept kept
  | request nc method url =>
    obtain ⟨c,opened,rfl⟩ := Option.map_eq_some_iff.mp made
    exact kept_request kept (connection_among opened).1 settles
  | close nc =>
    obtain ⟨c,_,rfl⟩ := Option.map_eq_some_iff.mp made
    exact kept_close kept nc
  | complete reqData status result =>
    obtain ⟨request,waits,rfl⟩ := Option.map_eq_some_iff.mp made
    exact kept_complete kept (request_among waits).1 (settles request waits) status result

theorem settles_of_released (kept : server.Kept) (enabled : httpServer.Enabled server event)
    (released : (httpServer.next server event).Released) : server.settles event := by
  obtain ⟨after,made⟩ := Option.isSome_iff_exists.mp enabled
  rw [show httpServer.next server event = after from congrArg (Option.getD · server) made] at released
  cases event with
  | request nc method url =>
    obtain ⟨c,opened,rfl⟩ := Option.map_eq_some_iff.mp made
    by_contra missing
    rw [settles,Option.not_isSome_iff_eq_none] at missing
    rw [httpRequest,missing] at released
    have length := released.buffers.length_eq.symm.trans kept.buffers.length_eq
    rw [List.length_range,List.length_range] at length
    exact absurd length (Nat.succ_ne_self _)
  | complete reqData status result =>
    obtain ⟨request,waits,rfl⟩ := Option.map_eq_some_iff.mp made
    intro other waits'
    obtain rfl := Option.some.inj (waits.symm.trans waits')
    exact found_of_complete kept (request_among waits).1 released
  | _ => trivial

theorem number_toNat {nc : Nat} (few : nc+1 < UInt64.size) : (number nc).toNat = nc+1 := by
  have value : (UInt64.ofNat (nc+1)).toNat = nc+1 := UInt64.toNat_ofNat_of_lt' few
  have positive : UInt64.ofNat (nc+1) ≠ 0 := fun zero => by
    rw [zero] at value
    exact Nat.succ_ne_zero nc value.symm
  rw [number,if_neg positive,value]

/-- While the numbers last, an open connection is the only one that is found for its requests. -/
theorem found_open (kept : server.Kept) (few : server.accepted < UInt64.size) {request : WorkRequest}
    (among : request ∈ server.requests) (opened : request.nc ∈ server.connections.map Connection.nc) :
    server.found request.conn_id = [request.nc] := by
  obtain ⟨below,asked⟩ := kept.asked request among
  refine kept.found_one (fun nc target => ?_) ?_
  · obtain ⟨c,has,rfl⟩ := List.mem_map.mp target
    obtain ⟨opened,has⟩ := List.mem_filter.mp has
    obtain ⟨below',numbered⟩ := kept.numbered c opened
    rw [Connection.hasId,Bool.and_eq_true,beq_iff_eq,numbered,asked] at has
    have value := congrArg UInt64.toNat has.2
    rw [number_toNat (by omega),number_toNat (by omega)] at value
    exact Nat.succ.inj value
  · obtain ⟨c,opened,same⟩ := List.mem_map.mp opened
    have numbered := (kept.numbered c opened).2
    rw [same,← asked] at numbered
    have some : request.conn_id ≠ 0 := fun zero => by
      have value : (number request.nc).toNat = request.nc+1 := number_toNat (by omega)
      rw [← asked,zero] at value
      exact Nat.succ_ne_zero request.nc value.symm
    have has : c.hasId request.conn_id := by simp [Connection.hasId,numbered,some]
    exact List.ne_nil_of_mem (List.mem_map_of_mem (List.mem_filter.mpr ⟨opened,has⟩))

end Server

theorem started_kept (gHSEpList : List HSEpNode) : (started gHSEpList).Kept where
  buffers := List.Perm.nil
  origin _ written := by cases written
  apart := List.nodup_nil
  counted := rfl
  numbered _ opened := by cases opened
  asked _ waits := by cases waits

/-- Whatever comes in which order, each buffer is with one worker or has been freed once and each
response goes to its own connection, exactly when all requests have endpoints and are answered
while the connections they came from are open. -/
theorem buffers_released_iff (gHSEpList : List HSEpNode) {events : List Event}
    (follows : httpServer.Follows anyEvent (started gHSEpList) events) :
    (∀ front, front <+: events → (front.foldl httpServer.next (started gHSEpList)).Released) ↔
      httpServer.Follows Server.settles (started gHSEpList) events :=
  follows_iff_kept (I := Server.Kept) Server.kept_next Server.settles_of_released Server.Kept.toReleased
    (started_kept gHSEpList) follows

def captures : HSEpNode := ⟨"POST",(· == "/FaceServer/captures")⟩

def answered : List Event := [.accept,.request 0 "POST" "/FaceServer/captures",.complete 0 200 none]

theorem answered_happens : httpServer.Follows anyEvent (started [captures]) answered :=
  ⟨⟨rfl,trivial⟩,⟨rfl,trivial⟩,⟨rfl,trivial⟩,trivial⟩

theorem buffers_released_capture : (answered.foldl httpServer.next (started [captures])).Released :=
  (buffers_released_iff [captures] answered_happens).mpr
    ⟨⟨rfl,trivial⟩,⟨rfl,rfl⟩,⟨rfl,fun _ waits => (by obtain rfl := Option.some.inj waits; rfl)⟩,trivial⟩ _
    List.prefix_rfl

def page : List Event := [.accept,.request 0 "GET" "/index.html"]

theorem buffer_lost : httpServer.Follows anyEvent (started [captures]) page ∧
    (page.foldl httpServer.next (started [captures])).allocated = 1 ∧
    (page.foldl httpServer.next (started [captures])).requests = [] ∧
    (page.foldl httpServer.next (started [captures])).freed = [] ∧
    ¬ (page.foldl httpServer.next (started [captures])).Released := by
  refine ⟨⟨⟨rfl,trivial⟩,⟨rfl,trivial⟩,trivial⟩,rfl,rfl,rfl,fun released => ?_⟩
  exact absurd released.buffers.length_eq (by decide)

end MoCodes.MoFaceRec.HttpServer
