import MoCodes.Lib.Transition
import MoCodes.MoCloud.Proto

/-! The control socket of moCloudClientLib.c. Every caller sends a request on it and reads a
response from it; the server answers each request, in their order and in time, so that select
times out only for a response that another caller has taken. -/
namespace MoCodes.MoCloud.Client
open Lib.Transition

/-- CTRL_CMD_TIMEOUT, in seconds. -/
def ctrlCmdTimeout : Nat := 3

inductive Thread where
  | heartbeatThr
  | refreshFilelistThr
  | user (n : Nat)
  deriving DecidableEq

inductive Call where
  | sendHeartbeat | refreshFilelist | signUp | logIn | logOut | doStartDwld | doStopDwld
  deriving DecidableEq

def Call.cmdId : Call → CmdId
  | .sendHeartbeat => .heartbeat
  | .refreshFilelist => .getFilelist
  | .signUp => .signUp
  | .logIn => .logIn
  | .logOut => .logOut
  | .doStartDwld => .dwldStart
  | .doStopDwld => .dwldStop

/-- A user calls refreshFilelist from moCloudClient_logIn. -/
def Thread.Calls : Thread → Call → Prop
  | .heartbeatThr,call => call = .sendHeartbeat
  | .refreshFilelistThr,call => call = .refreshFilelist
  | .user _,call => call ≠ .sendHeartbeat

instance (thread : Thread) (call : Call) : Decidable (thread.Calls call) :=
  match thread with
  | .heartbeatThr => inferInstanceAs (Decidable (_ = _))
  | .refreshFilelistThr => inferInstanceAs (Decidable (_ = _))
  | .user _ => inferInstanceAs (Decidable (_ ≠ _))

/-- Where a thread is; requests are numbered in the order they are sent. -/
inductive Place where
  | idle
  | getRespHeader (request : Nat) (call : Call) (cnt : Nat)
  | getRespBody (request : Nat)
  deriving DecidableEq

def Place.request : Place → Option Nat
  | .idle => none
  | .getRespHeader request _ _ => some request
  | .getRespBody request => some request

/-- `requests` is what the server has not answered yet, `stream` what it has answered and
nobody has read, and `body` the rest of a response whose header has been read. `consumed` has
the request of a reader and the one that what it read is the response to, and `returned` what
getRespHeader has returned for a request. -/
structure CtrlChannel where
  place : Thread → Place := fun _ => .idle
  gFilelistMutex : Option Thread := none
  sent : Nat := 0
  requests : List (Nat × Call) := []
  body : Option Nat := none
  stream : List (Nat × CtrlResponse) := []
  consumed : List (Nat × Nat) := []
  returned : List (Nat × Option Nat) := []

namespace CtrlChannel

inductive Event where
  | send (thread : Thread) (call : Call)
  | answer (ret : Int) (cInfo : Int8) (bodyLen : Int)
  | read (thread : Thread)
  | timeout (thread : Thread)

variable (channel : CtrlChannel)

def setPlace (thread : Thread) (place : Place) : CtrlChannel :=
  { channel with place := Function.update channel.place thread place }

def leave (thread : Thread) (call : Call) : CtrlChannel :=
  { channel.setPlace thread .idle with
    gFilelistMutex := if call = .refreshFilelist then none else channel.gFilelistMutex }

/-- Only refreshFilelist holds a mutex, over both the request and the response. -/
def send (thread : Thread) (call : Call) : Option CtrlChannel :=
  if channel.place thread ≠ .idle ∨ ¬ thread.Calls call then none
  else if call = .refreshFilelist ∧ channel.gFilelistMutex ≠ none then none
  else
    some
      { channel.setPlace thread (.getRespHeader channel.sent call 0) with
        gFilelistMutex := if call = .refreshFilelist then some thread else channel.gFilelistMutex
        sent := channel.sent+1
        requests := channel.requests ++ [(channel.sent,call)] }

/-- The response to a request; only a file list has a body. -/
def response (call : Call) (ret : Int) (cInfo : Int8) (bodyLen : Int) : CtrlResponse where
  mark := markServer
  cmdId := call.cmdId.toWire
  ret := ret
  cInfo := cInfo
  bodyLen := if call = .refreshFilelist then bodyLen else 0

def answer (ret : Int) (cInfo : Int8) (bodyLen : Int) : Option CtrlChannel :=
  match channel.requests with
  | [] => none
  | (request,call) :: requests =>
    some
      { channel with
        requests := requests
        stream := channel.stream ++ [(request,response call ret cInfo bodyLen)] }

/-- `cnt += loopInterval; continue;` -/
def tryAgain (thread : Thread) (request : Nat) (call : Call) (cnt : Nat) : CtrlChannel :=
  if ctrlCmdTimeout ≤ cnt+1 then
    { channel.leave thread call with returned := channel.returned ++ [(request,none)] }
  else channel.setPlace thread (.getRespHeader request call (cnt+1))

/-- The check of getRespHeader; the server computes the right checksum. -/
def Accepts (call : Call) (resp : CtrlResponse) : Prop :=
  resp.cmdId = call.cmdId.toWire ∧ resp.mark = markServer

instance (call : Call) (resp : CtrlResponse) : Decidable (Accepts call resp) :=
  inferInstanceAs (Decidable (_ ∧ _))

/-- A header has been read; the body stays behind for getRespBody, or for whoever reads next. -/
def readHeader (thread : Thread) (request : Nat) (call : Call) (cnt : Nat)
    (entry : Nat × CtrlResponse) (stream : List (Nat × CtrlResponse)) : CtrlChannel :=
  let taken :=
    { channel with
      body := if entry.2.bodyLen ≠ 0 then some entry.1 else none
      stream := stream
      consumed := channel.consumed ++ [(request,entry.1)] }
  if Accepts call entry.2 then
    let got := { taken with returned := channel.returned ++ [(request,some entry.1)] }
    if call = .refreshFilelist ∧ entry.2.bodyLen ≠ 0 then got.setPlace thread (.getRespBody request)
    else got.leave thread call
  else taken.tryAgain thread request call cnt

/-- What is next on the socket goes to whoever reads it. -/
def read (thread : Thread) : Option CtrlChannel :=
  match channel.place thread,channel.body,channel.stream with
  | .idle,_,_ => none
  | .getRespHeader request call cnt,some other,_ =>
    some
      ({ channel with body := none, consumed := channel.consumed ++ [(request,other)] }.tryAgain
        thread request call cnt)
  | .getRespHeader request call cnt,none,entry :: stream =>
    some (channel.readHeader thread request call cnt entry stream)
  | .getRespBody request,some other,_ =>
    some
      ({ channel with body := none, consumed := channel.consumed ++ [(request,other)] }.leave
        thread .refreshFilelist)
  | .getRespBody request,none,entry :: stream =>
    some
      ({ channel with stream := stream, consumed := channel.consumed ++ [(request,entry.1)] }.leave
        thread .refreshFilelist)
  | _,none,[] => none

/-- The requests whose responses have not been read to the end, the oldest one first. -/
def due : List Nat :=
  channel.body.toList ++ channel.stream.map Prod.fst ++ channel.requests.map Prod.fst

def timeout (thread : Thread) : Option CtrlChannel :=
  match channel.place thread with
  | .idle => none
  | .getRespHeader request call cnt =>
    if request ∈ channel.due then none else some (channel.tryAgain thread request call cnt)
  | .getRespBody request =>
    if request ∈ channel.due then none else some (channel.leave thread .refreshFilelist)

def step : Event → Option CtrlChannel
  | .send thread call => channel.send thread call
  | .answer ret cInfo bodyLen => channel.answer ret cInfo bodyLen
  | .read thread => channel.read thread
  | .timeout thread => channel.timeout thread

def ctrlSystem : System CtrlChannel Event where
  Enabled channel event := (channel.step event).isSome
  next channel event := (channel.step event).getD channel

instance (event : Event) : Decidable (ctrlSystem.Enabled channel event) :=
  inferInstanceAs (Decidable (Option.isSome _))

/-- What a caller has read is the response to its own request, and getRespHeader has returned it. -/
structure Own : Prop where
  consumed : ∀ entry ∈ channel.consumed, entry.2 = entry.1
  returned : ∀ entry ∈ channel.returned, entry.2 = some entry.1

/-- Besides that the response a caller waits for is still to come. -/
structure Served : Prop extends Own channel where
  waits : ∀ thread request, (channel.place thread).request = some request → request ∈ channel.due

/-- Of the callers that have sent a request and not read the response, the first one reads. -/
def First : Event → Prop
  | .read thread => ∀ request, (channel.place thread).request = some request →
      ∀ other later, (channel.place other).request = some later → request ≤ later
  | _ => True

section Matched

variable {channel after : CtrlChannel} {thread : Thread} {request : Nat}

/-- Each response that is due is waited for by one caller, which has not read more of it. -/
structure Matched (channel : CtrlChannel) : Prop where
  order : channel.due.Pairwise (· < ·)
  below : ∀ request ∈ channel.due, request < channel.sent
  body : ∀ request, channel.body = some request → ∃ thread, channel.place thread = .getRespBody request
  stream : ∀ entry ∈ channel.stream, ∃ thread call cnt,
    channel.place thread = .getRespHeader entry.1 call cnt ∧ Accepts call entry.2 ∧
      (entry.2.bodyLen ≠ 0 → call = .refreshFilelist)
  requests : ∀ entry ∈ channel.requests, ∃ thread cnt,
    channel.place thread = .getRespHeader entry.1 entry.2 cnt
  waits : ∀ thread request, (channel.place thread).request = some request → request ∈ channel.due
  inBody : ∀ thread request, channel.place thread = .getRespBody request → channel.body = some request
  single : ∀ thread other request, (channel.place thread).request = some request →
    (channel.place other).request = some request → thread = other
  own : channel.Own

theorem due_owner (matched : Matched channel) (member : request ∈ channel.due) :
    ∃ thread, (channel.place thread).request = some request := by
  rcases List.mem_append.mp member with read | asked
  · rcases List.mem_append.mp read with here | answered
    · obtain ⟨thread,place⟩ := matched.body request (by simpa using here)
      exact ⟨thread,by rw [place]; rfl⟩
    · obtain ⟨entry,inside,rfl⟩ := List.mem_map.mp answered
      obtain ⟨thread,call,cnt,place,_⟩ := matched.stream entry inside
      exact ⟨thread,by rw [place]; rfl⟩
  · obtain ⟨entry,inside,rfl⟩ := List.mem_map.mp asked
    obtain ⟨thread,cnt,place⟩ := matched.requests entry inside
    exact ⟨thread,by rw [place]; rfl⟩

/-- What is next on the socket is the response to the request of the reader if and only if
the reader is the first one. -/
theorem first_iff {next : Nat} {rest : List Nat} (matched : Matched channel) (due : channel.due = next :: rest)
    (waits : (channel.place thread).request = some request) :
    channel.First (.read thread) ↔ next = request := by
  have order := matched.order
  rw [due] at order
  have least : ∀ other ∈ channel.due, next ≤ other := by
    intro other member
    rw [due] at member
    rcases List.mem_cons.mp member with rfl | behind
    · exact Nat.le_refl _
    · exact Nat.le_of_lt (List.rel_of_pairwise_cons order behind)
  constructor
  · intro first
    obtain ⟨owner,here⟩ := due_owner matched (by rw [due]; exact List.mem_cons_self)
    exact Nat.le_antisymm (least request (matched.waits thread request waits)) (first request waits owner next here)
  · rintro rfl other same owner later here
    rw [waits] at same
    rw [← Option.some.inj same]
    exact least later (matched.waits owner later here)

theorem update_elsewhere {other : Thread} {place new : Place} (here : channel.place other = place)
    (apart : place ≠ channel.place thread) : Function.update channel.place thread new other = place := by
  rw [Function.update_of_ne]
  · exact here
  · rintro rfl
    exact apart here.symm

theorem single_place {other : Thread} (matched : Matched channel)
    (waits : (channel.place thread).request = some request)
    (here : (channel.place other).request = some request) : channel.place other = channel.place thread := by
  rw [matched.single other thread request here waits]

end Matched

section Reading

variable {channel after : CtrlChannel} {thread : Thread} {request : Nat}

/-- A caller that has read all of the response that was due first. -/
structure Left (channel after : CtrlChannel) (thread : Thread) (request : Nat) : Prop where
  place : after.place = Function.update channel.place thread .idle
  sent : after.sent = channel.sent
  body : after.body = none
  due : channel.due = request :: after.due
  stream : ∀ entry ∈ after.stream, entry ∈ channel.stream
  requests : after.requests = channel.requests
  own : after.Own

theorem left_matched (matched : Matched channel) (waits : (channel.place thread).request = some request)
    (left : Left channel after thread request) : Matched after := by
  have order := matched.order
  rw [left.due] at order
  have others : ∀ {other place}, channel.place other = place → place.request ≠ some request →
      after.place other = place := by
    intro other place here apart
    rw [left.place]
    exact update_elsewhere here fun same => apart (by rw [same]; exact waits)
  have behind : ∀ {later}, later ∈ after.due → later ≠ request := fun member =>
    Nat.ne_of_gt (List.rel_of_pairwise_cons order member)
  have before : ∀ {other later}, (after.place other).request = some later →
      other ≠ thread ∧ (channel.place other).request = some later := by
    intro other later here
    by_cases same : other = thread
    · subst same
      rw [left.place,Function.update_self] at here
      cases here
    · rw [left.place,Function.update_of_ne same] at here
      exact ⟨same,here⟩
  have streamed : ∀ {entry}, entry ∈ after.stream → entry.1 ∈ after.due := fun member =>
    List.mem_append_left _ (List.mem_append_right _ (List.mem_map_of_mem member))
  have asked : ∀ {entry}, entry ∈ after.requests → entry.1 ∈ after.due := fun member =>
    List.mem_append_right _ (List.mem_map_of_mem member)
  constructor
  · exact (List.pairwise_cons.mp order).2
  · intro later member
    rw [left.sent]
    exact matched.below later (by rw [left.due]; exact List.mem_cons_of_mem _ member)
  · intro later here
    rw [left.body] at here
    cases here
  · intro entry member
    obtain ⟨owner,call,cnt,place,fits⟩ := matched.stream entry (left.stream entry member)
    exact ⟨owner,call,cnt,others place fun same => behind (streamed member) (Option.some.inj same),fits⟩
  · intro entry member
    obtain ⟨owner,cnt,place⟩ := matched.requests entry (by rw [← left.requests]; exact member)
    exact ⟨owner,cnt,others place fun same => behind (asked member) (Option.some.inj same)⟩
  · intro owner later here
    obtain ⟨apart,there⟩ := before here
    have member := matched.waits owner later there
    rw [left.due] at member
    rcases List.mem_cons.mp member with rfl | inside
    · exact absurd (matched.single owner thread later there waits) apart
    · exact inside
  · intro owner later here
    obtain ⟨apart,there⟩ := before (by rw [here]; rfl : (after.place owner).request = some later)
    rw [left.place,Function.update_of_ne apart] at here
    have body := matched.inBody owner later here
    have first : later = request := by
      have due := left.due
      rw [CtrlChannel.due,body] at due
      exact (List.cons.inj due).1
    rw [first] at there
    exact absurd (matched.single owner thread request there waits) apart
  · intro owner other later here there
    exact matched.single owner other later (before here).2 (before there).2
  · exact left.own

end Reading

section Steps

variable {channel after : CtrlChannel} {thread : Thread} {event : Event} {events : List Event}

theorem due_stream {entry : Nat × CtrlResponse} {stream : List (Nat × CtrlResponse)} (body : channel.body = none)
    (split : channel.stream = entry :: stream) :
    channel.due = entry.1 :: (stream.map Prod.fst ++ channel.requests.map Prod.fst) := by
  rw [due,body,split]
  rfl

theorem due_body {request : Nat} (body : channel.body = some request) :
    channel.due = request :: (channel.stream.map Prod.fst ++ channel.requests.map Prod.fst) := by
  rw [due,body]
  rfl

theorem own_append {channel : CtrlChannel} {request : Nat} (own : channel.Own) :
    ∀ entry ∈ channel.consumed ++ [(request,request)], entry.2 = entry.1 := by
  intro entry member
  rcases List.mem_append.mp member with old | new
  · exact own.consumed entry old
  · rw [List.mem_singleton.mp new]

theorem own_returned {channel : CtrlChannel} {request : Nat} (own : channel.Own) :
    ∀ entry ∈ channel.returned ++ [(request,some request)], entry.2 = some entry.1 := by
  intro entry member
  rcases List.mem_append.mp member with old | new
  · exact own.returned entry old
  · rw [List.mem_singleton.mp new]

theorem body_matched {entry : Nat × CtrlResponse} {stream : List (Nat × CtrlResponse)} {call : Call} {cnt : Nat}
    (matched : Matched channel) (place : channel.place thread = .getRespHeader entry.1 call cnt)
    (body : channel.body = none) (split : channel.stream = entry :: stream) :
    Matched
      { channel with
        place := Function.update channel.place thread (.getRespBody entry.1)
        body := some entry.1
        stream := stream
        consumed := channel.consumed ++ [(entry.1,entry.1)]
        returned := channel.returned ++ [(entry.1,some entry.1)] } := by
  have due := due_stream body split
  have order := matched.order
  rw [due] at order
  have waits : (channel.place thread).request = some entry.1 := by rw [place]; rfl
  have requests : ∀ other, (Function.update channel.place thread (.getRespBody entry.1) other).request =
      (channel.place other).request := by
    intro other
    by_cases same : other = thread
    · subst same
      rw [Function.update_self,waits]
      rfl
    · rw [Function.update_of_ne same]
  have others : ∀ {other place}, channel.place other = place → place.request ≠ some entry.1 →
      Function.update channel.place thread (.getRespBody entry.1) other = place :=
    fun here apart => update_elsewhere here fun same => apart (by rw [same]; exact waits)
  have behind : ∀ {later}, later ∈ stream.map Prod.fst ++ channel.requests.map Prod.fst → later ≠ entry.1 :=
    fun member => Nat.ne_of_gt (List.rel_of_pairwise_cons order member)
  constructor
  · exact order
  · intro later member
    exact matched.below later (by rw [due]; exact member)
  · intro later here
    cases here
    exact ⟨thread,Function.update_self ..⟩
  · intro other member
    obtain ⟨owner,asked,turns,there,fits⟩ := matched.stream other (by rw [split]; exact List.mem_cons_of_mem _ member)
    have apart := behind (List.mem_append_left _ (List.mem_map_of_mem member))
    exact ⟨owner,asked,turns,others there fun same => apart (Option.some.inj same),fits⟩
  · intro other member
    obtain ⟨owner,turns,there⟩ := matched.requests other member
    have apart := behind (List.mem_append_right _ (List.mem_map_of_mem member))
    exact ⟨owner,turns,others there fun same => apart (Option.some.inj same)⟩
  · intro owner later here
    have member := matched.waits owner later ((requests owner).symm.trans here)
    rw [due] at member
    exact member
  · intro owner later here
    by_cases same : owner = thread
    · subst same
      dsimp only at here
      rw [Function.update_self] at here
      cases here
      rfl
    · dsimp only at here
      rw [Function.update_of_ne same] at here
      have inside := matched.inBody owner later here
      rw [body] at inside
      cases inside
  · intro owner other later here there
    exact matched.single owner other later ((requests owner).symm.trans here) ((requests other).symm.trans there)
  · exact ⟨own_append matched.own,own_returned matched.own⟩

theorem read_matched (matched : Matched channel) (first : channel.First (.read thread))
    (ran : channel.read thread = some after) : Matched after := by
  cases place : channel.place thread with
  | idle => simp [read,place] at ran
  | getRespHeader request call cnt =>
    have waits : (channel.place thread).request = some request := by rw [place]; rfl
    cases body : channel.body with
    | some other =>
      have same := (first_iff matched (due_body body) waits).mp first
      rw [same] at body
      obtain ⟨owner,there⟩ := matched.body request body
      have equal := single_place matched waits (by rw [there]; rfl : (channel.place owner).request = some request)
      rw [there,place] at equal
      cases equal
    | none =>
      cases split : channel.stream with
      | nil => simp [read,place,body,split] at ran
      | cons entry stream =>
        have same := (first_iff matched (due_stream body split) waits).mp first
        subst same
        obtain ⟨owner,asked,turns,there,fits,list⟩ := matched.stream entry (by rw [split]; exact List.mem_cons_self)
        have equal := single_place matched waits
          (by rw [there]; rfl : (channel.place owner).request = some entry.1)
        rw [there,place] at equal
        cases equal
        simp only [read,place,body,split,readHeader,if_pos fits,Option.some.injEq] at ran
        by_cases more : entry.2.bodyLen ≠ 0
        · rw [if_pos ⟨list more,more⟩,if_pos more] at ran
          subst ran
          exact body_matched matched place body split
        · rw [if_neg (fun both => more both.2),if_neg more] at ran
          subst ran
          refine left_matched matched waits ⟨rfl,rfl,rfl,due_stream body split,?_,rfl,?_⟩
          · exact fun other member => by rw [split]; exact List.mem_cons_of_mem _ member
          · exact ⟨own_append matched.own,own_returned matched.own⟩
  | getRespBody request =>
    have waits : (channel.place thread).request = some request := by rw [place]; rfl
    have body := matched.inBody thread request place
    simp only [read,place,body,Option.some.injEq] at ran
    subst ran
    refine left_matched matched waits ⟨rfl,rfl,rfl,due_body body,fun _ member => member,rfl,?_⟩
    exact ⟨own_append matched.own,matched.own.returned⟩

theorem tryAgain_consumed (request : Nat) (call : Call) (cnt : Nat) :
    (channel.tryAgain thread request call cnt).consumed = channel.consumed := by
  unfold tryAgain
  split
  · rfl
  · rfl

theorem readHeader_consumed (request : Nat) (call : Call) (cnt : Nat) (entry : Nat × CtrlResponse)
    (stream : List (Nat × CtrlResponse)) :
    (channel.readHeader thread request call cnt entry stream).consumed =
      channel.consumed ++ [(request,entry.1)] := by
  by_cases fits : Accepts call entry.2
  · by_cases list : call = .refreshFilelist ∧ entry.2.bodyLen ≠ 0
    · simp only [readHeader,if_pos fits,if_pos list]
      rfl
    · simp only [readHeader,if_pos fits,if_neg list]
      rfl
  · simp only [readHeader,if_neg fits,tryAgain_consumed]

theorem read_next (ran : channel.read thread = some after) :
    ∃ request next rest, (channel.place thread).request = some request ∧ channel.due = next :: rest ∧
      after.consumed = channel.consumed ++ [(request,next)] := by
  cases place : channel.place thread with
  | idle => simp [read,place] at ran
  | getRespHeader request call cnt =>
    cases body : channel.body with
    | some other =>
      simp only [read,place,body,Option.some.injEq] at ran
      subst ran
      exact ⟨request,other,_,rfl,due_body body,tryAgain_consumed ..⟩
    | none =>
      cases split : channel.stream with
      | nil => simp [read,place,body,split] at ran
      | cons entry stream =>
        simp only [read,place,body,split,Option.some.injEq] at ran
        subst ran
        exact ⟨request,entry.1,_,rfl,due_stream body split,readHeader_consumed ..⟩
  | getRespBody request =>
    cases body : channel.body with
    | some other =>
      simp only [read,place,body,Option.some.injEq] at ran
      subst ran
      exact ⟨request,other,_,rfl,due_body body,rfl⟩
    | none =>
      cases split : channel.stream with
      | nil => simp [read,place,body,split] at ran
      | cons entry stream =>
        simp only [read,place,body,split,Option.some.injEq] at ran
        subst ran
        exact ⟨request,entry.1,_,rfl,due_stream body split,rfl⟩

theorem read_first (matched : Matched channel) (ran : channel.read thread = some after) (own : after.Own) :
    channel.First (.read thread) := by
  obtain ⟨request,next,rest,waits,due,consumed⟩ := read_next ran
  apply (first_iff matched due waits).mpr
  exact own.consumed (request,next) (by rw [consumed]; exact List.mem_append_right _ List.mem_cons_self)

theorem answer_matched {ret : Int} {cInfo : Int8} {bodyLen : Int} (matched : Matched channel)
    (ran : channel.answer ret cInfo bodyLen = some after) : Matched after := by
  unfold answer at ran
  split at ran
  · cases ran
  · rename_i request call requests split
    cases ran
    have due : channel.due = channel.body.toList ++
        (channel.stream ++ [(request,response call ret cInfo bodyLen)]).map Prod.fst ++ requests.map Prod.fst := by
      rw [CtrlChannel.due,split,List.map_append]
      simp
    obtain ⟨order,below,body,stream,asked,waits,inBody,single,own⟩ := matched
    refine ⟨?_,?_,body,?_,?_,?_,inBody,single,own.consumed,own.returned⟩
    · rw [due] at order
      exact order
    · rw [due] at below
      exact below
    · intro entry member
      rcases List.mem_append.mp member with old | new
      · exact stream entry old
      · rw [List.mem_singleton.mp new]
        obtain ⟨thread,cnt,place⟩ := asked (request,call) (by rw [split]; exact List.mem_cons_self)
        refine ⟨thread,call,cnt,place,⟨rfl,rfl⟩,fun more => ?_⟩
        by_contra other
        exact more (if_neg other)
    · exact fun entry member => asked entry (by rw [split]; exact List.mem_cons_of_mem _ member)
    · rw [due] at waits
      exact waits

theorem send_matched {call : Call} (matched : Matched channel) (ran : channel.send thread call = some after) :
    Matched after := by
  unfold send at ran
  rcases ite_eq_iff.mp ran with ⟨_,refused⟩ | ⟨free,ran⟩
  · cases refused
  rcases ite_eq_iff.mp ran with ⟨_,refused⟩ | ⟨_,ran⟩
  · cases refused
  cases ran
  have idle : channel.place thread = .idle := by
    by_contra busy
    exact free (.inl busy)
  have due : ∀ {body stream}, body ++ stream ++ (channel.requests ++ [(channel.sent,call)]).map Prod.fst =
      body ++ stream ++ channel.requests.map Prod.fst ++ [channel.sent] := by
    intro body stream
    rw [List.map_append,← List.append_assoc]
    rfl
  have others : ∀ {other place}, channel.place other = place → place ≠ .idle →
      Function.update channel.place thread (.getRespHeader channel.sent call 0) other = place :=
    fun here busy => update_elsewhere here fun same => busy (same.trans idle)
  have requests : ∀ {other later},
      (Function.update channel.place thread (.getRespHeader channel.sent call 0) other).request = some later →
        other = thread ∧ later = channel.sent ∨ other ≠ thread ∧ (channel.place other).request = some later := by
    intro other later here
    by_cases same : other = thread
    · subst same
      rw [Function.update_self] at here
      exact .inl ⟨rfl,(Option.some.inj here).symm⟩
    · rw [Function.update_of_ne same] at here
      exact .inr ⟨same,here⟩
  have fresh : ∀ {other}, (channel.place other).request ≠ some channel.sent := fun here =>
    Nat.lt_irrefl _ (matched.below _ (matched.waits _ _ here))
  constructor
  · change (_ ++ _ ++ (channel.requests ++ [(channel.sent,call)]).map Prod.fst).Pairwise _
    rw [due]
    refine List.pairwise_append.mpr ⟨matched.order,List.pairwise_singleton ..,fun later member last here => ?_⟩
    rw [List.mem_singleton.mp here]
    exact matched.below later member
  · intro later member
    change later ∈ _ ++ _ ++ (channel.requests ++ [(channel.sent,call)]).map Prod.fst at member
    rw [due] at member
    rcases List.mem_append.mp member with old | new
    · exact Nat.lt_succ_of_lt (matched.below later old)
    · rw [List.mem_singleton.mp new]
      exact Nat.lt_succ_self _
  · intro later here
    obtain ⟨owner,place⟩ := matched.body later here
    exact ⟨owner,others place nofun⟩
  · intro entry member
    obtain ⟨owner,asked,cnt,place,fits⟩ := matched.stream entry member
    exact ⟨owner,asked,cnt,others place nofun,fits⟩
  · intro entry member
    rcases List.mem_append.mp member with old | new
    · obtain ⟨owner,cnt,place⟩ := matched.requests entry old
      exact ⟨owner,cnt,others place nofun⟩
    · rw [List.mem_singleton.mp new]
      exact ⟨thread,0,Function.update_self ..⟩
  · intro owner later here
    change later ∈ _ ++ _ ++ (channel.requests ++ [(channel.sent,call)]).map Prod.fst
    rw [due]
    rcases requests here with ⟨_,rfl⟩ | ⟨_,old⟩
    · exact List.mem_append_right _ List.mem_cons_self
    · exact List.mem_append_left _ (matched.waits owner later old)
  · intro owner later here
    refine matched.inBody owner later ?_
    by_cases same : owner = thread
    · subst same
      dsimp only [setPlace] at here
      rw [Function.update_self] at here
      cases here
    · dsimp only [setPlace] at here
      rwa [Function.update_of_ne same] at here
  · intro owner other later here there
    rcases requests here with ⟨rfl,rfl⟩ | ⟨_,old⟩
    · rcases requests there with ⟨rfl,_⟩ | ⟨_,old⟩
      · rfl
      · exact absurd old fresh
    · rcases requests there with ⟨_,rfl⟩ | ⟨_,older⟩
      · exact absurd old fresh
      · exact matched.single owner other later old older
  · exact ⟨matched.own.consumed,matched.own.returned⟩

/-- The response to the request of a caller is always on its way. -/
theorem timeout_none (matched : Matched channel) : channel.timeout thread = none := by
  unfold timeout
  split
  · rfl
  · rename_i request call cnt place
    exact if_pos (matched.waits thread request (by rw [place]; rfl))
  · rename_i request place
    exact if_pos (matched.waits thread request (by rw [place]; rfl))

theorem step_next (enabled : ctrlSystem.Enabled channel event) :
    channel.step event = some (ctrlSystem.next channel event) := by
  obtain ⟨after,ran⟩ := Option.isSome_iff_exists.mp enabled
  rw [ran]
  simp [ctrlSystem,ran]

theorem keep_matched (matched : Matched channel) (enabled : ctrlSystem.Enabled channel event)
    (first : channel.First event) : Matched (ctrlSystem.next channel event) := by
  have ran := step_next enabled
  cases event with
  | send thread call => exact send_matched matched ran
  | answer ret cInfo bodyLen => exact answer_matched matched ran
  | read thread => exact read_matched matched first ran
  | timeout thread =>
    rw [step,timeout_none matched] at ran
    cases ran

theorem lost_first (matched : Matched channel) (enabled : ctrlSystem.Enabled channel event)
    (own : (ctrlSystem.next channel event).Own) : channel.First event := by
  cases event with
  | read thread => exact read_first matched (step_next enabled) own
  | _ => trivial

theorem none_matched : Matched {} :=
  ⟨List.Pairwise.nil,fun _ absent => (List.not_mem_nil absent).elim,nofun,
    fun _ absent => (List.not_mem_nil absent).elim,fun _ absent => (List.not_mem_nil absent).elim,
    nofun,nofun,nofun,
    fun _ absent => (List.not_mem_nil absent).elim,fun _ absent => (List.not_mem_nil absent).elim⟩

/-- The refresh thread reads the list that it has asked for after the heartbeat is done. -/
def oneByOne : List Event :=
  [.send .heartbeatThr .sendHeartbeat,.answer HeartbeatRet.filelistChanged.code 1 0,.read .heartbeatThr,
    .send .refreshFilelistThr .refreshFilelist,.send (.user 0) .doStartDwld,.answer 0 1 312,.answer 0 0 0,
    .read .refreshFilelistThr,.read .refreshFilelistThr,.read (.user 0)]

/-- A user logs in during a heartbeat, and reads the response to the heartbeat. -/
def duringHeartbeat : List Event :=
  [.send .heartbeatThr .sendHeartbeat,.send (.user 0) .logIn,.answer HeartbeatRet.ok.code 0 0,.answer 0 0 0,
    .read (.user 0)]

end Steps

end CtrlChannel

end MoCodes.MoCloud.Client
