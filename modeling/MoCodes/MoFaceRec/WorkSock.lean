import MoCodes.Lib.Blocks
import MoCodes.Lib.Layout
import MoCodes.Lib.Transition

/-! The socket pair over which the polling thread hands requests to its workers. It is a stream of
bytes, and each worker reads into a variable that still has its previous request. -/
namespace MoCodes.MoFaceRec.Http
open Lib.Blocks Lib.Layout Lib.Transition

/-- `struct work_request` as `ev_handler` fills it in for an endpoint: `httpserver_cb` is set. -/
structure WorkRequest where
  conn_id : UInt64
  cToken : List UInt8
  cRemoteIp : List UInt8
  url : List UInt8
  method : List UInt8
  query : List UInt8
  reqData : UInt64
  reqLen : Int
  httpReqFunc : UInt64
  apiFunc : UInt64
  checkFunc : UInt64
  mutex : UInt64
  callback : httpReqFunc ≠ 0

/-- `sizeof(struct work_request)`, with four bytes of padding behind `reqLen`. -/
def requestSize : Nat := 992

namespace WorkRequest

def pointer (address : UInt64) : List UInt8 := writeLE 8 address.toNat

def head (req : WorkRequest) : List UInt8 :=
  pointer req.conn_id ++ padded 512 req.cToken ++ padded 32 req.cRemoteIp ++ padded 256 req.url ++
    padded 8 req.method ++ padded 128 req.query ++ pointer req.reqData ++ writeInt 4 req.reqLen ++
    List.replicate 4 0

def bytes (req : WorkRequest) : List UInt8 :=
  req.head ++ (pointer req.httpReqFunc ++
    (pointer req.apiFunc ++ pointer req.checkFunc ++ pointer req.mutex))

end WorkRequest

/-- `req.httpReqFunc` of what is in the variable. -/
def httpReqFunc (buffer : List UInt8) : Nat := readLE (slice buffer 960 8)

/-- `read` overwrites the front of the variable with the front of the stream. -/
def readInto (buffer stream : List UInt8) (count : Nat) : List UInt8 := stream.take count ++ buffer.drop count

/-- The workers and the stream. `written` are the requests that went into it, `taken` the
variables with a callback behind a `read`, and `executed` those that were passed to it. -/
structure Workers where
  stream : List UInt8
  buffers : Nat → List UInt8
  serving : Nat → Bool
  written : List (List UInt8)
  taken : List (Nat × List UInt8)
  executed : List (Nat × List UInt8)

/-- A `read` gives a number of bytes or fails; the worker then looks at its variable. -/
inductive Event where
  | write (req : WorkRequest)
  | read (worker : Nat) (got : Option Nat)
  | serve (worker : Nat)

namespace Workers

/-- `if(req.httpReqFunc)`, the request of this worker. -/
def called (worker : Nat) (buffer : List UInt8) : List (Nat × List UInt8) :=
  if httpReqFunc buffer = 0 then [] else [(worker,buffer)]

def write (pool : Workers) (req : WorkRequest) : Workers :=
  {pool with stream := pool.stream ++ req.bytes, written := pool.written ++ [req.bytes]}

/-- A failure is only reported. -/
def read (pool : Workers) (worker : Nat) (got : Option Nat) : Workers :=
  let buffer := readInto (pool.buffers worker) pool.stream (got.getD 0)
  { pool with
    stream := pool.stream.drop (got.getD 0)
    buffers := Function.update pool.buffers worker buffer
    serving := Function.update pool.serving worker true
    taken := pool.taken ++ called worker buffer }

def serve (pool : Workers) (worker : Nat) : Workers :=
  { pool with
    serving := Function.update pool.serving worker false
    executed := pool.executed ++ called worker (pool.buffers worker) }

def Enabled (pool : Workers) : Event → Prop
  | .write _ => True
  | .read worker got => pool.serving worker = false ∧ got.getD 0 ≤ requestSize ∧ got.getD 0 ≤ pool.stream.length
  | .serve worker => pool.serving worker

def next (pool : Workers) : Event → Workers
  | .write req => pool.write req
  | .read worker got => pool.read worker got
  | .serve worker => pool.serve worker

end Workers

def workSock : System Workers Event := ⟨Workers.Enabled,Workers.next⟩

/-- `req = {0}` in each worker. -/
def started : Workers := ⟨[],fun _ => List.replicate requestSize 0,fun _ => false,[],[],[]⟩

namespace Workers

def held (pool : Workers) (worker : Nat) : List (Nat × List UInt8) :=
  if pool.serving worker then called worker (pool.buffers worker) else []

def ofWorker (worker : Nat) (log : List (Nat × List UInt8)) : List (Nat × List UInt8) :=
  log.filter fun entry => entry.1 == worker

/-- Each request that was written is taken by one worker, in order, or is still whole in the
stream; and each worker executes what it takes, once. -/
structure Once (pool : Workers) : Prop where
  framed : ∃ pending, pool.written = pool.taken.map Prod.snd ++ pending ∧ pool.stream = pending.flatten
  served : ∀ worker, ofWorker worker pool.executed ++ pool.held worker = ofWorker worker pool.taken

/-- A `read` gives a whole request, or nothing to a worker that has had none so far. -/
def readsRequest (pool : Workers) : Event → Prop
  | .read worker got => got = some requestSize ∨ got.getD 0 = 0 ∧ httpReqFunc (pool.buffers worker) = 0
  | _ => True

end Workers

theorem WorkRequest.head_length (req : WorkRequest) : req.head.length = 960 := by
  simp [WorkRequest.head,WorkRequest.pointer]

theorem WorkRequest.bytes_length (req : WorkRequest) : req.bytes.length = requestSize := by
  simp [WorkRequest.bytes,WorkRequest.pointer,WorkRequest.head_length,requestSize]

theorem httpReqFunc_bytes (req : WorkRequest) : httpReqFunc req.bytes ≠ 0 := by
  have address : httpReqFunc req.bytes = req.httpReqFunc.toNat := by
    rw [httpReqFunc,WorkRequest.bytes,WorkRequest.pointer,
      slice_part req.head_length (writeLE_length _ _),readLE_writeLE]
    exact Nat.mod_eq_of_lt req.httpReqFunc.toNat_lt
  rw [address]
  exact fun zero => req.callback (UInt64.toNat_inj.mp zero)

namespace Workers

structure Kept (pool : Workers) : Prop extends Once pool where
  requests : ∀ request ∈ pool.written, request.length = requestSize ∧ httpReqFunc request ≠ 0
  full : ∀ worker, (pool.buffers worker).length = requestSize

variable {pool : Workers} {event : Event}

theorem read_buffers (pool : Workers) (worker : Nat) (got : Option Nat) : (pool.read worker got).buffers =
    Function.update pool.buffers worker (readInto (pool.buffers worker) pool.stream (got.getD 0)) := rfl

theorem called_some {worker : Nat} {buffer : List UInt8} (callback : httpReqFunc buffer ≠ 0) :
    called worker buffer = [(worker,buffer)] := if_neg callback

theorem called_none {worker : Nat} {buffer : List UInt8} (zero : httpReqFunc buffer = 0) :
    called worker buffer = [] := if_pos zero

theorem ofWorker_append (worker : Nat) (log more : List (Nat × List UInt8)) :
    ofWorker worker (log ++ more) = ofWorker worker log ++ ofWorker worker more := List.filter_append ..

theorem ofWorker_called (worker : Nat) (buffer : List UInt8) :
    ofWorker worker (called worker buffer) = called worker buffer := by
  rw [called]
  split_ifs <;> simp [ofWorker]

theorem ofWorker_other {worker other : Nat} (apart : other ≠ worker) (buffer : List UInt8) :
    ofWorker other (called worker buffer) = [] := by
  rw [called]
  split_ifs
  · rfl
  · simp [ofWorker,apart.symm]

theorem read_served (once : pool.Once) {worker : Nat} (free : pool.serving worker = false) (got : Option Nat)
    (other : Nat) : ofWorker other (pool.read worker got).executed ++ (pool.read worker got).held other =
      ofWorker other (pool.read worker got).taken := by
  have before := once.served other
  rcases eq_or_ne other worker with rfl | apart
  · rw [held,free] at before
    simp only [read,held,Function.update_self,ofWorker_append,ofWorker_called,← before]
    simp
  · simpa only [read,held,Function.update_of_ne apart,ofWorker_append,ofWorker_other apart,
      List.append_nil] using before

theorem serve_served (once : pool.Once) {worker : Nat} (busy : pool.serving worker) (other : Nat) :
    ofWorker other (pool.serve worker).executed ++ (pool.serve worker).held other =
      ofWorker other (pool.serve worker).taken := by
  have before := once.served other
  rcases eq_or_ne other worker with rfl | apart
  · rw [held,if_pos busy] at before
    simpa [serve,held,ofWorker_append,ofWorker_called] using before
  · simpa [serve,held,Function.update_of_ne apart,ofWorker_append,ofWorker_other apart] using before

theorem readInto_length {buffer stream : List UInt8} {count : Nat} (inside : count ≤ stream.length)
    (room : count ≤ buffer.length) : (readInto buffer stream count).length = buffer.length := by
  rw [readInto,List.length_append,List.length_take,List.length_drop]
  omega

theorem read_full (kept : pool.Kept) {worker : Nat} {got : Option Nat}
    (enabled : pool.Enabled (.read worker got)) (other : Nat) :
    ((pool.read worker got).buffers other).length = requestSize := by
  obtain ⟨_,room,inside⟩ := enabled
  rcases eq_or_ne other worker with rfl | apart
  · rw [read_buffers,Function.update_self,readInto_length inside (by rwa [kept.full]),kept.full]
  · rw [read_buffers,Function.update_of_ne apart,kept.full]

theorem read_request {worker : Nat} {request rest : List UInt8} (stream : pool.stream = request ++ rest)
    (whole : request.length = requestSize) (full : (pool.buffers worker).length = requestSize)
    (callback : httpReqFunc request ≠ 0) : pool.read worker (some requestSize) =
      { pool with
        stream := rest
        buffers := Function.update pool.buffers worker request
        serving := Function.update pool.serving worker true
        taken := pool.taken ++ [(worker,request)] } := by
  have got : readInto (pool.buffers worker) pool.stream requestSize = request := by
    rw [readInto,stream,List.take_left' whole,← full,List.drop_length,List.append_nil]
  have left : pool.stream.drop requestSize = rest := by rw [stream,List.drop_left' whole]
  rw [read,Option.getD_some,got,left,called_some callback]

theorem serve_request {worker : Nat} {request : List UInt8} (buffer : pool.buffers worker = request)
    (callback : httpReqFunc request ≠ 0) : pool.serve worker =
      { pool with
        serving := Function.update pool.serving worker false
        executed := pool.executed ++ [(worker,request)] } := by
  rw [serve,buffer,called_some callback]

theorem read_nothing {worker : Nat} {got : Option Nat} (nothing : got.getD 0 = 0)
    (zero : httpReqFunc (pool.buffers worker) = 0) : pool.read worker got =
      {pool with serving := Function.update pool.serving worker true} := by
  have same : readInto (pool.buffers worker) pool.stream 0 = pool.buffers worker := by
    rw [readInto,List.take_zero,List.drop_zero,List.nil_append]
  rw [read,nothing,same,called_none zero,Function.update_eq_self,List.drop_zero,List.append_nil]

theorem read_framed (kept : pool.Kept) {worker : Nat} {got : Option Nat}
    (enabled : pool.Enabled (.read worker got)) (reads : pool.readsRequest (.read worker got)) :
    ∃ pending, (pool.read worker got).written = (pool.read worker got).taken.map Prod.snd ++ pending ∧
      (pool.read worker got).stream = pending.flatten := by
  obtain ⟨pending,written,stream⟩ := kept.framed
  rcases reads with rfl | ⟨nothing,zero⟩
  · obtain ⟨_,_,inside⟩ := enabled
    cases pending with
    | nil =>
      rw [stream] at inside
      exact absurd inside (by decide)
    | cons request rest =>
      obtain ⟨whole,callback⟩ := kept.requests request (written ▸ List.mem_append_right _ List.mem_cons_self)
      rw [read_request stream whole (kept.full worker) callback]
      exact ⟨rest,by simp [written],rfl⟩
  · rw [read_nothing nothing zero]
    exact ⟨pending,written,stream⟩

theorem kept_next (kept : pool.Kept) (enabled : workSock.Enabled pool event) (reads : pool.readsRequest event) :
    (workSock.next pool event).Kept := by
  cases event with
  | write req =>
    obtain ⟨pending,written,stream⟩ := kept.framed
    refine ⟨⟨⟨pending ++ [req.bytes],?_,?_⟩,kept.served⟩,?_,kept.full⟩
    · exact (congrArg (· ++ [req.bytes]) written).trans (List.append_assoc ..)
    · exact (congrArg (· ++ req.bytes) stream).trans (by simp)
    · intro request among
      rcases List.mem_append.mp among with old | new
      · exact kept.requests request old
      · rw [List.mem_singleton.mp new]
        exact ⟨req.bytes_length,httpReqFunc_bytes req⟩
  | read worker got =>
    exact ⟨⟨read_framed kept enabled reads,read_served kept.toOnce enabled.1 got⟩,kept.requests,
      read_full kept enabled⟩
  | serve worker => exact ⟨⟨kept.framed,serve_served kept.toOnce enabled⟩,kept.requests,kept.full⟩

theorem Once.count (once : pool.Once) (whole : ∀ request ∈ pool.written, request.length = requestSize) :
    pool.stream.length + pool.taken.length * requestSize = pool.written.length * requestSize := by
  obtain ⟨pending,written,stream⟩ := once.framed
  have full : ∀ request ∈ pending, request.length = requestSize :=
    fun request waits => whole request (written ▸ List.mem_append_right _ waits)
  rw [stream,flatten_full_length full,written,List.length_append,List.length_map,Nat.add_mul,Nat.add_comm]

theorem reads_of_once (kept : pool.Kept) (enabled : workSock.Enabled pool event)
    (once : (workSock.next pool event).Once) : pool.readsRequest event := by
  cases event with
  | read worker got =>
    obtain ⟨_,room,inside⟩ := enabled
    have whole : ∀ request ∈ pool.written, request.length = requestSize :=
      fun request among => (kept.requests request among).1
    have before := kept.toOnce.count whole
    have after : (pool.stream.drop (got.getD 0)).length +
        (pool.taken ++ called worker (readInto (pool.buffers worker) pool.stream (got.getD 0))).length *
          requestSize = pool.written.length * requestSize := once.count whole
    rw [List.length_drop,List.length_append,Nat.add_mul] at after
    by_cases zero : httpReqFunc (readInto (pool.buffers worker) pool.stream (got.getD 0)) = 0
    · rw [called_none zero,List.length_nil,Nat.zero_mul] at after
      have nothing : got.getD 0 = 0 := by omega
      rw [nothing,readInto,List.take_zero,List.drop_zero,List.nil_append] at zero
      exact Or.inr ⟨nothing,zero⟩
    · rw [called_some zero,List.length_singleton,Nat.one_mul] at after
      have all : got.getD 0 = requestSize := by omega
      cases got with
      | none => cases all
      | some count => exact Or.inl (congrArg some all)
  | _ => trivial

end Workers

theorem started_kept : started.Kept where
  framed := ⟨[],rfl,rfl⟩
  served _ := rfl
  requests _ among := by cases among
  full _ := List.length_replicate

/-- Each request is executed once, by one worker that has read all of it, exactly when no `read`
returns a part of a request, and none returns nothing to a worker that has had a request. -/
theorem executed_once_iff {events : List Event} (follows : workSock.Follows anyEvent started events) :
    (∀ front, front <+: events → (front.foldl workSock.next started).Once) ↔
      workSock.Follows Workers.readsRequest started events :=
  follows_iff_kept (I := Workers.Kept) Workers.kept_next Workers.reads_of_once Workers.Kept.toOnce
    started_kept follows

def request : WorkRequest where
  conn_id := 1
  cToken := []
  cRemoteIp := "10.0.0.7".toUTF8.toList
  url := "/FaceServer/captures".toUTF8.toList
  method := "POST".toUTF8.toList
  query := []
  reqData := 0x7f0000001000
  reqLen := 16
  httpReqFunc := 0x401000
  apiFunc := 0x402000
  checkFunc := 0x403000
  mutex := 0x604000
  callback := by decide

def served : Workers where
  stream := []
  buffers := Function.update started.buffers 0 request.bytes
  serving := Function.update (Function.update started.serving 0 true) 0 false
  written := [request.bytes]
  taken := [(0,request.bytes)]
  executed := [(0,request.bytes)]

def serving : List Event := [.write request,.read 0 (some requestSize),.serve 0]

theorem serving_served : serving.foldl workSock.next started = served := by
  have read : (started.write request).read 0 (some requestSize) =
      { started.write request with
        stream := []
        buffers := Function.update started.buffers 0 request.bytes
        serving := Function.update started.serving 0 true
        taken := [(0,request.bytes)] } :=
    Workers.read_request (List.append_nil _).symm request.bytes_length (started_kept.full 0)
      (httpReqFunc_bytes request)
  change ((started.write request).read 0 (some requestSize)).serve 0 = served
  rw [read,Workers.serve_request (Function.update_self 0 request.bytes started.buffers) (httpReqFunc_bytes request)]
  rfl

theorem serving_follows : workSock.Follows Workers.readsRequest started serving := by
  have inside : requestSize ≤ (started.write request).stream.length := request.bytes_length.ge
  exact ⟨⟨trivial,trivial⟩,⟨⟨rfl,le_rfl,inside⟩,Or.inl rfl⟩,⟨rfl,trivial⟩,trivial⟩

theorem serving_happens : workSock.Follows anyEvent started serving :=
  ⟨⟨trivial,trivial⟩,⟨serving_follows.2.1.1,trivial⟩,⟨rfl,trivial⟩,trivial⟩

theorem executed_once_request : (serving.foldl workSock.next started).Once :=
  (executed_once_iff serving_happens).mpr serving_follows _ List.prefix_rfl

/-- The next `read` of the worker is interrupted. -/
def interrupted : List Event := [.read 0 none,.serve 0]

theorem interrupted_executed : interrupted.foldl workSock.next served =
    { served with
      serving := Function.update (Function.update served.serving 0 true) 0 false
      taken := [(0,request.bytes),(0,request.bytes)]
      executed := [(0,request.bytes),(0,request.bytes)] } := by
  have buffer : served.buffers 0 = request.bytes := by simp only [served,Function.update_self]
  have kept : readInto request.bytes served.stream 0 = request.bytes := by
    rw [readInto,List.take_zero,List.drop_zero,List.nil_append]
  have read : served.read 0 none =
      { served with
        serving := Function.update served.serving 0 true
        taken := [(0,request.bytes),(0,request.bytes)] } := by
    have same : Function.update served.buffers 0 request.bytes = served.buffers :=
      buffer ▸ Function.update_eq_self 0 served.buffers
    rw [Workers.read,Option.getD_none,buffer,kept,Workers.called_some (httpReqFunc_bytes request),same]
    rfl
  change (served.read 0 none).serve 0 = _
  rw [read]
  exact Workers.serve_request buffer (httpReqFunc_bytes request)

theorem executed_twice : workSock.Follows anyEvent started (serving ++ interrupted) ∧
    ((serving ++ interrupted).foldl workSock.next started).written = [request.bytes] ∧
    ((serving ++ interrupted).foldl workSock.next started).executed =
      [(0,request.bytes),(0,request.bytes)] ∧
    ¬ ((serving ++ interrupted).foldl workSock.next started).Once := by
  rw [List.foldl_append,serving_served,interrupted_executed]
  refine ⟨?_,rfl,rfl,fun once => ?_⟩
  · obtain ⟨write,read,serve,_⟩ := serving_happens
    exact ⟨write,read,serve,⟨⟨rfl,Nat.zero_le _,Nat.zero_le _⟩,trivial⟩,⟨rfl,trivial⟩,trivial⟩
  · have count := once.count (by simp [served,request.bytes_length])
    exact absurd count (by decide)

end MoCodes.MoFaceRec.Http
