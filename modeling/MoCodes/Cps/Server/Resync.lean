import MoCodes.Cps.Server.Control

/-! How the control thread finds its requests again behind bytes that belong to none. It
reads windows of one request and looks for the mark inside each of them, so whether it
ever sees one depends on where in a window the first request starts. -/
namespace MoCodes.Cps.Server

structure Request where
  bytes : List UInt8
  size : bytes.length = ctrlRequestSize
  right : isRightFormatRequest bytes = true

def wire (requests : List Request) : List UInt8 := requests.flatMap Request.bytes

/-- The client has agreed on a key, so the thread takes requests. -/
structure Agreed (thr : CtrlThr) : Prop where
  known : ∃ cryptInfo, thr.info.map CliRunningInfo.cryptInfo = some cryptInfo ∧
    cryptInfo.cryptAlgoNo.known = true
  state : ∃ state, thr.state = some state ∧ CliState.keyAgreed.value ≤ state.value

def passes (envs : List Env) (thr : CtrlThr) : CtrlThr :=
  envs.foldl (fun thr env => doCtrlRequestThr env thr) thr

/-- From some pass on, all requests have been processed in order, or all but the first. -/
def Resyncs (thr : CtrlThr) (requests : List Request) : Prop :=
  ∃ enough, ∀ envs : List Env, enough ≤ envs.length →
    (passes envs thr).processed = thr.processed ++ requests.map Request.bytes ∨
    (passes envs thr).processed = thr.processed ++ requests.tail.map Request.bytes

section Positions

/-! Where the mark can lie. It starts with the only 'M' in it, so two of them do not
overlap, and the rest of a request has zeros that leave no room for one. -/

theorem mark_head : ∀ k < markClient.length, markClient[k]? = some 77 → k = 0 := by
  decide

theorem mark_nonzero {k : Nat} : markClient[k]? ≠ some 0 := by
  intro same
  have member := List.mem_of_getElem? same
  revert member
  decide

theorem marks_apart {bytes : List UInt8} {i j : Nat} (first : MarkAt bytes markClient i)
    (second : MarkAt bytes markClient j) (lower : i < j) : i+markClient.length ≤ j := by
  by_contra overlap
  have head := markAt_byte second (show 0 < markClient.length by decide)
  have inside := markAt_byte first (show j-i < markClient.length by omega)
  rw [show i+(j-i) = j by omega,← Nat.add_zero j,head] at inside
  have := mark_head _ (by omega) inside.symm
  omega

theorem request_mark (request : Request) (rest : List UInt8) :
    MarkAt (request.bytes ++ rest) markClient 0 := by
  have right := request.right
  simp only [isRightFormatRequest,Bool.and_eq_true] at right
  obtain ⟨front,inside⟩ := sameMark_take right.1.1
  rw [markAt_left (by omega)]
  exact front

theorem request_zeros (request : Request) : request.bytes[12]? = some 0 ∧ request.bytes[21]? = some 0 := by
  have right := request.right
  have size := request.size
  simp only [isRightFormatRequest,Bool.and_eq_true] at right
  obtain ⟨⟨same,command⟩,_⟩ := right
  constructor
  · have ended := congrArg (·[12]?) (beq_iff_eq.mp same)
    simpa [markClient,List.getElem?_take] using ended
  · have low : field request.bytes 20 4 < 6 := cmdId_bound command
    have upper := readLE_second (show field request.bytes 20 4 < 256 by omega) (by
      rw [List.length_take,List.length_drop,size]
      decide)
    simpa [List.getElem?_take,List.getElem?_drop] using upper

theorem request_rest (request : Request) (i : Nat) :
    ¬ MarkAt (request.bytes.drop markClient.length) markClient i := by
  intro here
  obtain ⟨ended,upper⟩ := request_zeros request
  have inside := markAt_inside (by decide) here
  have size := request.size
  have length : markClient.length = 12 := rfl
  simp only [List.length_drop,size,ctrlRequestSize,length] at inside
  have clash : ∀ k < 12, request.bytes[12+i+k]? ≠ some 0 := by
    intro k bound zero
    have byte := markAt_byte here (show k < markClient.length from bound)
    rw [List.getElem?_drop,length,← Nat.add_assoc,zero] at byte
    exact mark_nonzero byte.symm
  cases i with
  | zero => exact clash 0 (by omega) ended
  | succ i =>
    apply clash (8-i) (by omega)
    rw [show 12+(i+1)+(8-i) = 21 by omega]
    exact upper

/-- Behind a prefix without it, the mark lies at the starts of the requests only. -/
theorem wire_marks {requests : List Request} {pre : List UInt8} (clean : ∀ i, ¬ MarkAt pre markClient i)
    {i : Nat} (here : MarkAt (pre ++ wire requests) markClient i) :
    i % ctrlRequestSize = pre.length % ctrlRequestSize := by
  induction requests generalizing pre i with
  | nil =>
    rw [wire,List.flatMap_nil,List.append_nil] at here
    exact absurd here (clean i)
  | cons request requests ih =>
    have start : MarkAt (pre ++ wire (request :: requests)) markClient pre.length := by
      rw [← Nat.add_zero pre.length,← markAt_drop,List.drop_left' rfl]
      exact request_mark request (wire requests)
    rcases Nat.lt_trichotomy i pre.length with lower | same | higher
    · have inside := marks_apart here start lower
      exact absurd ((markAt_left inside).mp here) (clean i)
    · rw [same]
    · have behind := marks_apart start here higher
      have split_here : i = pre.length+markClient.length+(i-(pre.length+markClient.length)) := by omega
      have length : markClient.length = 12 := rfl
      have size := request.size
      rw [split_here,← markAt_drop,← List.drop_drop,List.drop_left' rfl,wire,List.flatMap_cons,
        List.drop_append_of_le_length (by rw [size]; decide)] at here
      have rest := ih (request_rest request) here
      rw [List.length_drop,size,length] at rest
      unfold ctrlRequestSize at rest ⊢
      omega

end Positions

section Passes

structure Reading (thr : CtrlThr) (stream : List UInt8) (done : List (List UInt8)) : Prop where
  agreed : Agreed thr
  stream : thr.stream = stream
  processed : thr.processed = done

variable {thr after : CtrlThr} {env : Env} {stream rest bytes : List UInt8} {done : List (List UInt8)}

theorem agreed_keeps (agreed : Agreed thr) (keeps : Keeps thr after) : Agreed after where
  known := by
    rw [keeps.cryptInfo]
    exact agreed.known
  state := by
    rw [keeps.state]
    exact agreed.state

theorem agreed_pass (agreed : Agreed thr) : ∃ info, thr.info = some info ∧
    (∀ bytes, doDecrypt info.cryptInfo bytes = some bytes) ∧
    ∀ env, doCtrlRequestThr env thr = (doSimpleRequest env thr).2 := by
  obtain ⟨⟨cryptInfo,stored,known⟩,state,held,high⟩ := agreed
  obtain ⟨info,found,rfl⟩ := Option.map_eq_some_iff.mp stored
  refine ⟨info,found,fun bytes => by rw [doDecrypt,if_pos known],fun env => ?_⟩
  simp only [doCtrlRequestThr,held]
  rw [if_neg (by omega)]

theorem reading_error (reading : Reading thr stream done) {err : RecvErr}
    (failed : ∀ decrypt, (∀ bytes, decrypt bytes = some bytes) →
      recvRequest decrypt stream = (.error err,rest)) :
    Reading (doCtrlRequestThr env thr) rest done := by
  obtain ⟨agreed,rfl,rfl⟩ := reading
  obtain ⟨info,found,copy,pass⟩ := agreed_pass agreed
  rw [pass]
  simp only [doSimpleRequest,found,failed _ copy]
  exact ⟨⟨agreed.known,agreed.state⟩,rfl,rfl⟩

theorem reading_request (reading : Reading thr stream done)
    (taken : ∀ decrypt, (∀ bytes, decrypt bytes = some bytes) →
      recvRequest decrypt stream = (.ok bytes,rest)) (right : isRightFormatRequest bytes = true) :
    Reading (doCtrlRequestThr env thr) rest (done ++ [bytes]) := by
  obtain ⟨agreed,rfl,rfl⟩ := reading
  obtain ⟨info,found,copy,pass⟩ := agreed_pass agreed
  rw [pass]
  simp only [doSimpleRequest,found,taken _ copy,right,if_true]
  have started : Agreed (CtrlThr.emit {thr with stream := rest} (.request bytes)) :=
    ⟨agreed.known,agreed.state⟩
  have keeps := doRequest_keeps env bytes (CtrlThr.emit {thr with stream := rest} (.request bytes))
  refine ⟨agreed_keeps started keeps,keeps.stream,?_⟩
  rw [keeps.processed,emit_processed]
  rfl

theorem reading_lost (env : Env) (reading : Reading thr stream done)
    (lost : ∀ i, i+markClient.length ≤ ctrlRequestSize → ¬ MarkAt stream markClient i) :
    Reading (doCtrlRequestThr env thr) (stream.drop ctrlRequestSize) done := by
  by_cases full : ctrlRequestSize ≤ stream.length
  · exact reading_error reading fun _ copy => recvRequest_lost copy full lost
  · rw [List.drop_of_length_le (by omega)]
    exact reading_error reading fun _ _ => recvRequest_short (by omega)

theorem reading_found (env : Env) {pre : List UInt8} (clean : ∀ i, ¬ MarkAt pre markClient i) (request : Request)
    (early : pre.length+markClient.length ≤ ctrlRequestSize)
    (reading : Reading thr (pre ++ (request.bytes ++ rest)) done) :
    Reading (doCtrlRequestThr env thr) rest (done ++ [request.bytes]) := by
  have start : MarkAt (pre ++ (request.bytes ++ rest)) markClient pre.length := by
    rw [← Nat.add_zero pre.length,← markAt_drop,List.drop_left' rfl]
    exact request_mark request rest
  have size := request.size
  apply reading_request reading _ request.right
  intro decrypt copy
  have mark : FirstMark (pre ++ (request.bytes ++ rest)) pre.length := by
    refine ⟨early,start,fun r below there => ?_⟩
    exact clean r ((markAt_left (marks_apart there start below)).mp there)
  rw [recvRequest_found copy (by simp only [List.length_append]; omega) mark]
  rw [← List.drop_drop,List.drop_left' rfl,List.take_left' size,List.drop_left' size]

end Passes

section Runs

variable {thr : CtrlThr} {done : List (List UInt8)} {pre stream : List UInt8} {requests : List Request}

theorem empty_clean (i : Nat) : ¬ MarkAt [] markClient i := by
  intro here
  exact absurd (markAt_inside (by decide) here) (by simp [markClient])

theorem reading_end (reading : Reading thr [] done) (envs : List Env) : Reading (passes envs thr) [] done := by
  induction envs generalizing thr with
  | nil => exact reading
  | cons env envs ih =>
    exact ih (reading_lost env reading fun i _ => empty_clean i)

theorem reading_aligned (reading : Reading thr (wire requests) done) {envs : List Env}
    (enough : requests.length ≤ envs.length) :
    Reading (passes envs thr) [] (done ++ requests.map Request.bytes) := by
  induction requests generalizing thr done envs with
  | nil =>
    rw [List.map_nil,List.append_nil]
    exact reading_end reading envs
  | cons request requests ih =>
    obtain ⟨env,envs,rfl⟩ := List.exists_cons_of_length_pos (Nat.lt_of_lt_of_le (Nat.succ_pos _) enough)
    have one := reading_found env empty_clean request (by decide) reading
    have all := ih one (Nat.le_of_succ_le_succ enough)
    rw [List.append_assoc] at all
    exact all

theorem reading_early (n : Nat) (clean : ∀ i, ¬ MarkAt pre markClient i)
    (early : pre.length+markClient.length ≤ ctrlRequestSize*(n+1)) (late : ctrlRequestSize*n ≤ pre.length)
    (reading : Reading thr (pre ++ wire requests) done) {envs : List Env}
    (enough : n+1+requests.length ≤ envs.length) :
    Reading (passes envs thr) [] (done ++ requests.map Request.bytes) := by
  induction n generalizing thr pre envs with
  | zero =>
    obtain ⟨env,envs,rfl⟩ := List.exists_cons_of_length_pos (show 0 < envs.length by omega)
    rw [List.length_cons] at enough
    cases requests with
    | nil =>
      rw [wire,List.flatMap_nil,List.append_nil] at reading
      have last := reading_lost env reading fun i _ => clean i
      rw [List.drop_of_length_le (by omega)] at last
      rw [List.map_nil,List.append_nil]
      exact reading_end last envs
    | cons request requests =>
      have one := reading_found env clean request (by omega) reading
      rw [List.length_cons] at enough
      have all := reading_aligned one (show requests.length ≤ envs.length by omega)
      rw [List.append_assoc] at all
      exact all
  | succ n ih =>
    obtain ⟨env,envs,rfl⟩ := List.exists_cons_of_length_pos (show 0 < envs.length by omega)
    rw [List.length_cons] at enough
    have window : ctrlRequestSize ≤ pre.length := by rw [Nat.mul_succ] at late; omega
    have skipped := reading_lost env reading (by
      intro i inside here
      exact clean i ((markAt_left (by omega)).mp here))
    rw [List.drop_append_of_le_length window] at skipped
    refine ih ?_ ?_ ?_ skipped (by omega)
    · intro i here
      rw [markAt_drop] at here
      exact clean _ here
    · rw [List.length_drop]
      rw [Nat.mul_succ] at early
      omega
    · rw [List.length_drop]
      rw [Nat.mul_succ] at late
      omega

/-- Where every mark starts late in a window, no pass ever sees one. -/
theorem reading_late {q : Nat} (late : ctrlRequestSize < q+markClient.length)
    (marks : ∀ i, MarkAt stream markClient i → i % ctrlRequestSize = q)
    (reading : Reading thr stream done) (envs : List Env) : (passes envs thr).processed = done := by
  induction envs generalizing thr stream with
  | nil => exact reading.processed
  | cons env envs ih =>
    have skipped := reading_lost env reading (by
      intro i inside here
      have same := marks i here
      rw [Nat.mod_eq_of_lt (Nat.lt_of_lt_of_le (Nat.lt_add_of_pos_right (by decide)) inside)] at same
      omega)
    refine ih ?_ skipped
    intro i here
    rw [markAt_drop] at here
    rw [← marks _ here,Nat.add_mod_left]

theorem late_never (agreed : Agreed thr) (clean : ∀ i, ¬ MarkAt pre markClient i)
    (arrived : thr.stream = pre ++ wire requests)
    (late : ctrlRequestSize < pre.length % ctrlRequestSize+markClient.length) (envs : List Env) :
    (passes envs thr).processed = thr.processed :=
  reading_late late (fun _ here => wire_marks clean here) ⟨agreed,arrived,rfl⟩ envs

theorem never_resyncs (never : ∀ envs, (passes envs thr).processed = thr.processed) :
    Resyncs thr requests ↔ requests.length ≤ 1 := by
  constructor
  · rintro ⟨enough,resynced⟩
    have some_pass := resynced (List.replicate enough idleEnv) (by simp)
    rw [never] at some_pass
    rcases some_pass with same | same
    · have length := congrArg List.length same
      simp only [List.length_append,List.length_map] at length
      omega
    · have length := congrArg List.length same
      simp only [List.length_append,List.length_map,List.length_tail] at length
      omega
  · intro few
    refine ⟨0,fun envs _ => .inr ?_⟩
    have nothing : requests.tail = [] := by
      rw [← List.length_eq_zero_iff,List.length_tail]
      omega
    rw [never,nothing,List.map_nil,List.append_nil]

theorem resyncs_iff (agreed : Agreed thr) (clean : ∀ i, ¬ MarkAt pre markClient i)
    (arrived : thr.stream = pre ++ wire requests) :
    Resyncs thr requests ↔
      pre.length % ctrlRequestSize+markClient.length ≤ ctrlRequestSize ∨ requests.length ≤ 1 := by
  by_cases early : pre.length % ctrlRequestSize+markClient.length ≤ ctrlRequestSize
  · refine iff_of_true ⟨pre.length/ctrlRequestSize+1+requests.length,fun envs enough => .inl ?_⟩ (.inl early)
    have parts := Nat.div_add_mod pre.length ctrlRequestSize
    refine (reading_early (pre.length/ctrlRequestSize) clean ?_ (by omega) ⟨agreed,arrived,rfl⟩ enough).processed
    rw [Nat.mul_succ]
    omega
  · rw [never_resyncs (late_never agreed clean arrived (Nat.lt_of_not_le early)),or_iff_right early]

end Runs

section Inputs

def heartbeatRequest : Request where
  bytes := markClient ++ [0,0,0,0,0,0,0,0,1,0,0,0,0,0,0,0,0,0,0,0]
  size := rfl
  right := by decide

def agreedThr (stream : List UInt8) : CtrlThr where
  ctrlSockId := 5
  clients := ⟨[newCliInfo 1 5 4000 ⟨.des,[1,2,3,4,5,6,7,8],8⟩],[⟨1,4000,5,.keyAgreed,0⟩]⟩
  stream := stream
  log := []

theorem agreedThr_agreed (stream : List UInt8) : Agreed (agreedThr stream) :=
  ⟨⟨_,rfl,rfl⟩,_,rfl,le_refl _⟩

theorem zeros_clean (n i : Nat) : ¬ MarkAt (List.replicate n 0) markClient i := by
  intro here
  have byte := markAt_byte here (show 0 < markClient.length by decide)
  have zero := List.eq_of_mem_replicate (List.mem_of_getElem? byte)
  cases zero

theorem resyncs_iff_twenty :
    Resyncs (agreedThr (List.replicate 20 0 ++ wire [heartbeatRequest,heartbeatRequest]))
      [heartbeatRequest,heartbeatRequest] :=
  (resyncs_iff (agreedThr_agreed _) (zeros_clean 20) rfl).mpr (.inl (by decide))

theorem heartbeats_lost : ¬ Resyncs
    (agreedThr (List.replicate 21 0 ++ wire [heartbeatRequest,heartbeatRequest]))
      [heartbeatRequest,heartbeatRequest] := by
  rw [never_resyncs (late_never (agreedThr_agreed _) (zeros_clean 21) rfl (by decide))]
  decide

end Inputs

end MoCodes.Cps.Server
