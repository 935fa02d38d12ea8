import MoCodes.Cps.Client.Dmm

/-! The receive thread of the CPS client on the bytes of its data socket: it takes a
header, then the body behind it, then hands a complete message to the callback. The
bytes have all arrived, and the peer closes behind them; the passes in which `select`
times out and the request to stop the thread are left out. -/
namespace MoCodes.Cps.Client
open MoCodes.Lib.Loop MoCodes.Utils.Search

inductive RecvState where
  | recvHead | recvBody
  deriving DecidableEq,Repr

inductive RecvEvent where
  | head (header : DataHeader)
  | body (header : DataHeader) (curBlk : List UInt8)
  | callback (data : List UInt8)
  deriving DecidableEq,Repr

section Header

/-- `kept` is what the passes before have left at the front of the cipher buffer. -/
structure HeadState where
  pass : Nat
  kept : List UInt8
  stream : List UInt8

inductive HeadResult where
  | ok (header : DataHeader) (stream : List UInt8)
  | failed (err : Int) (stream : List UInt8)

/-- `&plain + n` steps over whole headers: the bytes are those `n` headers behind it. -/
def beyondPlain (beyond : Nat → Bytes) (pass n len : Nat) : List UInt8 :=
  (List.range len).map fun i => beyond pass (n*dataHeaderSize+i)

/-- `beyond pass` is the memory from the plain buffer on in that pass. -/
def headBody (algo : CryptAlgo) (beyond : Nat → Bytes) (state : HeadState) : Outcome HeadState HeadResult :=
  let cipherLen := dataHeaderSize-state.kept.length
  let got := (readn state.stream cipherLen).1
  let stream := (readn state.stream cipherLen).2
  if got.length ≠ cipherLen then .done (.failed (-1) stream)
  else if algo.known = false then .done (.failed (-2) stream)
  else
    let plain := state.kept ++ got
    let again := beyondPlain beyond state.pass (dataHeaderSize-markServer.length+1) (markServer.length-1)
    let ret := findMark plain markServer
    if ret < 0 then .next ⟨state.pass+1,again,stream⟩
    else if ret = 0 then
      if isRightFormatHeader plain then .done (.ok (dataHeader plain) stream)
      else .next ⟨state.pass+1,again,stream⟩
    else
      .next ⟨state.pass+1,beyondPlain beyond state.pass ret.toNat (dataHeaderSize-ret.toNat),stream⟩

/-- Every pass reads, so there are no more passes than bytes. -/
def recvHeadAndCheck (algo : CryptAlgo) (beyond : Nat → Bytes) (stream : List UInt8) : HeadResult :=
  (run (headBody algo beyond) (stream.length+1) ⟨0,[],stream⟩).getD (.failed (-1) [])

end Header

def recvBody (stream : List UInt8) (blkLen : Int) : Option (List UInt8) × List UInt8 :=
  let got := (readn stream blkLen.toNat).1
  (if (got.length : Int) = blkLen then some got else none,(readn stream blkLen.toNat).2)

structure RecvData where
  recvState : RecvState
  header : DataHeader
  dmm : Dmm
  stream : List UInt8
  log : List RecvEvent

/-- The thread ends in `exit` when no header comes; its log and what it has not read remain. -/
def recvDataBody (algo : CryptAlgo) (beyond : Nat → Bytes) (state : RecvData) :
    Outcome RecvData (List RecvEvent × List UInt8) :=
  match state.recvState with
  | .recvHead =>
    match recvHeadAndCheck algo beyond state.stream with
    | .failed _ stream => .done (state.log,stream)
    | .ok header stream =>
      .next {state with recvState := .recvBody, header, stream, log := state.log ++ [.head header]}
  | .recvBody =>
    match recvBody state.stream (toInt state.header.curBlkLen) with
    | (none,stream) => .next {state with recvState := .recvHead, stream}
    | (some curBlk,stream) =>
      let dmm := (dmmSaveCurBodyBlk state.dmm state.header (bytesOf curBlk)).1
      let log := state.log ++ [.body state.header curBlk]
      if dmmIsCompleteData dmm then
        let data := (List.range state.header.totalLen).map dmm.data
        .next {state with recvState := .recvHead, dmm := dmmClear dmm, stream, log := log ++ [.callback data]}
      else .next {state with dmm, stream, log}

section Header

variable {algo : CryptAlgo} {beyond : Nat → Bytes}

theorem beyondPlain_length (pass n len : Nat) : (beyondPlain beyond pass n len).length = len := by
  simp [beyondPlain]

theorem headBody_next {state after : HeadState} (start : state.kept.length < dataHeaderSize)
    (step : headBody algo beyond state = .next after) :
    after.kept.length < dataHeaderSize ∧ after.stream.length < state.stream.length := by
  simp only [headBody] at step
  by_cases short : (readn state.stream (dataHeaderSize-state.kept.length)).1.length ≠
      dataHeaderSize-state.kept.length
  · rw [if_pos short] at step
    cases step
  rw [if_neg short] at step
  have shorter := readn_shorter (by omega) (not_ne_iff.mp short)
  generalize findMark _ _ = ret at step
  by_cases unknown : algo.known = false
  · rw [if_pos unknown] at step
    cases step
  rw [if_neg unknown] at step
  by_cases lost : ret < 0
  · rw [if_pos lost] at step
    cases step
    exact ⟨by rw [beyondPlain_length]; decide,shorter⟩
  rw [if_neg lost] at step
  by_cases front : ret = 0
  · rw [if_pos front] at step
    cases right : isRightFormatHeader _ with
    | true =>
      rw [if_pos right] at step
      cases step
    | false =>
      rw [if_neg (by simp [right])] at step
      cases step
      exact ⟨by rw [beyondPlain_length]; decide,shorter⟩
  · rw [if_neg front] at step
    cases step
    rw [beyondPlain_length]
    unfold dataHeaderSize
    exact ⟨by omega,shorter⟩

theorem recvHead_ends (algo : CryptAlgo) (beyond : Nat → Bytes) (stream : List UInt8) :
    ∃ result, run (headBody algo beyond) (stream.length+1) ⟨0,[],stream⟩ = some result :=
  run_of_measure (fun state => state.kept.length < dataHeaderSize) (fun state => state.stream.length)
    (fun _ _ start step => headBody_next start step) _ _ (show 0 < dataHeaderSize by decide)
    (Nat.lt_succ_self _)

variable (beyond) in
theorem recvHead_right {bytes : List UInt8} (known : algo.known = true)
    (size : bytes.length = dataHeaderSize) (right : isRightFormatHeader bytes = true)
    (stream : List UInt8) :
    recvHeadAndCheck algo beyond (bytes ++ stream) = .ok (dataHeader bytes) stream := by
  have mark : findMark bytes markServer = 0 := by
    apply findMark_front (by decide)
    simp only [isRightFormatHeader,Bool.and_eq_true] at right
    exact right.1.1
  have pass : headBody algo beyond ⟨0,[],bytes ++ stream⟩ = .done (.ok (dataHeader bytes) stream) := by
    simp [headBody,readn,known,size,mark,right]
  rw [recvHeadAndCheck,run_done pass]
  rfl

theorem recvHead_empty : recvHeadAndCheck algo beyond [] = .failed (-1) [] := by
  rfl

variable (beyond) in
theorem recvHead_unknown (unknown : algo.known = false) (stream : List UInt8) :
    ∃ err rest, recvHeadAndCheck algo beyond stream = .failed err rest := by
  have pass : ∃ err rest, headBody algo beyond ⟨0,[],stream⟩ = .done (.failed err rest) := by
    simp only [headBody]
    by_cases short : (readn stream (dataHeaderSize-([] : List UInt8).length)).1.length ≠
        dataHeaderSize-([] : List UInt8).length
    · exact ⟨_,_,if_pos short⟩
    · exact ⟨_,_,by rw [if_neg short,if_pos unknown]⟩
  obtain ⟨err,rest,done⟩ := pass
  refine ⟨err,rest,?_⟩
  rw [recvHeadAndCheck,run_done done]
  rfl

end Header

end MoCodes.Cps.Client
