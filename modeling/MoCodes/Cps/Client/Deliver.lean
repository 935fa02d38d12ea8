import MoCodes.Cps.Client.RecvData
import MoCodes.Cps.Client.DmmComplete
import Mathlib.Algebra.BigOperators.Group.List.Basic
import Mathlib.Algebra.Ring.Nat

/-! Streams of well-formed header and body pairs through the receive thread. Every pair
is taken whole and the thread is back at a header behind it, but only because every
block counts as a complete message: the callback runs once for each block. -/
namespace MoCodes.Cps.Client
open MoCodes.Lib.Loop MoCodes.Utils.Search

structure Pair (message : Message) where
  bytes : List UInt8
  body : List UInt8
  size : bytes.length = dataHeaderSize
  right : isRightFormatHeader bytes = true
  block : BlockOf message (dataHeader bytes) body

structure Delivery where
  message : Message
  pairs : List (Pair message)
  order : (pairs.map fun pair => (dataHeader pair.bytes).curBlkIdx).Perm (List.range message.blkNum)

def Pair.wire {message : Message} (pair : Pair message) : List UInt8 := pair.bytes ++ pair.body

def Pair.receipts {message : Message} (pair : Pair message) : List RecvEvent :=
  [.head (dataHeader pair.bytes),.body (dataHeader pair.bytes) pair.body]

def Delivery.wire (delivery : Delivery) : List UInt8 := delivery.pairs.flatMap Pair.wire

def Delivery.receipts (delivery : Delivery) : List RecvEvent := delivery.pairs.flatMap Pair.receipts

def RecvEvent.handed : RecvEvent → Option (List UInt8)
  | .callback data => some data
  | _ => none

def recvStart (dmm : Dmm) (stream : List UInt8) : RecvData :=
  ⟨.recvHead,⟨0,0,0,0,0⟩,dmmClear dmm,stream,[]⟩

/-- The thread reads the whole stream, pair by pair, and hands over every message once. -/
def ReceivesAll (algo : CryptAlgo) (beyond : Nat → Bytes) (dmm : Dmm) (deliveries : List Delivery) : Prop :=
  ∃ log, Returns (recvDataBody algo beyond) (recvStart dmm (deliveries.flatMap Delivery.wire)) (log,[]) ∧
    log.filter (fun event => event.handed.isNone) = deliveries.flatMap Delivery.receipts ∧
    log.filterMap RecvEvent.handed = deliveries.map fun delivery => delivery.message.data

section Blocks

variable {algo : CryptAlgo} {beyond : Nat → Bytes} {message : Message}

def Pair.handed (pair : Pair message) : List UInt8 :=
  (List.range message.data.length).map fun i =>
    let place := (dataHeader pair.bytes).curBlkIdx*bodyBlkMaxSize
    if place ≤ i ∧ i < place+pair.body.length then pair.body.getD (i-place) 0 else 0

theorem handed_single (pair : Pair message) (single : message.data.length ≤ bodyBlkMaxSize) :
    pair.handed = message.data := by
  have number := (blkNum_one message).mpr single
  have inside := pair.block.inside
  have first : (dataHeader pair.bytes).curBlkIdx = 0 := by omega
  have whole : pair.body = message.data := by rw [pair.block.body,first,block_single single]
  apply List.ext_getElem
  · simp [Pair.handed]
  · intro i left right
    simp [Pair.handed,first,whole,right]

theorem body_small (pair : Pair message) : pair.body.length < 2^31 := by
  rw [pair.block.body,Message.block,List.length_take]
  unfold bodyBlkMaxSize
  omega

theorem recvBody_pair (pair : Pair message) (rest : List UInt8) :
    recvBody (pair.body ++ rest) (toInt (dataHeader pair.bytes).curBlkLen) = (some pair.body,rest) := by
  have small := body_small pair
  rw [pair.block.curBlkLen,toInt,if_pos small]
  simp [recvBody,readn]

variable (beyond) in
theorem recvData_pair (known : algo.known = true) (pair : Pair message) (rest : List UInt8)
    {state : RecvData} (head : state.recvState = .recvHead) (cleared : Cleared state.dmm)
    (stream : state.stream = pair.wire ++ rest) :
    ∃ after, (∀ fuel, run (recvDataBody algo beyond) (fuel+2) state = run (recvDataBody algo beyond) fuel after) ∧
      after.recvState = .recvHead ∧ Cleared after.dmm ∧ after.stream = rest ∧
      after.log = state.log ++ (pair.receipts ++ [.callback pair.handed]) := by
  have taken := recvHead_right beyond known pair.size pair.right (pair.body ++ rest)
  have first : recvDataBody algo beyond state = .next
      {state with
        recvState := .recvBody
        header := dataHeader pair.bytes
        stream := pair.body ++ rest
        log := state.log ++ [.head (dataHeader pair.bytes)]} := by
    simp only [recvDataBody,head,stream,Pair.wire,List.append_assoc,taken]
  have saved := save_fresh (bytesOf pair.body) pair.block (.inr cleared) (fun _ _ => rfl)
  have complete := savedOne_complete saved
  have data : (List.range (dataHeader pair.bytes).totalLen).map
      (dmmSaveCurBodyBlk state.dmm (dataHeader pair.bytes) (bytesOf pair.body)).1.data = pair.handed := by
    rw [pair.block.totalLen]
    apply List.map_congr_left
    intro i member
    have fits := message.fits
    have inside := List.mem_range.mp member
    exact saved.data i (by omega)
  have second : recvDataBody algo beyond
      {state with
        recvState := .recvBody
        header := dataHeader pair.bytes
        stream := pair.body ++ rest
        log := state.log ++ [.head (dataHeader pair.bytes)]} = .next
      ⟨.recvHead,dataHeader pair.bytes,
        dmmClear (dmmSaveCurBodyBlk state.dmm (dataHeader pair.bytes) (bytesOf pair.body)).1,rest,
        state.log ++ (pair.receipts ++ [.callback pair.handed])⟩ := by
    simp only [recvDataBody,recvBody_pair pair rest,complete,if_true,data,Pair.receipts,List.append_assoc]
    rfl
  have passes : ∀ fuel, run (recvDataBody algo beyond) (fuel+2) state = run (recvDataBody algo beyond) fuel _ :=
    fun fuel => (run_next first (fuel+1)).trans (run_next second fuel)
  exact ⟨_,passes,rfl,dmmClear_cleared _,rfl,rfl⟩

end Blocks

section Runs

variable {algo : CryptAlgo} {beyond : Nat → Bytes}

def wirePairs (deliveries : List Delivery) : List (Σ message, Pair message) :=
  deliveries.flatMap fun delivery => delivery.pairs.map fun pair => ⟨delivery.message,pair⟩

def pairEvents (pair : Σ message, Pair message) : List RecvEvent :=
  pair.2.receipts ++ [.callback pair.2.handed]

theorem recvData_run (known : algo.known = true) (pairs : List (Σ message, Pair message))
    {state : RecvData} (head : state.recvState = .recvHead) (cleared : Cleared state.dmm)
    (stream : state.stream = pairs.flatMap fun pair => pair.2.wire) :
    Returns (recvDataBody algo beyond) state (state.log ++ pairs.flatMap pairEvents,[]) := by
  induction pairs generalizing state with
  | nil =>
    apply returns_done
    simp only [List.flatMap_nil] at stream
    simp only [recvDataBody,head,stream,recvHead_empty,List.flatMap_nil,List.append_nil]
  | cons pair pairs ih =>
    rw [List.flatMap_cons] at stream
    obtain ⟨after,passes,headAfter,clearedAfter,streamAfter,log⟩ :=
      recvData_pair beyond known pair.2 _ head cleared stream
    obtain ⟨fuel,ok⟩ := ih headAfter clearedAfter streamAfter
    refine ⟨fuel+2,?_⟩
    rw [passes,ok,log,List.flatMap_cons,List.append_assoc]
    rfl

variable (beyond) in
theorem recvData_unknown (unknown : algo.known = false) (state : RecvData)
    (head : state.recvState = .recvHead) :
    ∃ rest, Returns (recvDataBody algo beyond) state (state.log,rest) := by
  obtain ⟨err,rest,failed⟩ := recvHead_unknown beyond unknown state.stream
  refine ⟨rest,returns_done ?_⟩
  simp only [recvDataBody,head,failed]

theorem pairEvents_receipts (pairs : List (Σ message, Pair message)) :
    (pairs.flatMap pairEvents).filter (fun event => event.handed.isNone) =
      pairs.flatMap fun pair => pair.2.receipts := by
  induction pairs with
  | nil => rfl
  | cons pair pairs ih =>
    rw [List.flatMap_cons,List.filter_append,ih]
    rfl

theorem pairEvents_handed (pairs : List (Σ message, Pair message)) :
    (pairs.flatMap pairEvents).filterMap RecvEvent.handed = pairs.map fun pair => pair.2.handed := by
  induction pairs with
  | nil => rfl
  | cons pair pairs ih =>
    rw [List.flatMap_cons,List.filterMap_append,ih]
    rfl

end Runs

section Deliveries

variable {algo : CryptAlgo} {beyond : Nat → Bytes} {deliveries : List Delivery}

theorem wirePairs_wire (deliveries : List Delivery) :
    (wirePairs deliveries).flatMap (fun pair => pair.2.wire) = deliveries.flatMap Delivery.wire := by
  simp only [wirePairs,List.flatMap_assoc,List.flatMap_map]
  rfl

theorem wirePairs_receipts (deliveries : List Delivery) :
    (wirePairs deliveries).flatMap (fun pair => pair.2.receipts) = deliveries.flatMap Delivery.receipts := by
  simp only [wirePairs,List.flatMap_assoc,List.flatMap_map]
  rfl

theorem delivery_length (delivery : Delivery) : delivery.pairs.length = delivery.message.blkNum := by
  have length := delivery.order.length_eq
  simpa using length

theorem wirePairs_length (deliveries : List Delivery) :
    (wirePairs deliveries).length = (deliveries.map fun delivery => delivery.message.blkNum).sum := by
  simp [wirePairs,List.length_flatMap,delivery_length]

theorem length_le_blocks (deliveries : List Delivery) :
    deliveries.length ≤ (wirePairs deliveries).length := by
  rw [wirePairs_length]
  have each : ∀ count ∈ deliveries.map (fun delivery => delivery.message.blkNum), 1 ≤ count := by
    intro count member
    obtain ⟨delivery,_,rfl⟩ := List.mem_map.mp member
    exact blkNum_pos _
  simpa using List.length_le_sum_of_one_le _ each

theorem single_of_length (same : (wirePairs deliveries).length = deliveries.length) :
    ∀ delivery ∈ deliveries, delivery.message.data.length ≤ bodyBlkMaxSize := by
  induction deliveries with
  | nil => simp
  | cons delivery rest ih =>
    have more := length_le_blocks rest
    have positive := blkNum_pos delivery.message
    simp only [wirePairs_length,List.map_cons,List.sum_cons,List.length_cons] at same more ih
    have here : delivery.message.blkNum = 1 := by omega
    rw [List.forall_mem_cons]
    exact ⟨(blkNum_one _).mp here,ih (by omega)⟩

theorem handed_deliveries (single : ∀ delivery ∈ deliveries, delivery.message.data.length ≤ bodyBlkMaxSize) :
    (wirePairs deliveries).map (fun pair => pair.2.handed) =
      deliveries.map fun delivery => delivery.message.data := by
  induction deliveries with
  | nil => rfl
  | cons delivery rest ih =>
    obtain ⟨here,others⟩ := List.forall_mem_cons.mp single
    have one : delivery.pairs.length = 1 := by rw [delivery_length,(blkNum_one _).mpr here]
    obtain ⟨pair,only⟩ := List.length_eq_one_iff.mp one
    have unfolded : wirePairs (delivery :: rest) = ⟨delivery.message,pair⟩ :: wirePairs rest := by
      simp [wirePairs,only]
    rw [unfolded,List.map_cons,List.map_cons,handed_single pair here,ih others]

theorem recvData_deliveries (known : algo.known = true) (dmm : Dmm) (deliveries : List Delivery) :
    Returns (recvDataBody algo beyond) (recvStart dmm (deliveries.flatMap Delivery.wire))
      ((wirePairs deliveries).flatMap pairEvents,[]) :=
  recvData_run known (wirePairs deliveries) rfl (dmmClear_cleared dmm) (wirePairs_wire deliveries).symm

theorem receives_single (known : algo.known = true) {dmm : Dmm}
    (all : ReceivesAll algo beyond dmm deliveries) :
    ∀ delivery ∈ deliveries, delivery.message.data.length ≤ bodyBlkMaxSize := by
  obtain ⟨log,returned,_,handed⟩ := all
  have logged := (Prod.mk.inj (returns_unique returned (recvData_deliveries known dmm deliveries))).1
  rw [logged,pairEvents_handed] at handed
  apply single_of_length
  simpa using congrArg List.length handed

end Deliveries

def headerOfTwo (idx : UInt8) (len : List UInt8) (sum : UInt8) : List UInt8 :=
  markServer ++ [0,0,0,0] ++ [5,0,0,0] ++ [1,0,0,0] ++ [1,4,0,0,0,0,0,0] ++
    [idx,0,0,0,0,0,0,0] ++ len ++ [sum,0,0,0]

def pairsOfTwo : List (Pair twoBlocks) :=
  [{bytes := headerOfTwo 0 [0,4,0,0] 199
    body := twoBlocks.block 0
    size := rfl
    right := by decide
    block :=
     {seqId := rfl
      totalLen := twoBlocks_length.symm
      inside := blkNum_pos twoBlocks
      curBlkLen := by simp [Message.block,twoBlocks_length,bodyBlkMaxSize]; rfl
      body := rfl}},
   {bytes := headerOfTwo 1 [1,0,0,0] 197
    body := twoBlocks.block 1
    size := rfl
    right := by decide
    block :=
     {seqId := rfl
      totalLen := twoBlocks_length.symm
      inside := by simp [Message.blkNum,twoBlocks_length,bodyBlkMaxSize]; decide
      curBlkLen := by simp [Message.block,twoBlocks_length,bodyBlkMaxSize]; rfl
      body := rfl}}]

def deliveryOfTwo : Delivery where
  message := twoBlocks
  pairs := pairsOfTwo
  order := by
    have number : twoBlocks.blkNum = 2 := by simp [Message.blkNum,twoBlocks_length,bodyBlkMaxSize]
    rw [number]
    exact List.Perm.refl _

end MoCodes.Cps.Client
