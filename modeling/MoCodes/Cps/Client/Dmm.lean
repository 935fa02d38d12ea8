import MoCodes.Cps.Proto

/-! The data memory manager of the CPS client: the blocks of one message are copied to
their places in one area, and a counter of saved blocks is to tell when all are there.
The number of blocks of a message is always taken to be 1, because `?:` binds weaker
than the sum before it. -/
namespace MoCodes.Cps.Client
open MoCodes.Utils.Search

def dmmSize : Nat := 4*1024*1024

theorem dmmSize_blocks : dmmSize = 4096*bodyBlkMaxSize := by decide

structure DmmDatainfo where
  seqId : Nat
  totalLen : Nat
  totalBlkNum : Nat
  curSaveBlkNum : Nat

/-- The area is the memory from `gpDmmData` on. -/
structure Dmm where
  data : Bytes
  info : DmmDatainfo

def dmmClear (dmm : Dmm) : Dmm where
  data := fun i => if i < dmmSize then 0 else dmm.data i
  info := ⟨0,0,0,0⟩

/-- The 16 bytes at the block's place are not all 0. -/
def dmmDuplicated (data : Bytes) (offset : Nat) : Bool :=
  (List.range 16).any fun i => data (offset+i) != 0

def dmmWrite (data : Bytes) (offset : Nat) (pCurBlk : Bytes) (len : Nat) : Bytes :=
  fun i => if offset ≤ i ∧ i < offset+len then pCurBlk (i-offset) else data i

/-- `len / 1024 + (len % 1024) ? 1 : 0` -/
def totalBlkNum (totalLen : Nat) : Nat :=
  if totalLen/bodyBlkMaxSize+totalLen%bodyBlkMaxSize ≠ 0 then 1 else 0

def dmmSaveCurBodyBlk (dmm : Dmm) (header : DataHeader) (pCurBlk : Bytes) : Dmm × Int :=
  if dmmSize < header.totalLen ∨ header.totalLen = 0 then (dmm,-1)
  else
    let dmm := if dmm.info.seqId ≠ header.seqId then dmmClear dmm else dmm
    let offset := u32 (header.curBlkIdx*bodyBlkMaxSize)
    if dmmDuplicated dmm.data offset then (dmm,0)
    else
      ({data := dmmWrite dmm.data offset pCurBlk header.curBlkLen
        info :=
         {seqId := header.seqId
          totalLen := header.totalLen
          totalBlkNum := totalBlkNum header.totalLen
          curSaveBlkNum := dmm.info.curSaveBlkNum+1}},0)

def dmmIsCompleteData (dmm : Dmm) : Bool :=
  dmm.info.totalLen != 0 && dmm.info.totalBlkNum == dmm.info.curSaveBlkNum

section Messages

structure Message where
  seqId : Nat
  data : List UInt8
  nonempty : 0 < data.length
  fits : data.length ≤ dmmSize

def Message.blkNum (message : Message) : Nat :=
  (message.data.length+(bodyBlkMaxSize-1))/bodyBlkMaxSize

def Message.block (message : Message) (idx : Nat) : List UInt8 :=
  (message.data.drop (idx*bodyBlkMaxSize)).take bodyBlkMaxSize

structure BlockOf (message : Message) (header : DataHeader) (body : List UInt8) : Prop where
  seqId : header.seqId = message.seqId
  totalLen : header.totalLen = message.data.length
  inside : header.curBlkIdx < message.blkNum
  curBlkLen : header.curBlkLen = body.length
  body : body = message.block header.curBlkIdx

theorem blkNum_pos (message : Message) : 0 < message.blkNum := by
  have nonempty := message.nonempty
  unfold Message.blkNum bodyBlkMaxSize
  omega

theorem blkNum_one (message : Message) : message.blkNum = 1 ↔ message.data.length ≤ bodyBlkMaxSize := by
  have nonempty := message.nonempty
  unfold Message.blkNum bodyBlkMaxSize
  omega

theorem block_single {message : Message} (single : message.data.length ≤ bodyBlkMaxSize) :
    message.block 0 = message.data := by
  rw [Message.block,Nat.zero_mul,List.drop_zero,List.take_of_length_le single]

end Messages

def Cleared (dmm : Dmm) : Prop := dmm.info = ⟨0,0,0,0⟩ ∧ ∀ i < dmmSize, dmm.data i = 0

theorem dmmClear_cleared (dmm : Dmm) : Cleared (dmmClear dmm) := by
  refine ⟨rfl,fun i inside => ?_⟩
  simp [dmmClear,inside]

section Save

variable {message : Message} {header : DataHeader} {body : List UInt8}

theorem offset_inside (block : BlockOf message header body) :
    u32 (header.curBlkIdx*bodyBlkMaxSize) = header.curBlkIdx*bodyBlkMaxSize ∧
      header.curBlkIdx*bodyBlkMaxSize < message.data.length := by
  have inside := block.inside
  have fits := message.fits
  have nonempty := message.nonempty
  unfold Message.blkNum bodyBlkMaxSize at inside
  unfold dmmSize at fits
  unfold bodyBlkMaxSize
  exact ⟨u32_of_lt (by omega),by omega⟩

theorem totalBlkNum_one {totalLen : Nat} (nonempty : 0 < totalLen) : totalBlkNum totalLen = 1 := by
  unfold totalBlkNum bodyBlkMaxSize
  rw [if_pos (by omega)]

theorem dmmSaveCurBodyBlk_block (block : BlockOf message header body) (dmm : Dmm) (pCurBlk : Bytes) :
    (dmmSaveCurBodyBlk dmm header pCurBlk).1 =
      let dmm := if dmm.info.seqId ≠ message.seqId then dmmClear dmm else dmm
      if dmmDuplicated dmm.data (header.curBlkIdx*bodyBlkMaxSize) then dmm
      else
        {data := dmmWrite dmm.data (header.curBlkIdx*bodyBlkMaxSize) pCurBlk body.length
         info := ⟨message.seqId,message.data.length,1,dmm.info.curSaveBlkNum+1⟩} := by
  have allowed : ¬ (dmmSize < header.totalLen ∨ header.totalLen = 0) := by
    have nonempty := message.nonempty
    have fits := message.fits
    have total := block.totalLen
    omega
  unfold dmmSaveCurBodyBlk
  rw [if_neg allowed,(offset_inside block).1,block.seqId]
  simp only [totalBlkNum_one message.nonempty,block.totalLen,block.curBlkLen]
  split <;> split <;> rfl

def Fresh (dmm : Dmm) (seqId : Nat) : Prop := dmm.info.seqId ≠ seqId ∨ Cleared dmm

/-- One block of the message is saved, and nothing else lies in the area. -/
structure SavedOne (message : Message) (idx : Nat) (body : List UInt8) (dmm : Dmm) : Prop where
  info : dmm.info = ⟨message.seqId,message.data.length,1,1⟩
  data : ∀ i < dmmSize, dmm.data i =
    if idx*bodyBlkMaxSize ≤ i ∧ i < idx*bodyBlkMaxSize+body.length then body.getD (i-idx*bodyBlkMaxSize) 0
    else 0

theorem save_cleared (block : BlockOf message header body) {dmm : Dmm} (cleared : Cleared dmm)
    {pCurBlk : Bytes} (held : ∀ i < body.length, pCurBlk i = body.getD i 0) :
    dmmDuplicated dmm.data (header.curBlkIdx*bodyBlkMaxSize) = false ∧
      SavedOne message header.curBlkIdx body
        {data := dmmWrite dmm.data (header.curBlkIdx*bodyBlkMaxSize) pCurBlk body.length
         info := ⟨message.seqId,message.data.length,1,dmm.info.curSaveBlkNum+1⟩} := by
  obtain ⟨info,zero⟩ := cleared
  have inside := (offset_inside block).2
  have fits := message.fits
  constructor
  · simp only [dmmDuplicated,List.any_eq_false,List.mem_range]
    intro i bound
    have low : header.curBlkIdx*bodyBlkMaxSize+i < dmmSize := by
      rw [dmmSize_blocks] at fits ⊢
      have row : header.curBlkIdx < 4096 := Nat.lt_of_mul_lt_mul_right (Nat.lt_of_lt_of_le inside fits)
      have column : i < bodyBlkMaxSize := by unfold bodyBlkMaxSize; omega
      calc header.curBlkIdx*bodyBlkMaxSize+i < (header.curBlkIdx+1)*bodyBlkMaxSize := by
            rw [Nat.succ_mul]
            omega
        _ ≤ 4096*bodyBlkMaxSize := Nat.mul_le_mul_right _ row
    simp [zero _ low]
  · constructor
    · rw [info]
    · intro i bound
      simp only [dmmWrite]
      split
      · next inBlock => rw [held _ (by omega)]
      · exact zero i bound

theorem save_fresh (pCurBlk : Bytes) (block : BlockOf message header body) {dmm : Dmm} (fresh : Fresh dmm message.seqId)
    (held : ∀ i < body.length, pCurBlk i = body.getD i 0) :
    SavedOne message header.curBlkIdx body (dmmSaveCurBodyBlk dmm header pCurBlk).1 := by
  rw [dmmSaveCurBodyBlk_block block]
  simp only
  split
  · obtain ⟨new,saved⟩ := save_cleared block (dmmClear_cleared dmm) held
    rw [if_neg (by simp [new])]
    exact saved
  · next same =>
    have cleared : Cleared dmm := fresh.resolve_left same
    obtain ⟨new,saved⟩ := save_cleared block cleared held
    rw [if_neg (by simp [new])]
    exact saved

theorem savedOne_complete {idx : Nat} {dmm : Dmm} (saved : SavedOne message idx body dmm) :
    dmmIsCompleteData dmm = true := by
  have nonempty := message.nonempty
  have length : message.data.length ≠ 0 := by omega
  simp [dmmIsCompleteData,saved.info,length]

end Save

section Single

variable {message : Message} {header : DataHeader} {body : List UInt8}

theorem savedOne_duplicated {dmm : Dmm} (saved : SavedOne message 0 message.data dmm) :
    dmmDuplicated dmm.data 0 = true ↔ ∃ byte ∈ message.data.take 16, byte ≠ 0 := by
  have data : ∀ i < 16, dmm.data i = message.data.getD i 0 := by
    intro i bound
    have small : i < dmmSize := by unfold dmmSize; omega
    rw [saved.data i small]
    simp only [Nat.zero_mul,Nat.zero_le,true_and,Nat.zero_add,Nat.sub_zero]
    split
    · rfl
    · rw [List.getD_eq_default _ _ (by omega)]
  simp only [dmmDuplicated,List.any_eq_true,List.mem_range,Nat.zero_add,bne_iff_ne]
  constructor
  · rintro ⟨i,bound,nonzero⟩
    rw [data i bound] at nonzero
    have inside : i < message.data.length := by
      by_contra outside
      rw [List.getD_eq_default _ _ (by omega)] at nonzero
      exact nonzero rfl
    rw [List.getD_eq_getElem _ _ inside] at nonzero
    refine ⟨message.data[i],List.mem_take_iff_getElem.mpr ⟨i,by omega,rfl⟩,nonzero⟩
  · rintro ⟨byte,member,nonzero⟩
    obtain ⟨i,bound,rfl⟩ := List.mem_take_iff_getElem.mp member
    refine ⟨i,by omega,?_⟩
    rw [data i (by omega),List.getD_eq_getElem _ _ (by omega)]
    exact nonzero

end Single

end MoCodes.Cps.Client
