import MoCodes.Cps.Client.Dmm
import Mathlib.Data.List.Induction

/-! Arrivals of one message in any order and with any repetitions. The completion test
holds after the first block saved and after no second one, so it tells the truth only
for messages of one block, and for repetitions only when the block is recognised. -/
namespace MoCodes.Cps.Client
open MoCodes.Utils.Search

structure Arrival (message : Message) where
  header : DataHeader
  body : List UInt8
  pCurBlk : Bytes
  block : BlockOf message header body
  held : ∀ i < body.length, pCurBlk i = body.getD i 0

variable {message : Message}

def saveAll (dmm : Dmm) (arrivals : List (Arrival message)) : Dmm :=
  arrivals.foldl (fun dmm arrival => (dmmSaveCurBodyBlk dmm arrival.header arrival.pCurBlk).1) dmm

/-- The completion test is true exactly when every block has arrived, and then the area
starts with the message. -/
def TellsComplete (arrived : List (Arrival message)) (dmm : Dmm) : Prop :=
  (dmmIsCompleteData dmm = true ↔
    ∀ idx < message.blkNum, ∃ arrival ∈ arrived, arrival.header.curBlkIdx = idx) ∧
  (dmmIsCompleteData dmm = true → ∀ i < message.data.length, dmm.data i = message.data.getD i 0)

def Recognised (message : Message) : Prop := ∃ byte ∈ message.data.take 16, byte ≠ 0

theorem saveAll_append (dmm : Dmm) (arrivals : List (Arrival message)) (last : Arrival message) :
    saveAll dmm (arrivals ++ [last]) =
      (dmmSaveCurBodyBlk (saveAll dmm arrivals) last.header last.pCurBlk).1 := by
  simp [saveAll]

section Single

variable (single : message.data.length ≤ bodyBlkMaxSize)
include single

theorem arrival_single (arrival : Arrival message) :
    arrival.header.curBlkIdx = 0 ∧ arrival.body = message.data := by
  have number := (blkNum_one message).mpr single
  have inside := arrival.block.inside
  have first : arrival.header.curBlkIdx = 0 := by omega
  refine ⟨first,?_⟩
  rw [arrival.block.body,first,block_single single]

theorem savedOne_tells {dmm : Dmm} (saved : SavedOne message 0 message.data dmm)
    {arrived : List (Arrival message)} (some : arrived ≠ []) : TellsComplete arrived dmm := by
  have number := (blkNum_one message).mpr single
  constructor
  · rw [savedOne_complete saved]
    simp only [true_iff]
    intro idx below
    obtain ⟨arrival,member⟩ := List.exists_mem_of_ne_nil arrived some
    exact ⟨arrival,member,by rw [(arrival_single single arrival).1]; omega⟩
  · intro _ i inside
    have fits := message.fits
    rw [saved.data i (by omega)]
    simp [inside]

theorem save_again (arrival : Arrival message) {dmm : Dmm} (saved : SavedOne message 0 message.data dmm) :
    (Recognised message → (dmmSaveCurBodyBlk dmm arrival.header arrival.pCurBlk).1 = dmm) ∧
      (¬ Recognised message →
        dmmIsCompleteData (dmmSaveCurBodyBlk dmm arrival.header arrival.pCurBlk).1 = false) := by
  have same : ¬ dmm.info.seqId ≠ message.seqId := by simp [saved.info]
  have place := (arrival_single single arrival).1
  rw [dmmSaveCurBodyBlk_block arrival.block,if_neg same,place,Nat.zero_mul]
  constructor
  · intro recognised
    simp only
    rw [if_pos ((savedOne_duplicated saved).mpr recognised)]
  · intro unrecognised
    simp only
    rw [if_neg fun found => unrecognised ((savedOne_duplicated saved).mp found)]
    simp [dmmIsCompleteData,saved.info]

theorem saveAll_single {start : Dmm} (fresh : Fresh start message.seqId)
    {arrivals : List (Arrival message)} (some : arrivals ≠ [])
    (kept : arrivals.length ≤ 1 ∨ Recognised message) :
    SavedOne message 0 message.data (saveAll start arrivals) := by
  induction arrivals using List.reverseRecOn with
  | nil => exact absurd rfl some
  | append_singleton arrivals last ih =>
    rw [saveAll_append]
    by_cases first : arrivals = []
    · subst first
      have saved := save_fresh _ last.block fresh last.held
      rw [(arrival_single single last).1,(arrival_single single last).2] at saved
      exact saved
    · have recognised : Recognised message := by
        apply kept.resolve_left
        have length := List.length_pos_iff.mpr first
        simp only [List.length_append,List.length_singleton]
        omega
      have before := ih first (.inr recognised)
      rw [(save_again single last before).1 recognised]
      exact before

end Single

def emptyDmm : Dmm := ⟨fun _ => 0,⟨0,0,0,0⟩⟩

theorem emptyDmm_cleared : Cleared emptyDmm := ⟨rfl,fun _ _ => rfl⟩

def hi : Message := ⟨1,[104,105],by decide,by decide⟩

def hiBlock : Arrival hi where
  header := ⟨5,1,2,0,2⟩
  body := [104,105]
  pCurBlk := bytesOf [104,105]
  block := ⟨rfl,rfl,by decide,rfl,rfl⟩
  held := fun _ _ => rfl

def twoBlocks : Message where
  seqId := 1
  data := List.replicate 1025 7
  nonempty := by rw [List.length_replicate]; omega
  fits := by rw [List.length_replicate]; decide

theorem twoBlocks_length : twoBlocks.data.length = 1025 := List.length_replicate

def firstOfTwo : Arrival twoBlocks where
  header := ⟨5,1,1025,0,1024⟩
  body := twoBlocks.block 0
  pCurBlk := bytesOf (twoBlocks.block 0)
  block :=
   {seqId := rfl
    totalLen := twoBlocks_length.symm
    inside := blkNum_pos twoBlocks
    curBlkLen := by simp [Message.block,twoBlocks_length,bodyBlkMaxSize]
    body := rfl}
  held := fun _ _ => rfl

end MoCodes.Cps.Client
