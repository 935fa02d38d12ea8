import MoCodes.Cps.CpsUtils
import MoCodes.Cps.Client.Dmm

/-! Which bytes the receive thread of the client writes for a header: `recvBody` to the
current block, one piece for each `read`, and `dmmSaveCurBodyBlk` to the data area. A
header is accepted by its mark, command and checksum; its length and index are taken as
they come. -/
namespace MoCodes.Cps.Client
open MoCodes.Lib.Loop MoCodes.Lib.Transfer MoCodes.Utils.Search MoCodes.Cps.CpsUtils

/-- `read` writes the bytes from `ptr` to `ptr+n`. -/
def touch (ptr n : Nat) (written : List Nat) : List Nat :=
  written ++ (List.range n).map fun i => ptr+i

/-- Some read of a `readn` of `len` bytes writes the byte `i` of its buffer. -/
def ReadnWrites (answers : Nat → Answer) (len : Int) (i : Nat) : Prop :=
  ∃ state, Reached (body answers touch) ⟨0,len,0,[]⟩ state ∧ i ∈ state.held

def recvBodyRet (answers : Nat → Answer) (sent : Bytes) (blkLen : Int) (held : Incoming) (fuel : Nat) : Option Int :=
  (CpsUtils.readn answers sent blkLen held fuel).map fun result => if result.1 ≠ blkLen then -2 else 0

def dmmSaveWrites (dmm : Dmm) (header : DataHeader) : List Nat :=
  if dmmSize < header.totalLen ∨ header.totalLen = 0 then []
  else
    let cleared := if dmm.info.seqId ≠ header.seqId then List.range dmmSize else []
    let dmm := if dmm.info.seqId ≠ header.seqId then dmmClear dmm else dmm
    let offset := u32 (header.curBlkIdx*bodyBlkMaxSize)
    if dmmDuplicated dmm.data offset then cleared
    else cleared ++ (List.range header.curBlkLen).map fun i => offset+i

structure WritesInside (header : DataHeader) : Prop where
  curBlk : ∀ answers i, ReadnWrites answers (toInt header.curBlkLen) i → i < bodyBlkMaxSize
  dmm : ∀ answers sent held fuel, recvBodyRet answers sent (toInt header.curBlkLen) held fuel = some 0 →
    ∀ dmm, ∀ i ∈ dmmSaveWrites dmm header, i < dmmSize

section Reads

variable {answers : Nat → Answer} {len i : Nat}

theorem touch_whole (n : Nat) : touch 0 n [] = List.range n := by
  simp [touch]

theorem touch_joined (n m : Nat) (written : List Nat) :
    touch n m (touch 0 n written) = touch 0 (n+m) written := by
  simp only [touch,Nat.zero_add,List.range_add,List.map_append,List.map_map,List.append_assoc,
    List.map_id',Function.comp_def]

theorem touch_nothing (written : List Nat) : touch 0 0 written = written := by
  simp [touch]

theorem readnWrites_below (writes : ReadnWrites answers len i) : i < len := by
  obtain ⟨state,reached,member⟩ := writes
  obtain ⟨k,_,rfl⟩ := reached_along touch_nothing touch_joined reached
  rw [stateAt,touch_whole,List.mem_range] at member
  exact Nat.lt_of_lt_of_le member (Nat.min_le_left _ _)

theorem readnWrites_all (below : i < len) : ReadnWrites (fun _ => .moved len) len i := by
  have first : body (fun _ => .moved len) touch ⟨0,len,0,[]⟩ =
      .next (stateAt (fun _ => .moved len) touch len [] 1) := by
    rw [← stateAt_zero touch_nothing]
    exact body_goes touch_joined [] (.inr (Nat.lt_of_le_of_lt (Nat.zero_le i) below))
      (Nat.lt_of_le_of_lt (Nat.zero_le i) below)
  refine ⟨_,.next .start first,?_⟩
  rw [stateAt,touch_whole,List.mem_range]
  simpa [moved,offered,Answer.size] using below

theorem readnWrites_negative {left : Int} (negative : left < 0) : ¬ ReadnWrites answers left i := by
  rintro ⟨state,reached,member⟩
  rw [reached_nothing negative.le reached] at member
  cases member

end Reads

section Body

variable {answers : Nat → Answer} {sent : Bytes} {held : Incoming} {fuel : Nat}

theorem recvBodyRet_negative {blkLen : Int} (negative : blkLen < 0) :
    recvBodyRet answers sent blkLen held fuel ≠ some 0 := by
  intro ok
  obtain ⟨result,read,same⟩ := Option.map_eq_some_iff.mp ok
  obtain ⟨ended,returns,rfl⟩ := transfer_returns read
  have nothing := returns_unique returns (returns_done (body_nothing negative.le held))
  rw [nothing,retOf,Int.sub_self,if_pos (by omega)] at same
  cases same

theorem recvBodyRet_all (len : Nat) (sent : Bytes) (held : Incoming) :
    ∃ fuel, recvBodyRet (fun _ => .moved (len+1)) sent len held fuel = some 0 := by
  have delivers : Delivers (fun _ => .moved (len+1)) len :=
    ⟨1,fun _ _ => .inr (Nat.succ_pos len),by simp [offered,Answer.size]⟩
  obtain ⟨fuel,read⟩ := readn_delivers sent held delivers
  exact ⟨fuel,by rw [recvBodyRet,read]; simp⟩

end Body

section Area

variable {header : DataHeader}

/-- The area as it is when the block is looked for in it. -/
def dmmEntered (dmm : Dmm) (header : DataHeader) : Dmm :=
  if dmm.info.seqId ≠ header.seqId then dmmClear dmm else dmm

theorem mem_dmmSaveWrites {dmm : Dmm} {i : Nat} : i ∈ dmmSaveWrites dmm header ↔
    ¬ (dmmSize < header.totalLen ∨ header.totalLen = 0) ∧
      (dmm.info.seqId ≠ header.seqId ∧ i < dmmSize ∨
        dmmDuplicated (dmmEntered dmm header).data (u32 (header.curBlkIdx*bodyBlkMaxSize)) = false ∧
          u32 (header.curBlkIdx*bodyBlkMaxSize) ≤ i ∧ i < u32 (header.curBlkIdx*bodyBlkMaxSize)+header.curBlkLen) := by
  generalize place : u32 (header.curBlkIdx*bodyBlkMaxSize) = offset
  have block : i ∈ (List.range header.curBlkLen).map (fun j => offset+j) ↔
      offset ≤ i ∧ i < offset+header.curBlkLen := by
    simp only [List.mem_map,List.mem_range]
    constructor
    · rintro ⟨j,inside,rfl⟩
      omega
    · rintro ⟨low,high⟩
      exact ⟨i-offset,by omega,by omega⟩
  have clear : i ∈ (if dmm.info.seqId ≠ header.seqId then List.range dmmSize else []) ↔
      dmm.info.seqId ≠ header.seqId ∧ i < dmmSize := by
    split
    · next other => simp [other]
    · next same => simp [not_ne_iff.mp same]
  unfold dmmSaveWrites
  rw [place]
  change i ∈ (if dmmSize < header.totalLen ∨ header.totalLen = 0 then [] else
    if dmmDuplicated (dmmEntered dmm header).data offset then _ else _) ↔ _
  split
  · next refused => simp [refused]
  next allowed =>
  cases dmmDuplicated (dmmEntered dmm header).data offset with
  | true => rw [if_pos rfl,clear]; simp [allowed]
  | false => rw [if_neg (by decide),List.mem_append,clear,block]; simp [allowed]

/-- What is not among the bytes written keeps its value. -/
theorem dmmSave_untouched (dmm : Dmm) (pCurBlk : Bytes) {i : Nat} (untouched : i ∉ dmmSaveWrites dmm header) :
    (dmmSaveCurBodyBlk dmm header pCurBlk).1.data i = dmm.data i := by
  by_cases refused : dmmSize < header.totalLen ∨ header.totalLen = 0
  · rw [dmmSaveCurBodyBlk,if_pos refused]
  rw [mem_dmmSaveWrites] at untouched
  have outside := not_or.mp (not_and.mp untouched refused)
  have entered : (dmmEntered dmm header).data i = dmm.data i := by
    unfold dmmEntered
    split
    · next other => exact if_neg fun inside => outside.1 ⟨other,inside⟩
    · rfl
  rw [dmmSaveCurBodyBlk,if_neg refused,← entered]
  change (if dmmDuplicated (dmmEntered dmm header).data _ then _ else _ : Dmm × Int).1.data i = _
  split
  · rfl
  next new =>
  exact if_neg fun inside => outside.2 ⟨by simpa using new,inside⟩

theorem dmmSave_inside_iff : (∀ dmm, ∀ i ∈ dmmSaveWrites dmm header, i < dmmSize) ↔
    header.totalLen = 0 ∨ dmmSize < header.totalLen ∨ header.curBlkLen = 0 ∨
      u32 (header.curBlkIdx*bodyBlkMaxSize)+header.curBlkLen ≤ dmmSize := by
  constructor
  · intro inside
    by_contra outside
    let empty : Dmm := ⟨fun _ => 0,⟨0,0,0,0⟩⟩
    have blank : (dmmEntered empty header).data = fun _ => 0 := by
      unfold dmmEntered
      split
      · exact funext fun i => by simp [dmmClear,empty]
      · rfl
    have last := inside empty (u32 (header.curBlkIdx*bodyBlkMaxSize)+header.curBlkLen-1)
      (mem_dmmSaveWrites.mpr ⟨by omega,.inr ⟨by rw [blank]; simp [dmmDuplicated],by omega,by omega⟩⟩)
    omega
  · intro allowed dmm i member
    obtain ⟨accepted,⟨_,inside⟩ | ⟨_,low,high⟩⟩ := mem_dmmSaveWrites.mp member
    · exact inside
    · omega

end Area

section Claim

theorem curBlkLen_lt (bytes : List UInt8) : (dataHeader bytes).curBlkLen < 2^32 := field_lt bytes 40 4

theorem curBlk_inside_iff (n : Nat) :
    (∀ answers i, ReadnWrites answers (n : Int) i → i < bodyBlkMaxSize) ↔ n ≤ bodyBlkMaxSize := by
  constructor
  · intro inside
    by_contra larger
    exact absurd (inside _ bodyBlkMaxSize (readnWrites_all (not_le.mp larger))) (Nat.lt_irrefl _)
  · intro small answers i writes
    exact Nat.lt_of_lt_of_le (readnWrites_below writes) small

/-- The writes stay inside for every way the bytes come and every state of the area exactly
when the header asks for nothing beyond either of the two. -/
theorem writesInside_iff (bytes : List UInt8) :
    WritesInside (dataHeader bytes) ↔
      2^31 ≤ (dataHeader bytes).curBlkLen ∨
        (dataHeader bytes).curBlkLen ≤ bodyBlkMaxSize ∧
          ((dataHeader bytes).totalLen = 0 ∨ dmmSize < (dataHeader bytes).totalLen ∨
            (dataHeader bytes).curBlkLen = 0 ∨
              u32 ((dataHeader bytes).curBlkIdx*bodyBlkMaxSize)+(dataHeader bytes).curBlkLen ≤ dmmSize) := by
  have word := curBlkLen_lt bytes
  by_cases large : 2^31 ≤ (dataHeader bytes).curBlkLen
  · have negative : toInt (dataHeader bytes).curBlkLen < 0 := by
      rw [toInt,if_neg (by omega)]
      omega
    refine iff_of_true ⟨fun answers i writes => ?_,fun answers sent held fuel ok => ?_⟩ (.inl large)
    · exact absurd writes (readnWrites_negative negative)
    · exact absurd ok (recvBodyRet_negative negative)
  · have same : toInt (dataHeader bytes).curBlkLen = (dataHeader bytes).curBlkLen := by
      rw [toInt,if_pos (by omega)]
    rw [← dmmSave_inside_iff,← curBlk_inside_iff]
    constructor
    · intro inside
      obtain ⟨fuel,ok⟩ := recvBodyRet_all (dataHeader bytes).curBlkLen (fun _ => 0) ⟨fun _ => 0,0⟩
      rw [← same] at ok
      exact .inr ⟨same ▸ inside.curBlk,inside.dmm _ _ _ fuel ok⟩
    · intro inside
      obtain ⟨block,area⟩ := inside.resolve_left large
      exact ⟨same ▸ block,fun _ _ _ _ _ => area⟩

def longBlock : List UInt8 :=
  markServer ++ [0,0,0,0,5,0,0,0,1,0,0,0,1,0,0,0,0,0,0,0,0,0,0,0,0,0,0,0,1,4,0,0,196,0,0,0]

/-- A block of one byte, the place of which is the end of the area. -/
def farBlock : List UInt8 :=
  markServer ++ [0,0,0,0,5,0,0,0,1,0,0,0,1,0,0,0,0,0,0,0,0,16,0,0,0,0,0,0,1,0,0,0,208,0,0,0]

theorem writes_behind_buffers :
    isRightFormatHeader longBlock = true ∧ ¬ (∀ answers i,
      ReadnWrites answers (toInt (dataHeader longBlock).curBlkLen) i → i < bodyBlkMaxSize) ∧
    isRightFormatHeader farBlock = true ∧ (∀ answers i,
      ReadnWrites answers (toInt (dataHeader farBlock).curBlkLen) i → i < bodyBlkMaxSize) ∧
    dmmSize ∈ dmmSaveWrites ⟨fun _ => 0,⟨1,0,0,0⟩⟩ (dataHeader farBlock) := by
  have long : toInt (dataHeader longBlock).curBlkLen = (1025 : Nat) := by decide +kernel
  have far : toInt (dataHeader farBlock).curBlkLen = (1 : Nat) := by decide +kernel
  refine ⟨by decide +kernel,?_,by decide +kernel,?_,by decide +kernel⟩
  · rw [long,curBlk_inside_iff]
    decide
  · rw [far,curBlk_inside_iff]
    decide

end Claim

end MoCodes.Cps.Client
