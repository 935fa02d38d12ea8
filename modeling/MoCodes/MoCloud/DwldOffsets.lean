import MoCodes.MoCloud.Download

/-! The offsets of a download. CliData::run gives to lseek and writeFile to fseek the number of the
unit times its length, both as an `int`. -/
namespace MoCodes.MoCloud.DwldOffsets
open Lib.Transition Client.UnitList Server Server.SendFile

/-- `unitId * MOCLOUD_DATA_UNIT_LEN`, before it becomes an `off_t`. -/
def lseekOffset (unitId : Int) : Int := toInt (unitId*dataUnitLen)

/-- SEEK_SET refuses a negative offset and otherwise returns it. -/
def lseek (offset : Int) : Int := if offset < 0 then -1 else offset

/-- `int offset` of writeFile. -/
def fseekOffset (info : DwldUnitInfo) : Int := toInt (info.unitId*dataUnitLen)

/-- The result of lseek goes to an `int` before it is compared with 0. -/
structure OffsetsExact (unitId : Int) : Prop where
  lseek : lseekOffset unitId = unitId*dataUnitLen
  fseek : ∀ info : DwldUnitInfo, info.unitId = unitId → fseekOffset info = unitId*dataUnitLen
  error : toInt (DwldOffsets.lseek (lseekOffset unitId)) < 0 → DwldOffsets.lseek (lseekOffset unitId) = -1

inductive Event where
  | run (reads : Bool) (taken : Nat)
  | stop

/-- What the calls of a thread on the file give; one whose handle is closed gets nothing. -/
def dataAnswer (file : List UInt8) (thread : CliData) (reads : Bool) (taken : Nat) : DataAnswer where
  lseek := if thread.mReadHdl < 0 then -1 else lseek (lseekOffset thread.unitId)
  read := if thread.mReadHdl < 0 ∨ !reads then none else some (file.drop (lseekOffset thread.unitId).toNat)
  taken := taken

/-- A download thread of the server, which may be stopped, and whose reads may fail. -/
def sendSystem (file : List UInt8) : System CliData Event where
  Enabled thread
    | .run _ _ => thread.place ≠ .ended
    | .stop => True
  next thread
    | .run reads taken => (thread.run (dataAnswer file thread reads taken)).1
    | .stop => thread.closeStop

section Offsets

variable {unitId : Int}

theorem writeFile_fseek (localFile : List UInt8) (info : DwldUnitInfo) :
    writeFile localFile info = if fseekOffset info < 0 ∨ info.body.take info.bodyLen.toNat = [] then localFile
      else Lib.PosFile.writeAt 0 localFile (fseekOffset info).toNat (info.body.take info.bodyLen.toNat) := rfl

theorem product_int (low : -2^21 ≤ unitId) (high : unitId < 2^21) : toInt (unitId*dataUnitLen) = unitId*dataUnitLen := by
  unfold dataUnitLen
  rw [toInt,Int.bmod_eq_of_le] <;> omega

/-- The offset that lseek gets is an `int`, so that what it returns is one. -/
theorem lseek_error (unitId : Int) (negative : toInt (lseek (lseekOffset unitId)) < 0) :
    lseek (lseekOffset unitId) = -1 := by
  by_cases refused : lseekOffset unitId < 0
  · exact if_pos refused
  · have found : lseek (lseekOffset unitId) = toInt (unitId*dataUnitLen) := if_neg refused
    rw [found,show toInt (toInt (unitId*dataUnitLen)) = toInt (unitId*dataUnitLen) from Int.bmod_bmod] at negative
    exact absurd negative refused

theorem offsetsExact_of (low : -2^21 ≤ unitId) (high : unitId < 2^21) : OffsetsExact unitId := by
  refine ⟨product_int low high,?_,lseek_error unitId⟩
  rintro info rfl
  exact product_int low high

/-- An offset of 2 GiB is no `int`. -/
theorem offsetsExact_iff (unitId : Nat) : OffsetsExact unitId ↔ unitId < 2^21 := by
  refine ⟨fun exact => ?_,fun high => offsetsExact_of (by omega) (by omega)⟩
  have less := (toInt_same (unitId*dataUnitLen)).mp exact.lseek
  unfold dataUnitLen at less
  omega

end Offsets

section Runs

variable {file : List UInt8} {thread : CliData} {info : DwldReqInfo} {sockId fd : Int} {asked : CliState}

/-- The unit is before 2 GiB; what has been read of it is a part of the file. -/
def Low (file : List UInt8) (thread : CliData) : Prop :=
  ∃ k : Nat, thread.unitId = k ∧ k < 2^21 ∧
    ∀ data, thread.place = .sendHeader data ∨ thread.place = .sendBody data → k*dataUnitLen+data.length ≤ file.length

/-- A thread that lseek refuses at its first unit. -/
structure Refused (thread : CliData) : Prop where
  unit : -2^21 ≤ thread.unitId ∧ thread.unitId < 0
  place : thread.place = .check ∨ thread.place = .seek ∨ thread.place = .sendEof ∨ thread.place = .ended

theorem low_run (size : file.length < 2^31) (before : Low file thread) (reads : Bool) (taken : Nat) :
    Low file (thread.run (dataAnswer file thread reads taken)).1 := by
  obtain ⟨k,unit,high,inside⟩ := before
  have offset : lseekOffset thread.unitId = (k*dataUnitLen : Nat) := by
    rw [lseekOffset,unit,product_int (by omega) (by omega)]
    rfl
  unfold CliData.run
  cases place : thread.place with
  | check =>
    refine ⟨k,unit,high,fun data there => ?_⟩
    dsimp only at there
    split_ifs at there <;> simp at there
  | seek =>
    refine ⟨k,unit,high,fun data there => ?_⟩
    dsimp only at there
    split_ifs at there <;> simp at there
  | read =>
    dsimp only [dataAnswer]
    split
    · exact ⟨k,unit,high,fun data there => by simp at there⟩
    · rename_i data got
      have part : data = file.drop (k*dataUnitLen) := by
        split_ifs at got
        rw [offset,Int.toNat_natCast] at got
        exact (Option.some.inj got).symm
      refine ⟨k,unit,high,fun sent there => ?_⟩
      dsimp only at there
      split_ifs at there with nothing
      · simp at there
      · obtain rfl : data.take dataUnitLen = sent := by simpa using there
        replace nothing : 0 < (data.take dataUnitLen).length := List.length_pos_iff.mpr nothing
        rw [part,List.length_take,List.length_drop] at nothing
        rw [part,List.length_take,List.length_drop]
        omega
  | sendHeader data => exact ⟨k,unit,high,fun sent there => inside sent (by simpa [place] using there)⟩
  | sendBody data =>
    dsimp only
    split_ifs with full
    · exact ⟨k,unit,high,fun data there => by simp at there⟩
    · have behind := inside data (Or.inr place)
      rw [not_not.mp full] at behind
      refine ⟨k+1,by simp [unit],?_,fun data there => by simp at there⟩
      unfold dataUnitLen at behind
      omega
  | sendEof => exact ⟨k,unit,high,fun data there => by simp at there⟩
  | ended => exact ⟨k,unit,high,fun data there => by simp [place] at there⟩

theorem refused_run (before : Refused thread) (reads : Bool) (taken : Nat) :
    Refused (thread.run (dataAnswer file thread reads taken)).1 := by
  obtain ⟨⟨low,high⟩,there⟩ := before
  have negative : toInt (dataAnswer file thread reads taken).lseek < 0 := by
    have product : lseekOffset thread.unitId < 0 := by
      rw [lseekOffset,product_int low (by omega)]
      unfold dataUnitLen
      omega
    dsimp only [dataAnswer]
    rw [lseek,if_pos product,ite_self]
    decide
  unfold CliData.run
  rcases there with place | place | place | place <;> rw [place]
  · refine ⟨⟨low,high⟩,?_⟩
    dsimp only
    split_ifs
    · exact .inr (.inl rfl)
    · exact .inr (.inr (.inr rfl))
  · refine ⟨⟨low,high⟩,.inr (.inr (.inl ?_))⟩
    exact if_pos negative
  · exact ⟨⟨low,high⟩,.inr (.inr (.inr rfl))⟩
  · exact ⟨⟨low,high⟩,.inr (.inr (.inr place))⟩

/-- The start offset goes through a `size_t`, and the unit, rounded down, is what it is over the integers. -/
theorem start_unit (isInt : IsInt info.startOffset) :
    (newCliData sockId info fd true asked).unitId = info.startOffset/1024 := by
  obtain ⟨low,high⟩ := isInt
  rw [newCliData,show dataUnitLen = 1024 from rfl]
  by_cases negative : info.startOffset < 0
  · have size : ((toSize info.startOffset/1024 : Nat) : Int) = info.startOffset/1024+(2^32 : Nat)*2^22 := by
      have wrapped : info.startOffset%2^64 = info.startOffset+2^64 := by omega
      rw [toSize,wrapped]
      omega
    rw [size,toInt,Int.add_mul_bmod_self_left,Int.bmod_eq_of_le] <;> omega
  · have size : ((toSize info.startOffset/1024 : Nat) : Int) = info.startOffset/1024 := by
      have same : info.startOffset%2^64 = info.startOffset := by omega
      rw [toSize,same]
      omega
    rw [size,toInt,Int.bmod_eq_of_le] <;> omega

theorem low_of_run (size : file.length < 2^31) (isInt : IsInt info.startOffset) (start : 0 ≤ info.startOffset)
    (run : (sendSystem file).Run anyEvent (newCliData sockId info fd true asked) thread) : Low file thread := by
  refine run_invariant ?_ ?_ run
  · refine ⟨(info.startOffset/1024).toNat,?_,?_,fun data there => by simp [newCliData] at there⟩
    · rw [start_unit isInt]
      omega
    · have high := isInt.2
      omega
  · rintro thread (⟨reads,taken⟩ | _) before _ _
    · exact low_run size before reads taken
    · exact before

theorem refused_of_run (isInt : IsInt info.startOffset) (start : info.startOffset < 0)
    (run : (sendSystem file).Run anyEvent (newCliData sockId info fd true asked) thread) : Refused thread := by
  refine run_invariant ?_ ?_ run
  · refine ⟨?_,.inl rfl⟩
    have low := isInt.1
    rw [start_unit isInt]
    omega
  · rintro thread (⟨reads,taken⟩ | _) before _ _
    · exact refused_run before reads taken
    · exact ⟨before.unit,before.place⟩

/-- A thread goes on behind each whole unit before 2 GiB. -/
theorem run_unit {start : CliData} {k : Nat} (run : (sendSystem file).Run anyEvent start thread)
    (running : thread.mIsRun = true ∧ 0 ≤ thread.mReadHdl) (place : thread.place = .check) (unit : thread.unitId = k)
    (high : k < 2^21) (whole : (k+1)*dataUnitLen ≤ file.length) :
    (sendSystem file).Run anyEvent start { thread with unitId := (k+1 : Nat) } := by
  have offset : lseekOffset thread.unitId = (k*dataUnitLen : Nat) := by
    rw [lseekOffset,unit,product_int (by omega) (by omega)]
    rfl
  have sought : ¬ toInt (lseek (lseekOffset thread.unitId)) < 0 := by
    intro failed
    have refused := lseek_error _ failed
    rw [lseek,offset,if_neg (by omega)] at refused
    omega
  have full : ((file.drop (k*dataUnitLen)).take dataUnitLen).length = dataUnitLen := by
    rw [List.length_take,List.length_drop]
    rw [Nat.succ_mul] at whole
    omega
  have opened : ¬ thread.mReadHdl < 0 := Int.not_lt.mpr running.2
  have seeks : (sendSystem file).Run anyEvent start { thread with place := .seek } :=
    run_event (.run true 0) run (by simp [sendSystem,place]) (by simp [sendSystem,CliData.run,place,running])
  have reads : (sendSystem file).Run anyEvent start { thread with place := .read } :=
    run_event (.run true 0) seeks (by simp [sendSystem])
      (by simp [sendSystem,CliData.run,dataAnswer,opened,sought])
  have header : (sendSystem file).Run anyEvent start
      { thread with place := .sendHeader ((file.drop (k*dataUnitLen)).take dataUnitLen) } := by
    refine run_event (.run true 0) reads (by simp [sendSystem]) ?_
    have some_byte : (file.drop (k*dataUnitLen)).take dataUnitLen ≠ [] := by
      rw [← List.length_pos_iff,full]
      decide
    simp only [sendSystem,CliData.run,dataAnswer,opened,Bool.not_true,Bool.false_eq_true,or_self,if_false,offset,
      Int.toNat_natCast,if_neg some_byte]
  have body : (sendSystem file).Run anyEvent start
      { thread with place := .sendBody ((file.drop (k*dataUnitLen)).take dataUnitLen) } :=
    run_event (.run true 0) header (by simp [sendSystem]) rfl
  refine run_event (.run true 0) body (by simp [sendSystem]) ?_
  simp only [sendSystem,CliData.run,full,ne_eq,not_true_eq_false,if_false,unit,place]
  rfl

theorem run_far (start : CliData) (opened : 0 ≤ start.mReadHdl) (running : start.mIsRun = true) (place : start.place = .check)
    {k : Nat} (unit : start.unitId = k) (left : Nat) (high : k+left ≤ 2^21) (whole : (k+left)*dataUnitLen ≤ file.length) :
    (sendSystem file).Run anyEvent start { start with unitId := (k+left : Nat) } := by
  induction left with
  | zero =>
    have here : { start with unitId := (k+0 : Nat) } = start := by
      rw [Nat.add_zero,← unit]
    rw [here]
    exact .start
  | succ left ih =>
    rw [← Nat.add_assoc] at high whole ⊢
    have before := ih (by omega) (Nat.le_trans (Nat.mul_le_mul_right _ (Nat.le_succ _)) whole)
    have after := run_unit before ⟨running,opened⟩ place rfl high whole
    exact after

theorem seek_far (sockId : Int) (asked : CliState) (size : 2^31 ≤ file.length) (isInt : IsInt info.startOffset)
    (start : 0 ≤ info.startOffset) (opened : 0 ≤ fd) : ∃ thread, (sendSystem file).Run anyEvent (newCliData sockId info fd true asked) thread ∧ thread.place = .seek ∧
      thread.unitId = (2^21 : Nat) := by
  have first : (newCliData sockId info fd true asked).unitId = (info.startOffset/1024).toNat := by
    rw [start_unit isInt]
    omega
  have high : info.startOffset < 2^31 := isInt.2
  have far := run_far (newCliData sockId info fd true asked) opened rfl rfl first
    (2^21-(info.startOffset/1024).toNat) (by omega) (show _ ≤ file.length by unfold dataUnitLen; omega)
  refine ⟨_,run_event (.run true 0) far (by simp [sendSystem,newCliData]) rfl,?_,?_⟩
  · exact if_pos ⟨rfl,opened⟩
  · change (((info.startOffset/1024).toNat+(2^21-(info.startOffset/1024).toNat) : Nat) : Int) = _
    omega

/-- Of a file of at least 2 GiB the number of the unit at 2 GiB gives a negative offset, which
lseek refuses; the thread takes that for the end of the file. -/
theorem offsets_exact_iff (file : List UInt8) (info : DwldReqInfo) (sockId fd : Int) (asked : CliState)
    (isInt : IsInt info.startOffset) (opened : 0 ≤ fd) :
    ((∀ unitId : Nat, unitId*dataUnitLen ≤ file.length → OffsetsExact unitId) ↔ file.length < 2^31) ∧
      ((∀ thread, (sendSystem file).Run anyEvent (newCliData sockId info fd true asked) thread → thread.place = .seek →
        OffsetsExact thread.unitId) ↔ file.length < 2^31 ∨ info.startOffset < 0) := by
  refine ⟨⟨fun exact => ?_,fun size unitId inside => ?_⟩,⟨fun exact => ?_,?_⟩⟩
  · by_contra longer
    have last := (offsetsExact_iff (2^21)).mp (exact (2^21) (by unfold dataUnitLen; omega))
    exact Nat.lt_irrefl _ last
  · refine (offsetsExact_iff unitId).mpr ?_
    unfold dataUnitLen at inside
    omega
  · by_contra beyond
    obtain ⟨thread,run,place,unit⟩ := seek_far sockId asked (Nat.le_of_not_lt fun less => beyond (.inl less)) isInt
      (Int.not_lt.mp fun negative => beyond (.inr negative)) opened
    have last := exact thread run place
    rw [unit] at last
    exact Nat.lt_irrefl _ ((offsetsExact_iff (2^21)).mp last)
  · rintro size thread run -
    by_cases start : info.startOffset < 0
    · have before := refused_of_run isInt start run
      exact offsetsExact_of before.unit.1 (by have high := before.unit.2; omega)
    · obtain ⟨k,unit,high,_⟩ := low_of_run (size.resolve_right start) isInt (Int.not_lt.mp start) run
      rw [unit]
      exact (offsetsExact_iff k).mpr high

def wholeRequest : DwldReqInfo where
  key := ⟨filetypeVideo,text "film"⟩
  startOffset := 0
  fileId := 0

theorem offsets_exact_small : (∀ thread, (sendSystem [1,2,3]).Run anyEvent (newCliData 4 wholeRequest 5 true .login) thread →
    thread.place = .seek → OffsetsExact thread.unitId) ∧ OffsetsExact 0 := by
  have isInt : IsInt wholeRequest.startOffset := by decide
  obtain ⟨units,runs⟩ := offsets_exact_iff [1,2,3] wholeRequest 4 5 .login isInt (by decide)
  exact ⟨runs.mpr (Or.inl (by decide)),units.mpr (by decide) 0 (by decide)⟩

theorem offsets_wrapped : (∃ thread, (sendSystem (List.replicate (2^31) 0)).Run anyEvent (newCliData 4 wholeRequest 5 true .login) thread ∧
      thread.place = .seek ∧ ¬ OffsetsExact thread.unitId) ∧
    lseekOffset (2^21) = -2^31 ∧ lseek (lseekOffset (2^21)) = -1 := by
  refine ⟨?_,by decide,by decide⟩
  have size : 2^31 ≤ (List.replicate (2^31) (0 : UInt8)).length := by rw [List.length_replicate]
  have isInt : IsInt wholeRequest.startOffset := by decide
  obtain ⟨thread,run,place,unit⟩ := seek_far 4 .login size isInt (by decide) (show (0 : Int) ≤ 5 by decide)
  refine ⟨thread,run,place,fun exact => ?_⟩
  rw [unit] at exact
  exact Nat.lt_irrefl _ ((offsetsExact_iff (2^21)).mp exact)

end Runs

end MoCodes.MoCloud.DwldOffsets
