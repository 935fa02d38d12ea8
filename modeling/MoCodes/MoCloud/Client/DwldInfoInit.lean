import MoCodes.Lib.Layout
import MoCodes.Lib.Loop
import MoCodes.Lib.PosFile
import MoCodes.MoCloud.Client.DwldInfoFile

/-! initDwldTasksInfo and uninitDwldTasksInfo on the bytes of the dwldInfo file. The file is read by
position, and a record of a task that was being downloaded is written again where it was read.
The calls on the file and malloc do not fail. -/
namespace MoCodes.MoCloud.Client.DwldInfoInit
open Lib.Layout Lib.Blocks Lib.PosFile Lib.Loop

/-- The size of DWLD_FILE_UNIT_INFO, and where its fields lie. -/
def recordSize : Nat := 1336

def isUsingAt : Nat := 16

def dwldInfoAt : Nat := 24

def dwldInfoSize : Nat := 792

/-- In MOCLOUDCLIENT_DWLD_INFO. -/
def isDwldingAt : Nat := 788

def checkSumAt : Nat := 1328

/-- DWLD_TASK_INFO, `dwldInfo` being its bytes. -/
structure Task where
  dwldInfo : List UInt8
  offset : Int
  fileId : Int
  deriving DecidableEq

structure Reading where
  file : List UInt8
  pos : Nat
  offset : Int
  tasks : List Task

structure Checked where
  isRightFormatFile : Bool
  file : List UInt8
  tasks : List Task

def isUsing (unitInfo : List UInt8) : Bool := unitInfo.getD isUsingAt 0 != 0

def isDwlding (unitInfo : List UInt8) : Bool := unitInfo.getD (dwldInfoAt+isDwldingAt) 0 != 0

def rightRecord (unitInfo : List UInt8) : Bool :=
  isText unitInfo markDwld && unitInfo.getD checkSumAt 0 == checksumStubValue

/-- `tmp`, as it is written back. -/
def reset (unitInfo : List UInt8) : List UInt8 :=
  (unitInfo.set (dwldInfoAt+isDwldingAt) 0).set checkSumAt checksumStubValue

def taskOf (unitInfo : List UInt8) (offset : Int) : Task :=
  ⟨(slice unitInfo dwldInfoAt dwldInfoSize).set isDwldingAt 0,offset,-1⟩

def initBody (state : Reading) : Outcome Reading Checked :=
  let unitInfo := slice state.file state.pos recordSize
  let pos := state.pos+unitInfo.length
  if unitInfo.length = 0 then .done ⟨true,state.file,state.tasks⟩
  else if unitInfo.length ≠ recordSize then .done ⟨false,state.file,state.tasks⟩
  else if !rightRecord unitInfo then .done ⟨false,state.file,state.tasks⟩
  else
    let (file,pos) :=
      if isUsing unitInfo && isDwlding unitInfo then
        (writeAt 0 state.file (pos-recordSize) (reset unitInfo),pos-recordSize+(reset unitInfo).length)
      else (state.file,pos)
    .next
      { file := file
        pos := pos
        offset := toInt (state.offset+recordSize)
        tasks := if isUsing unitInfo then taskOf unitInfo state.offset :: state.tasks else state.tasks }

/-- `gDwldTasksInfoListHead` is NULL or the list behind it. -/
structure State where
  gDwldInfofileFd : Bool
  gDwldTasksInfoListHead : Option (List Task)
  dwldInfoFile : Option (List UInt8)
  deriving DecidableEq

def initDwldTasksInfo (state : State) : Int × State :=
  if state.gDwldInfofileFd || state.gDwldTasksInfoListHead.isSome then (-1,state)
  else
    match state.dwldInfoFile with
    | none => (0,⟨true,some [],some []⟩)
    | some file =>
      match run initBody (file.length+1) ⟨file,0,0,[]⟩ with
      | none => (0,state)
      | some checked =>
        if checked.isRightFormatFile then (0,⟨true,some checked.tasks,some checked.file⟩)
        else (0,⟨true,some [],some []⟩)

def uninitDwldTasksInfo (state : State) : State := ⟨false,none,state.dwldInfoFile⟩

def fresh (file : List UInt8) : State := ⟨false,none,some file⟩

section Spec

variable (file : List UInt8)

abbrev recordCount : Nat := file.length/recordSize

def RightFormat : Prop :=
  file.length = recordCount file*recordSize ∧ ∀ k < recordCount file, rightRecord (blockAt recordSize file k) = true

instance : Decidable (RightFormat file) := inferInstanceAs (Decidable (_ ∧ ∀ k < _, _))

def usedRecords : List Nat := (List.range (recordCount file)).filter fun k => isUsing (blockAt recordSize file k)

/-- A record in use, no longer being downloaded. -/
def clearUsed (unitInfo : List UInt8) : List UInt8 :=
  if isUsing unitInfo then unitInfo.set (dwldInfoAt+isDwldingAt) 0 else unitInfo

/-- The last record is in front. -/
structure Restored (after : State) : Prop where
  tasks : after.gDwldTasksInfoListHead =
    some ((usedRecords file).reverse.map fun k => taskOf (blockAt recordSize file k) (k*recordSize : Nat))
  file : after.dwldInfoFile = some (mapBlocks recordSize (recordCount file) clearUsed file)

structure InitRight : Prop where
  returns : (initDwldTasksInfo (fresh file)).1 = 0
  right : RightFormat file → Restored file (initDwldTasksInfo (fresh file)).2
  wrong : ¬ RightFormat file → (initDwldTasksInfo (fresh file)).2 = ⟨true,some [],some []⟩
  again : initDwldTasksInfo (uninitDwldTasksInfo (initDwldTasksInfo (fresh file)).2) = initDwldTasksInfo (fresh file)

end Spec

section Records

variable {unitInfo : List UInt8} (full : unitInfo.length = recordSize)

theorem clearUsed_length : (clearUsed unitInfo).length = unitInfo.length := by
  rw [clearUsed]
  split
  · exact List.length_set
  · rfl

theorem set_same {bytes : List UInt8} {i : Nat} {value : UInt8} (inside : i < bytes.length)
    (same : bytes.getD i 0 = value) : bytes.set i value = bytes := by
  rw [List.getD_eq_getElem?_getD,List.getElem?_eq_getElem inside,Option.getD_some] at same
  rw [← same]
  exact List.set_getElem_self inside

include full

/-- What is written back is the record with its download ended. -/
theorem reset_right (right : rightRecord unitInfo = true) : reset unitInfo = unitInfo.set (dwldInfoAt+isDwldingAt) 0 := by
  have sum : unitInfo.getD checkSumAt 0 = checksumStubValue := by
    rw [rightRecord,Bool.and_eq_true,beq_iff_eq] at right
    exact right.2
  refine set_same ?_ ?_
  · rw [List.length_set,full]
    decide
  · rw [List.getD_eq_getElem?_getD,List.getElem?_set_ne (by decide),← List.getD_eq_getElem?_getD,sum]

theorem written_back (right : rightRecord unitInfo = true) :
    (if isUsing unitInfo && isDwlding unitInfo then reset unitInfo else unitInfo) = clearUsed unitInfo := by
  rw [clearUsed]
  cases used : isUsing unitInfo
  · rfl
  · cases dwlding : isDwlding unitInfo
    · have inside : dwldInfoAt+isDwldingAt < unitInfo.length := by
        rw [full]
        decide
      refine (set_same inside ?_).symm
      simpa [isDwlding] using dwlding
    · exact reset_right full right

theorem initBody_record (front rest : List UInt8) (offset : Int) (tasks : List Task) :
    initBody ⟨front ++ (unitInfo ++ rest),front.length,offset,tasks⟩ =
      if rightRecord unitInfo then
        .next ⟨(front ++ clearUsed unitInfo) ++ rest,(front ++ clearUsed unitInfo).length,toInt (offset+recordSize),
          if isUsing unitInfo then taskOf unitInfo offset :: tasks else tasks⟩
      else .done ⟨false,front ++ (unitInfo ++ rest),tasks⟩ := by
  have got : slice (front ++ (unitInfo ++ rest)) front.length recordSize = unitInfo := slice_part rfl full
  have size : (front ++ clearUsed unitInfo).length = front.length+recordSize := by
    rw [List.length_append,clearUsed_length,full]
  rw [initBody]
  simp only [got,full]
  rw [if_neg (by decide),if_neg (by decide)]
  cases right : rightRecord unitInfo with
  | false => rfl
  | true =>
    have same := written_back full right
    rw [if_neg (by decide),if_pos rfl,Nat.add_sub_cancel]
    cases writes : isUsing unitInfo && isDwlding unitInfo with
    | false =>
      replace same : unitInfo = clearUsed unitInfo := by rwa [writes] at same
      rw [size,← same,List.append_assoc]
      rfl
    | true =>
      replace same : reset unitInfo = clearUsed unitInfo := by rwa [writes] at same
      have written : writeAt 0 (front ++ (unitInfo ++ rest)) front.length (clearUsed unitInfo) =
          front ++ clearUsed unitInfo ++ rest := writeAt_part rfl clearUsed_length
      rw [if_pos rfl,same,written,clearUsed_length,full,size]

end Records

section Loop

def restoreStep (found : Int × List Task) (unitInfo : List UInt8) : Int × List Task :=
  (toInt (found.1+recordSize),if isUsing unitInfo then taskOf unitInfo found.1 :: found.2 else found.2)

/-- What the loop makes of whole records, with what is left behind them. -/
structure Scanned (front : List UInt8) (records : List (List UInt8)) (tail : List UInt8) (found : Int × List Task)
    (checked : Checked) : Prop where
  format : checked.isRightFormatFile = true ↔ tail = [] ∧ ∀ unitInfo ∈ records, rightRecord unitInfo = true
  tasks : checked.isRightFormatFile = true → checked.tasks = (records.foldl restoreStep found).2
  file : checked.isRightFormatFile = true → checked.file = front ++ (records.map clearUsed).flatten

theorem initBody_scans {tail : List UInt8} (short : tail.length < recordSize) {records : List (List UInt8)}
    (full : ∀ unitInfo ∈ records, unitInfo.length = recordSize) (front : List UInt8) (found : Int × List Task) :
    ∃ checked, run initBody (records.length+1) ⟨front ++ (records.flatten ++ tail),front.length,found.1,found.2⟩ = some checked ∧
      Scanned front records tail found checked := by
  induction records generalizing front found with
  | nil =>
    have got : slice (front ++ tail) front.length recordSize = tail := by
      rw [slice,List.drop_left,List.take_of_length_le (Nat.le_of_lt short)]
    cases tail with
    | nil =>
      refine ⟨⟨true,front,found.2⟩,run_done ?_ 0,by simp,fun _ => rfl,fun _ => by simp⟩
      rw [initBody]
      simp only [List.flatten_nil,List.append_nil] at got ⊢
      rw [got]
      rfl
    | cons byte rest =>
      refine ⟨⟨false,front ++ (byte :: rest),found.2⟩,run_done ?_ 0,by simp,by simp,by simp⟩
      rw [initBody]
      simp only [List.flatten_nil,List.nil_append,got]
      rw [if_neg (by simp),if_pos (Nat.ne_of_lt short)]
  | cons unitInfo records ih =>
    obtain ⟨first,others⟩ := List.forall_mem_cons.mp full
    have turn := initBody_record first front (records.flatten ++ tail) found.1 found.2
    rw [List.flatten_cons,List.append_assoc]
    by_cases right : rightRecord unitInfo = true
    · rw [if_pos right] at turn
      obtain ⟨checked,returns,scanned⟩ := ih others (front ++ clearUsed unitInfo) (restoreStep found unitInfo)
      refine ⟨checked,(run_next turn _).trans returns,?_,scanned.tasks,fun formatted => ?_⟩
      · rw [scanned.format]
        simp [right]
      · rw [scanned.file formatted,List.map_cons,List.flatten_cons,List.append_assoc]
    · rw [if_neg right] at turn
      exact ⟨_,run_done turn _,by simp [right],by simp,by simp⟩

end Loop

section Files

variable {file : List UInt8}

abbrev recordsOf (file : List UInt8) : List (List UInt8) := cut recordSize (recordCount file) file

theorem recordsOf_full : ∀ unitInfo ∈ recordsOf file, unitInfo.length = recordSize :=
  cut_full (Nat.div_mul_le_self ..)

theorem file_parts (file : List UInt8) : ∃ tail, tail.length < recordSize ∧ file = (recordsOf file).flatten ++ tail ∧
    (tail = [] ↔ file.length = recordCount file*recordSize) := by
  have inside : recordCount file*recordSize ≤ file.length := Nat.div_mul_le_self ..
  have size : file.length = recordCount file*recordSize+file.length%recordSize := (Nat.div_add_mod' ..).symm
  have less : file.length%recordSize < recordSize := Nat.mod_lt _ (by decide)
  have whole : (file.take (recordCount file*recordSize)).length = recordCount file*recordSize := List.length_take_of_le inside
  have records : recordsOf file = cut recordSize (recordCount file) (file.take (recordCount file*recordSize)) := by
    have parts := cut_append 0 (file.drop (recordCount file*recordSize)) whole
    rw [List.take_append_drop] at parts
    simpa [cut] using parts
  refine ⟨file.drop (recordCount file*recordSize),?_,?_,?_⟩
  · rw [List.length_drop]
    omega
  · rw [records,flatten_cut whole,List.take_append_drop]
  · rw [List.drop_eq_nil_iff]
    omega

theorem rightFormat_iff : RightFormat file ↔
    file.length = recordCount file*recordSize ∧ ∀ unitInfo ∈ recordsOf file, rightRecord unitInfo = true := by
  rw [RightFormat,recordsOf,cut,List.forall_mem_map]
  simp only [List.mem_range]

theorem records_flatten (file : List UInt8) : ((recordsOf file).map clearUsed).flatten =
    mapBlocks recordSize (recordCount file) clearUsed file := by
  rw [mapBlocks,recordsOf,cut,List.map_map,List.flatMap_def]
  rfl

theorem checked_file (file : List UInt8) : ∃ checked, run initBody (file.length+1) ⟨file,0,0,[]⟩ = some checked ∧
    (checked.isRightFormatFile = true ↔ RightFormat file) ∧
    (checked.isRightFormatFile = true → checked.tasks = ((recordsOf file).foldl restoreStep (0,[])).2 ∧
      checked.file = mapBlocks recordSize (recordCount file) clearUsed file) := by
  obtain ⟨tail,short,parts,empty⟩ := file_parts file
  have full : ∀ unitInfo ∈ recordsOf file, unitInfo.length = recordSize := recordsOf_full
  obtain ⟨checked,returns,scanned⟩ := initBody_scans short full [] (0,[])
  have enough : recordCount file+(file.length-recordCount file) = file.length :=
    Nat.add_sub_cancel' (Nat.div_le_self ..)
  have longer := run_mono initBody _ (file.length-recordCount file) _ checked returns
  rw [cut_length,Nat.add_right_comm,enough,List.nil_append,← parts] at longer
  refine ⟨checked,longer,?_,fun formatted => ⟨scanned.tasks formatted,?_⟩⟩
  · rw [scanned.format,rightFormat_iff,empty]
  · rw [scanned.file formatted,List.nil_append,records_flatten]

end Files

section Lists

variable {file : List UInt8}

/-- The offset that is counted up is an `int`. -/
theorem restored_tasks (file : List UInt8) (count : Nat) : (cut recordSize count file).foldl restoreStep (0,[]) =
    (toInt (count*recordSize : Nat),
      ((List.range count).filter fun k => isUsing (blockAt recordSize file k)).reverse.map fun k =>
        taskOf (blockAt recordSize file k) (toInt (k*recordSize : Nat))) := by
  induction count with
  | zero => rfl
  | succ count ih =>
    have next : toInt (toInt (count*recordSize : Nat)+recordSize) = toInt ((count+1)*recordSize : Nat) := by
      rw [toInt,toInt,toInt,Int.bmod_add_bmod,Nat.succ_mul]
      rfl
    have more : cut recordSize (count+1) file = cut recordSize count file ++ [blockAt recordSize file count] := by
      rw [cut,List.range_succ,List.map_append]
      rfl
    rw [more,List.foldl_append,ih,List.range_succ,List.filter_append,List.foldl_cons,List.foldl_nil,restoreStep,next]
    cases used : isUsing (blockAt recordSize file count) with
    | false => simp [used]
    | true => simp [used]

section Cleared

variable (unitInfo : List UInt8)

theorem isUsing_cleared : isUsing (clearUsed unitInfo) = isUsing unitInfo := by
  rw [clearUsed]
  split
  · rw [isUsing,isUsing,List.getD_eq_getElem?_getD,List.getElem?_set_ne (by decide),← List.getD_eq_getElem?_getD]
  · rfl

theorem clearUsed_twice : clearUsed (clearUsed unitInfo) = clearUsed unitInfo := by
  by_cases used : isUsing unitInfo = true
  · have again : isUsing (clearUsed unitInfo) = true := (isUsing_cleared unitInfo).trans used
    rw [clearUsed,if_pos again,clearUsed,if_pos used,List.set_set]
  · rw [show clearUsed unitInfo = unitInfo from if_neg used,show clearUsed unitInfo = unitInfo from if_neg used]

theorem rightRecord_cleared : rightRecord (clearUsed unitInfo) = rightRecord unitInfo := by
  rw [clearUsed]
  split
  · have text : isText (unitInfo.set (dwldInfoAt+isDwldingAt) 0) markDwld = isText unitInfo markDwld := by
      rw [isText,isText,List.take_set,List.set_eq_of_length_le]
      rw [List.length_take]
      exact Nat.le_trans (Nat.min_le_left _ _) (by decide)
    rw [rightRecord,rightRecord,text,List.getD_eq_getElem?_getD,List.getElem?_set_ne (by decide),← List.getD_eq_getElem?_getD]
  · rfl

theorem taskOf_cleared (offset : Int) : taskOf (clearUsed unitInfo) offset = taskOf unitInfo offset := by
  rw [clearUsed]
  split
  · rw [taskOf,taskOf,slice,slice,List.drop_set,if_neg (by decide),List.take_set,Nat.add_sub_cancel_left,List.set_set]
  · rfl

theorem restoreStep_cleared (found : Int × List Task) : restoreStep found (clearUsed unitInfo) = restoreStep found unitInfo := by
  rw [restoreStep,restoreStep,isUsing_cleared,taskOf_cleared]

end Cleared

theorem cleared_full (file : List UInt8) : ∀ unitInfo ∈ (recordsOf file).map clearUsed, unitInfo.length = recordSize := by
  rw [List.forall_mem_map]
  intro unitInfo member
  rw [clearUsed_length]
  exact recordsOf_full unitInfo member

theorem cleared_length (file : List UInt8) :
    (mapBlocks recordSize (recordCount file) clearUsed file).length = recordCount file*recordSize := by
  have length := flatten_full_length (cleared_full file)
  rwa [records_flatten,List.length_map,cut_length] at length

theorem cleared_count (file : List UInt8) :
    recordCount (mapBlocks recordSize (recordCount file) clearUsed file) = recordCount file := by
  rw [recordCount,cleared_length,Nat.mul_div_cancel _ (by decide)]

theorem recordsOf_cleared (file : List UInt8) :
    recordsOf (mapBlocks recordSize (recordCount file) clearUsed file) = (recordsOf file).map clearUsed := by
  have same := cut_flatten (cleared_full file) []
  rw [List.append_nil,records_flatten,List.length_map,cut_length] at same
  rw [recordsOf,cleared_count,same]

theorem rightFormat_cleared (right : RightFormat file) :
    RightFormat (mapBlocks recordSize (recordCount file) clearUsed file) := by
  rw [rightFormat_iff,recordsOf_cleared,List.forall_mem_map,cleared_count]
  refine ⟨cleared_length file,fun unitInfo member => ?_⟩
  rw [rightRecord_cleared]
  exact (rightFormat_iff.mp right).2 unitInfo member

theorem mapBlocks_cleared (file : List UInt8) :
    mapBlocks recordSize (recordCount file) clearUsed (mapBlocks recordSize (recordCount file) clearUsed file) =
      mapBlocks recordSize (recordCount file) clearUsed file := by
  have again := records_flatten (mapBlocks recordSize (recordCount file) clearUsed file)
  rw [recordsOf_cleared,cleared_count,List.map_map] at again
  rw [← again,← records_flatten]
  congr 1
  exact List.map_congr_left fun unitInfo _ => clearUsed_twice unitInfo

end Lists

section Calls

variable {file : List UInt8}

def tasksOf (file : List UInt8) : List Task := ((recordsOf file).foldl restoreStep (0,[])).2

theorem init_right (right : RightFormat file) : initDwldTasksInfo (fresh file) =
    (0,⟨true,some (tasksOf file),some (mapBlocks recordSize (recordCount file) clearUsed file)⟩) := by
  obtain ⟨checked,ran,format,found⟩ := checked_file file
  have formatted := format.mpr right
  obtain ⟨tasks,bytes⟩ := found formatted
  rw [initDwldTasksInfo,fresh]
  dsimp only
  rw [ran]
  dsimp only
  rw [if_pos formatted,tasks,bytes]
  rfl

theorem init_wrong (wrong : ¬ RightFormat file) : initDwldTasksInfo (fresh file) = (0,⟨true,some [],some []⟩) := by
  obtain ⟨checked,ran,format,_⟩ := checked_file file
  rw [initDwldTasksInfo,fresh]
  dsimp only
  rw [ran]
  dsimp only
  rw [if_neg fun formatted => wrong (format.mp formatted)]
  rfl

theorem init_again (file : List UInt8) :
    initDwldTasksInfo (uninitDwldTasksInfo (initDwldTasksInfo (fresh file)).2) = initDwldTasksInfo (fresh file) := by
  by_cases right : RightFormat file
  · have tasks : tasksOf (mapBlocks recordSize (recordCount file) clearUsed file) = tasksOf file := by
      rw [tasksOf,recordsOf_cleared,List.foldl_map]
      simp only [restoreStep_cleared]
      rfl
    have second := init_right (rightFormat_cleared right)
    rw [tasks,cleared_count,mapBlocks_cleared] at second
    rw [init_right right]
    exact second
  · rw [init_wrong right]
    rfl

/-- The offsets in the list are `int`. -/
theorem tasksOf_places (file : List UInt8) :
    tasksOf file = (usedRecords file).reverse.map (fun k => taskOf (blockAt recordSize file k) (k*recordSize : Nat)) ↔
      ∀ k ∈ usedRecords file, k*recordSize < 2^31 := by
  have lists : tasksOf file = (usedRecords file).reverse.map fun k =>
      taskOf (blockAt recordSize file k) (toInt (k*recordSize : Nat)) := by
    rw [tasksOf,recordsOf,restored_tasks]
    rfl
  rw [lists,List.map_inj_left]
  refine ⟨fun same k member => ?_,fun low k member => ?_⟩
  · have offset := congrArg Task.offset (same k (List.mem_reverse.mpr member))
    dsimp only [taskOf] at offset
    exact (toInt_same _).mp offset
  · rw [(toInt_same _).mpr (low k (List.mem_reverse.mp member))]

theorem restored_low (right : RightFormat file) (restored : Restored file (initDwldTasksInfo (fresh file)).2) :
    ∀ k ∈ usedRecords file, k*recordSize < 2^31 := by
  have tasks := restored.tasks
  rw [init_right right] at tasks
  exact (tasksOf_places file).mp (Option.some.inj tasks)

/-- A record in use behind 2 GiB is looked for in a wrong place. -/
theorem initDwldTasksInfo_right_iff (file : List UInt8) :
    InitRight file ↔ ¬ RightFormat file ∨ ∀ k ∈ usedRecords file, k*recordSize < 2^31 := by
  refine ⟨fun all => ?_,fun cond => ⟨?_,fun right => ?_,fun wrong => ?_,init_again file⟩⟩
  · by_cases right : RightFormat file
    · exact Or.inr (restored_low right (all.right right))
    · exact Or.inl right
  · by_cases right : RightFormat file
    · rw [init_right right]
    · rw [init_wrong right]
  · have low := cond.resolve_left (not_not.mpr right)
    rw [init_right right]
    exact ⟨congrArg some ((tasksOf_places file).mpr low),rfl⟩
  · rw [init_wrong wrong]

end Calls

section Parsed

def parseInfo (dwldInfo : List UInt8) : DwldInfo where
  fileKey := ⟨readInt (slice dwldInfo 0 4),cString (slice dwldInfo 4 256)⟩
  fileLength := readLE (slice dwldInfo 264 8)
  localFilepath := cString (slice dwldInfo 272 512)
  unitId := readInt (slice dwldInfo 784 4)
  isDwlding := dwldInfo.getD isDwldingAt 0 != 0

def parseUnit (unitInfo : List UInt8) : DwldFileUnitInfo where
  mark := cString (slice unitInfo 0 16)
  isUsing := isUsing unitInfo
  dwldInfo := parseInfo (slice unitInfo dwldInfoAt dwldInfoSize)
  checkSum := unitInfo.getD checkSumAt 0

variable {bytes : List UInt8} {offset size i : Nat} {value : UInt8}

theorem slice_set (past : offset+size ≤ i) : slice (bytes.set i value) offset size = slice bytes offset size := by
  rw [slice,slice,List.drop_set,if_neg (by omega),List.take_set,List.set_eq_of_length_le]
  rw [List.length_take]
  omega

theorem getD_set (apart : i ≠ offset) : (bytes.set i value).getD offset 0 = bytes.getD offset 0 := by
  rw [List.getD_eq_getElem?_getD,List.getElem?_set_ne apart,← List.getD_eq_getElem?_getD]

theorem getD_set_zero : (bytes.set i 0).getD i 0 = 0 := by
  rw [List.getD_eq_getElem?_getD,List.getElem?_set,if_pos rfl]
  split <;> rfl

theorem parseInfo_cleared (dwldInfo : List UInt8) :
    parseInfo (dwldInfo.set isDwldingAt 0) = { parseInfo dwldInfo with isDwlding := false } := by
  simp only [parseInfo]
  rw [slice_set (by decide),slice_set (by decide),slice_set (by decide),slice_set (by decide),slice_set (by decide),getD_set_zero]
  rfl

theorem parseUnit_cleared {unitInfo : List UInt8} (used : isUsing unitInfo = true) : parseUnit (clearUsed unitInfo) =
    { parseUnit unitInfo with dwldInfo := { (parseUnit unitInfo).dwldInfo with isDwlding := false } } := by
  have cleared : clearUsed unitInfo = unitInfo.set (dwldInfoAt+isDwldingAt) 0 := if_pos used
  have info : slice (unitInfo.set (dwldInfoAt+isDwldingAt) 0) dwldInfoAt dwldInfoSize =
      (slice unitInfo dwldInfoAt dwldInfoSize).set isDwldingAt 0 := by
    rw [slice,slice,List.drop_set,if_neg (by decide),List.take_set,Nat.add_sub_cancel_left]
  have same : isUsing (unitInfo.set (dwldInfoAt+isDwldingAt) 0) = isUsing unitInfo := by
    rw [← cleared,isUsing_cleared]
  rw [cleared]
  simp only [parseUnit]
  rw [slice_set (by decide),info,parseInfo_cleared,same,getD_set (by decide)]

/-- strcmp looks at the end of the text as well. -/
theorem isText_cString {text : List UInt8} (no_end : ∀ byte ∈ text, (byte != 0) = true) (room : text.length < size)
    (inside : size ≤ bytes.length) : isText bytes text = true ↔ cString (slice bytes 0 size) = text := by
  rw [isText,beq_iff_eq,slice,List.drop_zero,cString]
  refine ⟨fun same => ?_,fun same => ?_⟩
  · have parts : bytes.take size = text ++ 0 :: (bytes.drop (text.length+1)).take (size-(text.length+1)) := by
      rw [show size = text.length+1+(size-(text.length+1)) by omega,List.take_add,same,List.append_assoc]
      simp
    rw [parts,List.takeWhile_append_of_pos no_end,List.takeWhile_cons_of_neg (by decide),List.append_nil]
  · have parts := List.takeWhile_append_dropWhile (p := (· != 0)) (l := bytes.take size)
    rw [same] at parts
    have front : bytes.take (text.length+1) = (bytes.take size).take (text.length+1) := by
      rw [List.take_take,Nat.min_eq_left room]
    cases behind : (bytes.take size).dropWhile (· != 0) with
    | nil =>
      rw [behind,List.append_nil] at parts
      have length := congrArg List.length parts
      rw [List.length_take] at length
      omega
    | cons byte rest =>
      have zero : byte = 0 := by
        have stops := List.head?_dropWhile_not (fun byte : UInt8 => byte != 0) (bytes.take size)
        rw [behind] at stops
        simpa using stops
      rw [front,← parts,behind,zero,List.take_length_add_append]
      rfl

theorem rightRecord_parsed {unitInfo : List UInt8} (full : unitInfo.length = recordSize) :
    rightRecord unitInfo = DwldStore.rightFormat (parseUnit unitInfo) := by
  have mark : isText unitInfo markDwld = ((parseUnit unitInfo).mark == markDwld) := by
    have plain : ∀ byte ∈ markDwld, (byte != 0) = true := List.all_eq_true.mp rfl
    rw [Bool.eq_iff_iff,beq_iff_eq]
    exact isText_cString plain (by decide) (by rw [full]; decide)
  rw [rightRecord,mark,DwldStore.rightFormat]
  rfl

/-- A task as both list have it: its place is counted in bytes. -/
def readTask (task : Task) : DwldInfo × Int × Int := (parseInfo task.dwldInfo,task.offset,task.fileId)

def placeTask (task : DwldTaskInfo) : DwldInfo × Int × Int := (task.dwldInfo,(task.offset*recordSize : Nat),task.fileId)

theorem restore_parsed {records : List (List UInt8)} {offset : Nat} {store : DwldStore} {tasks : List Task}
    (small : (offset+records.length)*recordSize < 2^31) (same : tasks.map readTask = store.tasks.map placeTask) :
    ((records.foldl restoreStep ((offset*recordSize : Nat),tasks)).2.map readTask =
      (DwldStore.restore (records.map parseUnit) offset store).tasks.map placeTask) ∧
      (DwldStore.restore (records.map parseUnit) offset store).file = store.file ++ (records.map clearUsed).map parseUnit := by
  induction records generalizing offset store tasks with
  | nil => exact ⟨same,(List.append_nil _).symm⟩
  | cons unitInfo records ih =>
    have later : (offset+1+records.length)*recordSize < 2^31 := by
      rwa [List.length_cons,← Nat.add_assoc,Nat.add_right_comm] at small
    have next : toInt ((offset*recordSize : Nat)+recordSize) = ((offset+1)*recordSize : Nat) := by
      have low : (offset+1)*recordSize < 2^31 :=
        Nat.lt_of_le_of_lt (Nat.mul_le_mul_right _ (Nat.le_add_right _ _)) later
      rw [← (toInt_same _).mpr low,Nat.succ_mul]
      rfl
    rw [List.foldl_cons,restoreStep,next,List.map_cons,DwldStore.restore]
    by_cases used : isUsing unitInfo = true
    · have info : (slice unitInfo dwldInfoAt dwldInfoSize).set isDwldingAt 0 = (taskOf unitInfo (offset*recordSize : Nat)).dwldInfo := rfl
      rw [if_pos used,if_pos (show (parseUnit unitInfo).isUsing = true from used)]
      dsimp only
      refine (ih later ?_).imp id fun file => ?_
      · rw [List.map_cons,List.map_cons,same,readTask,placeTask,← info,parseInfo_cleared]
        rfl
      · rw [file,List.map_cons,List.map_cons,parseUnit_cleared used,List.append_assoc]
        rfl
    · have left : clearUsed unitInfo = unitInfo := if_neg used
      rw [if_neg used,if_neg (show ¬ (parseUnit unitInfo).isUsing = true from used)]
      have behind : tasks.map readTask =
          { store with file := store.file ++ [parseUnit unitInfo] }.tasks.map placeTask := same
      refine (ih later behind).imp id fun file => ?_
      rw [file,List.map_cons,List.map_cons,left,List.append_assoc]
      rfl

/-- On the records that the bytes stand for the call does what Client/DwldInfoFile says, as long as
the file is below 2 GiB. -/
theorem initDwldTasksInfo_parsed (small : file.length < 2^31) : ∃ tasks bytes,
    (initDwldTasksInfo (fresh file)).2 = ⟨true,some tasks,some bytes⟩ ∧
      tasks.map readTask = (DwldStore.initDwldTasksInfo ((recordsOf file).map parseUnit)
        (decide (file.length ≠ recordCount file*recordSize))).tasks.map placeTask ∧
      (recordsOf bytes).map parseUnit = (DwldStore.initDwldTasksInfo ((recordsOf file).map parseUnit)
        (decide (file.length ≠ recordCount file*recordSize))).file := by
  have format : (((recordsOf file).map parseUnit).all DwldStore.rightFormat &&
      !decide (file.length ≠ recordCount file*recordSize)) = true ↔ RightFormat file := by
    rw [rightFormat_iff,Bool.and_eq_true,List.all_map,List.all_eq_true,and_comm]
    refine and_congr (by simp) (forall₂_congr fun unitInfo member => ?_)
    rw [rightRecord_parsed (recordsOf_full unitInfo member)]
    rfl
  rw [DwldStore.initDwldTasksInfo]
  by_cases right : RightFormat file
  · rw [if_pos (format.mpr right),init_right right]
    have size : (0+(recordsOf file).length)*recordSize < 2^31 := by
      rw [Nat.zero_add,cut_length]
      exact Nat.lt_of_le_of_lt (Nat.div_mul_le_self ..) small
    have nothing : ([] : List Task).map readTask = ({} : DwldStore).tasks.map placeTask := rfl
    obtain ⟨tasks,units⟩ := restore_parsed size nothing
    refine ⟨_,_,rfl,?_,?_⟩
    · rw [← tasks,Nat.zero_mul]
      rfl
    · rw [recordsOf_cleared,units]
      rfl
  · rw [if_neg fun formatted => right (format.mp formatted),init_wrong right]
    exact ⟨[],[],rfl,rfl,rfl⟩

end Parsed

section Far

def emptyRecord (isUsing : UInt8) : List UInt8 :=
  padded 16 markDwld ++ ([isUsing] ++ (List.replicate 1311 0 ++ ([checksumStubValue] ++ List.replicate 7 0)))

theorem emptyRecord_length (isUsing : UInt8) : (emptyRecord isUsing).length = recordSize := by
  simp [emptyRecord,recordSize,-List.reduceReplicate]

theorem emptyRecord_right (isUsing : UInt8) : rightRecord (emptyRecord isUsing) = true := by
  have mark : isText (emptyRecord isUsing) markDwld = true := isText_padded (by decide) _
  have sum : (emptyRecord isUsing).getD checkSumAt 0 = checksumStubValue := by
    simp [emptyRecord,checkSumAt,List.getD_eq_getElem?_getD,-List.reduceReplicate]
  rw [rightRecord,mark,sum]
  decide

theorem emptyRecord_using (used : UInt8) : isUsing (emptyRecord used) = (used != 0) := by
  simp [isUsing,emptyRecord,isUsingAt,List.getD_eq_getElem?_getD,-List.reduceReplicate]

/-- The last record of the file, which begins behind 2 GiB, is the only one in use. -/
def farFile : List UInt8 := (List.replicate 1607398 (emptyRecord 0) ++ [emptyRecord 1]).flatten

theorem farFile_full : ∀ unitInfo ∈ List.replicate 1607398 (emptyRecord 0) ++ [emptyRecord 1],
    unitInfo.length = recordSize := by
  intro unitInfo member
  rcases List.mem_append.mp member with front | last
  · rw [List.eq_of_mem_replicate front,emptyRecord_length]
  · rw [List.mem_singleton.mp last,emptyRecord_length]

theorem farFile_count : recordCount farFile = 1607399 := by
  have length := flatten_full_length farFile_full
  rw [List.length_append,List.length_replicate,List.length_singleton] at length
  rw [recordCount,farFile,length,Nat.mul_div_cancel _ (by decide)]

theorem farFile_records : recordsOf farFile = List.replicate 1607398 (emptyRecord 0) ++ [emptyRecord 1] := by
  have same := cut_flatten farFile_full []
  rw [List.append_nil,List.length_append,List.length_replicate,List.length_singleton] at same
  rw [recordsOf,farFile_count]
  exact same

theorem farFile_right : RightFormat farFile := by
  rw [rightFormat_iff,farFile_records,farFile_count]
  refine ⟨?_,fun unitInfo member => ?_⟩
  · have length := flatten_full_length farFile_full
    rwa [List.length_append,List.length_replicate,List.length_singleton] at length
  · rcases List.mem_append.mp member with front | last
    · rw [List.eq_of_mem_replicate front,emptyRecord_right]
    · rw [List.mem_singleton.mp last,emptyRecord_right]

theorem farFile_used : 1607398 ∈ usedRecords farFile := by
  have last : (recordsOf farFile)[1607398]? = some (emptyRecord 1) := by
    rw [farFile_records,List.getElem?_append_right (Nat.le_of_eq List.length_replicate),List.length_replicate]
    rfl
  have here : (recordsOf farFile)[1607398]? = some (blockAt recordSize farFile 1607398) := by
    rw [recordsOf,cut,List.getElem?_map,List.getElem?_range (by rw [farFile_count]; decide)]
    rfl
  rw [usedRecords,List.mem_filter,List.mem_range,farFile_count]
  refine ⟨by decide,?_⟩
  rw [← Option.some.inj (last.symm.trans here),emptyRecord_using]
  decide

/-- The offset of the last record is stored as a negative number. -/
theorem init_far_offset : RightFormat farFile ∧ ¬ InitRight farFile := by
  refine ⟨farFile_right,fun all => ?_⟩
  have low := restored_low farFile_right (all.right farFile_right) 1607398 farFile_used
  exact absurd low (by decide)

end Far

end MoCodes.MoCloud.Client.DwldInfoInit
