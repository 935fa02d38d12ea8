import MoCodes.Lib.Transition
import MoCodes.MoCloud.Client.DwldInfoFile

/-! The download tasks in memory and in the dwldInfo file, while any number of callers are in
moCloudClient_startDownloadFile, moCloudClient_stopDownloadFile and setDwldProgress. What
happens between two sections under gDwldTasksMutex is open, up to what it returns. -/
namespace MoCodes.MoCloud.Client.DwldTasks
open Lib.Transition

/-- Where a caller stands that is not in a section. -/
inductive Place where
  /-- before cliDataStartDwld has returned -/
  | startData (node : Nat) (key : FileinfoKey)
  /-- before doStartDwld has returned -/
  | startDo (key : FileinfoKey)
  /-- before the delDwldNode of a start that failed -/
  | startUndo (key : FileinfoKey)
  /-- setDwldProgress, before it calls moCloudClient_stopDownloadFile -/
  | eofStop (key : FileinfoKey)
  /-- in the endless loop of getDwldFileInfo, with the mutex -/
  | searching (key : FileinfoKey)
  /-- before the delDwldNode of moCloudClient_stopDownloadFile -/
  | stopDel (key : FileinfoKey)
  deriving DecidableEq

namespace Place

def isSearching : Place → Bool
  | .searching _ => true
  | _ => false

/-- The key of the task that the caller stops. -/
def stops : Place → Option FileinfoKey
  | .eofStop key => some key
  | .searching key => some key
  | .stopDel key => some key
  | _ => none

end Place

variable {n : Nat}

structure State (n : Nat) where
  store : DwldStore
  calls : Fin n → Option Place

inductive Event (n : Nat) where
  | startDownloadFile (caller : Fin n) (key : FileinfoKey) (filesize : Nat) (pLocalFilepath : Text) (malloc : Bool)
  | cliDataStartDwld (caller : Fin n) (fileId : Option Int)
  | doStartDwld (caller : Fin n) (done : Bool)
  | stopDownloadFile (caller : Fin n) (key : FileinfoKey)
  | setDwldProgress (caller : Fin n) (fileId unitId : Int) (isEof : Bool)
  | stopAtEof (caller : Fin n)
  | delDwldNode (caller : Fin n)

namespace State

variable (state : State n)

def move (caller : Fin n) (place : Option Place) : State n :=
  { state with calls := Function.update state.calls caller place }

/-- The first section of moCloudClient_stopDownloadFile. -/
def stop (caller : Fin n) (key : FileinfoKey) : State n :=
  match state.store.getDwldFileInfo key with
  | none => state.move caller (some (.searching key))
  | some (.error _) => state.move caller none
  | some (.ok _) => state.move caller (some (.stopDel key))

def delete (caller : Fin n) (key : FileinfoKey) : State n :=
  { state with store := (state.store.delDwldNode key).2 }.move caller none

def next : Event n → State n
  | .startDownloadFile caller key filesize pLocalFilepath malloc =>
    match state.store.getOneDwldNode key filesize pLocalFilepath malloc with
    | .error _ => state
    | .ok (store,node,_) => { state with store := store }.move caller (some (.startData node key))
  | .cliDataStartDwld caller fileId =>
    match state.calls caller,fileId with
    | some (.startData _ key),none => state.move caller (some (.startUndo key))
    | some (.startData node key),some fileId =>
      { state with store := state.store.setFileId node fileId }.move caller (some (.startDo key))
    | _,_ => state
  | .doStartDwld caller done =>
    match state.calls caller with
    | some (.startDo key) => state.move caller (if done then none else some (.startUndo key))
    | _ => state
  | .stopDownloadFile caller key => state.stop caller key
  | .setDwldProgress caller fileId unitId isEof =>
    let told := state.store.setDwldProgress fileId unitId isEof
    { state with store := told.1 }.move caller (if isEof then told.2.map .eofStop else none)
  | .stopAtEof caller =>
    match state.calls caller with
    | some (.eofStop key) => state.stop caller key
    | _ => state
  | .delDwldNode caller =>
    match state.calls caller with
    | some (.startUndo key) => state.delete caller key
    | some (.stopDel key) => state.delete caller key
    | _ => state

/-- The mutex can be had. -/
def Free : Prop := ∀ caller, (state.calls caller).any Place.isSearching = false

instance : Decidable state.Free := inferInstanceAs (Decidable (∀ _, _ = _))

def Enabled : Event n → Prop
  | .startDownloadFile caller .. => state.calls caller = none ∧ state.Free
  | .cliDataStartDwld caller _ => (state.calls caller).any (fun place => place matches .startData _ _) = true
  | .doStartDwld caller _ => (state.calls caller).any (fun place => place matches .startDo _) = true
  | .stopDownloadFile caller _ => state.calls caller = none ∧ state.Free
  | .setDwldProgress caller .. => state.calls caller = none ∧ state.Free
  | .stopAtEof caller => (state.calls caller).any (fun place => place matches .eofStop _) = true ∧ state.Free
  | .delDwldNode caller =>
    (state.calls caller).any (fun place => place matches .startUndo _ | .stopDel _) = true ∧ state.Free

instance (event : Event n) : Decidable (state.Enabled event) := by
  cases event <;> unfold Enabled <;> infer_instance

/-- No call is in progress. -/
def Quiet : Prop := ∀ caller, state.calls caller = none

instance : Decidable state.Quiet := inferInstanceAs (Decidable (∀ _, _ = _))

end State

def system (n : Nat) : System (State n) (Event n) := ⟨State.Enabled,State.next⟩

instance (state : State n) (event : Event n) : Decidable ((system n).Enabled state event) :=
  inferInstanceAs (Decidable (state.Enabled event))

def start (n : Nat) (file : DwldInfoFile) (leftover : Bool) : State n where
  store := DwldStore.initDwldTasksInfo file leftover
  calls := fun _ => none

/-- The list and the file tell the same tasks. -/
structure Consistent (store : DwldStore) : Prop where
  distinct : (store.tasks.map DwldTaskInfo.offset).Nodup
  recorded : ∀ task ∈ store.tasks, ∃ unit, store.file[task.offset]? = some unit ∧ unit.isUsing = true ∧ unit.key = task.key
  owned : ∀ offset unit, store.file[offset]? = some unit → unit.isUsing = true →
    ∃ task ∈ store.tasks, task.offset = offset ∧ task.key = unit.key

/-- A task is added to the list only while all tasks of the list have their records marked
used, and the task whose end of file is told is the only one of its key. -/
def Orderly (state : State n) : Event n → Prop
  | .startDownloadFile _ key .. => state.store.taskOf key = none →
    ∀ task ∈ state.store.tasks, (readUnit state.store.file task.offset).isUsing = true
  | .setDwldProgress _ fileId _ true => ∀ task ∈ state.store.tasks.find? (fun task => task.fileId = fileId),
    ∀ other ∈ state.store.tasks, other.key = task.key → other.offset = task.offset
  | _ => True

instance (state : State n) (event : Event n) : Decidable (Orderly state event) := by
  unfold Orderly
  split <;> infer_instance

section Files

variable {file : DwldInfoFile} {offset : Nat} {unit : DwldFileUnitInfo}

theorem writeUnit_inside (inside : offset < file.length) : writeUnit file offset unit = file.set offset unit :=
  if_pos inside

theorem writeUnit_end : writeUnit file file.length unit = file ++ [unit] := by
  rw [writeUnit,if_neg (Nat.lt_irrefl _),Nat.sub_self,List.replicate_zero,List.append_nil]

theorem readUnit_some (found : file[offset]? = some unit) : readUnit file offset = unit := by
  rw [readUnit,List.getD_eq_getElem?_getD,found]
  rfl

theorem firstFree_le : DwldStore.firstFree file ≤ file.length := List.findIdx_le_length

theorem firstFree_unused (found : file[DwldStore.firstFree file]? = some unit) : unit.isUsing = false := by
  obtain ⟨inside,rfl⟩ := List.getElem?_eq_some_iff.mp found
  exact Bool.not_eq_true' _ |>.mp (List.findIdx_getElem (w := inside))

theorem writeUnit_free (place : Nat) : (writeUnit file (DwldStore.firstFree file) unit)[place]? =
    if place = DwldStore.firstFree file then some unit else file[place]? := by
  have bound : DwldStore.firstFree file ≤ file.length := firstFree_le
  rcases Nat.lt_or_eq_of_le bound with inside | last
  · rw [writeUnit_inside inside,List.getElem?_set]
    split_ifs with here other other
    · rfl
    · exact absurd here.symm other
    · exact absurd other.symm here
    · rfl
  · rw [last,writeUnit_end,List.getElem?_append]
    split_ifs with before here here
    · omega
    · rfl
    · rw [here,Nat.sub_self]
      rfl
    · rw [List.getElem?_eq_none (by simp; omega),List.getElem?_eq_none (by omega)]

end Files

section Recorded

/-- Where a task is recorded, and its key. -/
def place (task : DwldTaskInfo) : Nat × FileinfoKey := (task.offset,task.key)

/-- The only task of its key, which someone has set out to delete. -/
def Ending (places : List (Nat × FileinfoKey)) (stopped : FileinfoKey → Prop) (task : Nat × FileinfoKey) : Prop :=
  stopped task.2 ∧ ∀ other ∈ places, other.2 = task.2 → other.1 = task.1

/-- The list and the file, where the record of a task that is to be deleted may be marked
unused already. -/
structure Recorded (places : List (Nat × FileinfoKey)) (file : DwldInfoFile) (stopped : FileinfoKey → Prop) : Prop where
  distinct : (places.map Prod.fst).Nodup
  recorded : ∀ task ∈ places, ∃ unit, file[task.1]? = some unit ∧ unit.key = task.2 ∧
    (unit.isUsing = true ∨ Ending places stopped task)
  owned : ∀ offset unit, file[offset]? = some unit → unit.isUsing = true → (offset,unit.key) ∈ places

variable {places : List (Nat × FileinfoKey)} {file : DwldInfoFile} {stopped later : FileinfoKey → Prop}
  {task : Nat × FileinfoKey} {unit : DwldFileUnitInfo}

theorem recorded_mono (before : Recorded places file stopped)
    (still : ∀ task ∈ places, stopped task.2 → later task.2) : Recorded places file later := by
  refine ⟨before.distinct,fun task member => ?_,before.owned⟩
  obtain ⟨unit,found,key,used⟩ := before.recorded task member
  exact ⟨unit,found,key,used.imp_right fun ending => ⟨still task member ending.1,ending.2⟩⟩

theorem same_place (before : Recorded places file stopped) {other : Nat × FileinfoKey} (member : task ∈ places)
    (among : other ∈ places) (same : other.1 = task.1) : other = task :=
  List.inj_on_of_nodup_map before.distinct among member same

variable (unit) in
theorem recorded_write (before : Recorded places file stopped) (member : task ∈ places) (key : unit.key = task.2)
    (used : unit.isUsing = true ∨ Ending places stopped task) :
    Recorded places (writeUnit file task.1 unit) stopped := by
  obtain ⟨old,found,oldKey,_⟩ := before.recorded task member
  have inside : task.1 < file.length := (List.getElem?_eq_some_iff.mp found).1
  rw [writeUnit_inside inside]
  refine ⟨before.distinct,fun other among => ?_,fun offset written there using_ => ?_⟩
  · by_cases same : other.1 = task.1
    · obtain rfl := same_place before member among same
      exact ⟨unit,by rw [List.getElem?_set_self inside],key,used⟩
    · rw [List.getElem?_set_ne (Ne.symm same)]
      exact before.recorded other among
  · by_cases same : offset = task.1
    · subst same
      rw [List.getElem?_set_self inside] at there
      obtain rfl := Option.some.inj there
      rw [key]
      exact member
    · rw [List.getElem?_set_ne (Ne.symm same)] at there
      exact before.owned offset written there using_

variable (unit) in
theorem recorded_add (before : Recorded places file stopped) (all : ∀ task ∈ places, (readUnit file task.1).isUsing = true)
    (used : unit.isUsing = true) :
    Recorded ((DwldStore.firstFree file,unit.key) :: places) (writeUnit file (DwldStore.firstFree file) unit) stopped := by
  have absent : ∀ task ∈ places, task.1 ≠ DwldStore.firstFree file := by
    intro task member same
    obtain ⟨old,found,_⟩ := before.recorded task member
    have unused : old.isUsing = false := firstFree_unused (same ▸ found)
    have using_ := all task member
    rw [readUnit_some found,unused] at using_
    cases using_
  refine ⟨?_,?_,?_⟩
  · rw [List.map_cons,List.nodup_cons]
    refine ⟨fun member => ?_,before.distinct⟩
    obtain ⟨task,among,same⟩ := List.mem_map.mp member
    exact absent task among same
  · intro task member
    rw [writeUnit_free]
    rcases List.mem_cons.mp member with rfl | member
    · exact ⟨unit,if_pos rfl,rfl,Or.inl used⟩
    · obtain ⟨old,found,key,_⟩ := before.recorded task member
      rw [if_neg (absent task member),found]
      have using_ := all task member
      rw [readUnit_some found] at using_
      exact ⟨old,rfl,key,Or.inl using_⟩
  · intro offset written there using_
    rw [writeUnit_free] at there
    split_ifs at there with here
    · obtain rfl := Option.some.inj there
      exact here ▸ List.mem_cons_self
    · exact List.mem_cons_of_mem _ (before.owned offset written there using_)

variable (unit) in
theorem recorded_append (before : Recorded places file fun _ => False) :
    Recorded (if unit.isUsing then (file.length,unit.key) :: places else places) (file ++ [unit]) fun _ => False := by
  have inside : ∀ task ∈ places, task.1 < file.length := by
    intro task member
    obtain ⟨old,found,_⟩ := before.recorded task member
    exact (List.getElem?_eq_some_iff.mp found).1
  have old : ∀ task ∈ places, ∃ old, (file ++ [unit])[task.1]? = some old ∧ old.key = task.2 ∧ old.isUsing = true := by
    intro task member
    obtain ⟨old,found,key,used⟩ := before.recorded task member
    exact ⟨old,(List.getElem?_append_left (inside task member)).trans found,key,used.resolve_right fun ending => ending.1⟩
  have owned : ∀ offset written, (file ++ [unit])[offset]? = some written → written.isUsing = true →
      (offset,written.key) ∈ places ∨ offset = file.length ∧ written = unit := by
    intro offset written there using_
    rw [List.getElem?_append] at there
    split_ifs at there with early
    · exact Or.inl (before.owned offset written there using_)
    · obtain ⟨bound,rfl⟩ := List.getElem?_eq_some_iff.mp there
      rw [List.length_singleton] at bound
      exact Or.inr ⟨by omega,List.getElem_singleton _⟩
  split_ifs with using_
  · refine ⟨?_,fun task member => ?_,fun offset written there used => ?_⟩
    · rw [List.map_cons,List.nodup_cons]
      refine ⟨fun member => ?_,before.distinct⟩
      obtain ⟨task,among,same⟩ := List.mem_map.mp member
      have bound := inside task among
      rw [same] at bound
      exact Nat.lt_irrefl _ bound
    · rcases List.mem_cons.mp member with rfl | member
      · exact ⟨unit,List.getElem?_concat_length,rfl,Or.inl using_⟩
      · obtain ⟨old,found,key,used⟩ := old task member
        exact ⟨old,found,key,Or.inl used⟩
    · rcases owned offset written there used with before | ⟨rfl,rfl⟩
      · exact List.mem_cons_of_mem _ before
      · exact List.mem_cons_self
  · refine ⟨before.distinct,fun task member => ?_,fun offset written there used => ?_⟩
    · obtain ⟨old,found,key,used⟩ := old task member
      exact ⟨old,found,key,Or.inl used⟩
    · rcases owned offset written there used with before | ⟨rfl,rfl⟩
      · exact before
      · exact absurd used using_

variable (unit) in
theorem recorded_delete {key : FileinfoKey} (before : Recorded places file stopped)
    (found : places.find? (fun task => task.2 = key) = some task) (unused : unit.isUsing = false)
    (still : ∀ other ≠ key, stopped other → later other) :
    Recorded (places.eraseP fun task => task.2 = key) (writeUnit file task.1 unit) later := by
  have member : task ∈ places := List.mem_of_find?_eq_some found
  have same : task.2 = key := by simpa using List.find?_some found
  obtain ⟨old,there,_⟩ := before.recorded task member
  have inside : task.1 < file.length := (List.getElem?_eq_some_iff.mp there).1
  -- the task that is erased is the one that was found
  obtain ⟨front,rest,split,erased,_⟩ : ∃ front rest, places = front ++ task :: rest ∧
      (places.eraseP fun task => task.2 = key) = front ++ rest ∧ ∀ other ∈ front, other.2 ≠ key := by
    obtain ⟨first,front,rest,fresh,first_key,split,erased⟩ := List.exists_of_eraseP (p := fun task => decide (task.2 = key))
      member (by simpa using same)
    have first_found : places.find? (fun task => task.2 = key) = some first := by
      rw [split,List.find?_append,List.find?_eq_none.mpr (by simpa using fresh),Option.none_or]
      exact List.find?_cons_of_pos first_key
    obtain rfl : first = task := Option.some.inj (first_found.symm.trans found)
    exact ⟨front,rest,split,erased,by simpa using fresh⟩
  rw [erased,writeUnit_inside inside]
  have places_nodup : ((front ++ task :: rest).map Prod.fst).Nodup := split ▸ before.distinct
  rw [List.map_append,List.map_cons,List.nodup_middle,List.nodup_cons,← List.map_append] at places_nodup
  have apart : ∀ other ∈ front ++ rest, other.1 ≠ task.1 := fun other among equal =>
    places_nodup.1 (List.mem_map.mpr ⟨other,among,equal⟩)
  have kept : ∀ other ∈ front ++ rest, other ∈ places := by
    intro other among
    rw [split]
    rcases List.mem_append.mp among with early | late
    · exact List.mem_append_left _ early
    · exact List.mem_append_right _ (List.mem_cons_of_mem _ late)
  refine ⟨places_nodup.2,fun other among => ?_,fun offset written at_ using_ => ?_⟩
  · obtain ⟨old,there,oldKey,used⟩ := before.recorded other (kept other among)
    rw [List.getElem?_set_ne (Ne.symm (apart other among))]
    refine ⟨old,there,oldKey,used.imp_right fun ending => ?_⟩
    have different : other.2 ≠ key := fun equal =>
      apart other among (ending.2 task member (same.trans equal.symm)).symm
    exact ⟨still _ different ending.1,fun third third_among => ending.2 third (kept third third_among)⟩
  · by_cases here : offset = task.1
    · subst here
      rw [List.getElem?_set_self inside] at at_
      obtain rfl := Option.some.inj at_
      rw [unused] at using_
      cases using_
    · rw [List.getElem?_set_ne (Ne.symm here)] at at_
      have owner := before.owned offset written at_ using_
      rw [split] at owner
      rcases List.mem_append.mp owner with early | late
      · exact List.mem_append_left _ early
      · rcases List.mem_cons.mp late with equal | late
        · exact absurd (congrArg Prod.fst equal) here
        · exact List.mem_append_right _ late

end Recorded

section Stores

variable {store : DwldStore} {stopped later : FileinfoKey → Prop}

/-- What a store has recorded. -/
def Sound (store : DwldStore) (stopped : FileinfoKey → Prop) : Prop :=
  Recorded (store.tasks.map place) store.file stopped

theorem places_map {f : DwldTaskInfo → DwldTaskInfo} (same : ∀ task, place (f task) = place task)
    (tasks : List DwldTaskInfo) : (tasks.map f).map place = tasks.map place := by
  rw [List.map_map]
  exact List.map_congr_left fun task _ => same task

theorem restore_sound {units : DwldInfoFile} {offset : Nat} (before : Sound store fun _ => False)
    (read : store.file.length = offset) : Sound (DwldStore.restore units offset store) fun _ => False := by
  induction units generalizing offset store with
  | nil => exact before
  | cons unit units ih =>
    rw [DwldStore.restore]
    split_ifs with using_
    · apply ih
      · have added := recorded_append { unit with dwldInfo := { unit.dwldInfo with isDwlding := false } } before
        rw [if_pos using_,read] at added
        exact added
      · rw [List.length_append,List.length_singleton,read]
    · apply ih
      · have added := recorded_append unit before
        rw [if_neg using_] at added
        exact added
      · rw [List.length_append,List.length_singleton,read]

theorem initDwldTasksInfo_sound (file : DwldInfoFile) (leftover : Bool) :
    Sound (DwldStore.initDwldTasksInfo file leftover) fun _ => False := by
  have empty : Sound {} fun _ => False :=
    ⟨List.nodup_nil,fun _ member => absurd member List.not_mem_nil,fun _ _ found => by simp at found⟩
  rw [DwldStore.initDwldTasksInfo]
  split
  · exact restore_sound empty rfl
  · exact empty

variable {task : DwldTaskInfo} {key : FileinfoKey}

theorem taskOf_mem (found : store.taskOf key = some task) : task ∈ store.tasks :=
  (List.mem_filter.mp (List.mem_of_getLast? found)).1

theorem readUnit_key (before : Sound store stopped) (member : task ∈ store.tasks) :
    (readUnit store.file task.offset).key = task.key := by
  obtain ⟨unit,found,same,_⟩ := before.recorded (place task) (List.mem_map_of_mem member)
  have read : readUnit store.file task.offset = unit := readUnit_some found
  rw [read]
  exact same

theorem resumeTask_sound (before : Sound store stopped) (member : task ∈ store.tasks) :
    Sound (store.resumeTask task) stopped := by
  have written := recorded_write
    { readUnit store.file task.offset with
      isUsing := true
      dwldInfo := { (readUnit store.file task.offset).dwldInfo with isDwlding := true } }
    before (List.mem_map_of_mem member) (readUnit_key before member) (Or.inl rfl)
  rw [Sound,DwldStore.resumeTask,places_map fun task => by split <;> rfl]
  exact written

theorem getOneDwldNode_sound {filesize node : Nat} {pLocalFilepath : Text} {malloc : Bool} {after : DwldStore}
    {startOffset : Int} (before : Sound store stopped)
    (all : store.taskOf key = none → ∀ task ∈ store.tasks, (readUnit store.file task.offset).isUsing = true)
    (got : store.getOneDwldNode key filesize pLocalFilepath malloc = .ok (after,node,startOffset)) :
    Sound after stopped := by
  rw [DwldStore.getOneDwldNode] at got
  obtain ⟨_,got⟩ | ⟨_,got⟩ := ite_eq_iff.mp got
  · cases got
  split at got
  · rename_i absent
    obtain ⟨_,got⟩ | ⟨_,got⟩ := ite_eq_iff.mp got
    · cases got
    cases got
    refine recorded_add (DwldStore.marked true _) before (fun task member => ?_) rfl
    obtain ⟨task,among,rfl⟩ := List.mem_map.mp member
    exact all absent task among
  · rename_i task found
    obtain ⟨_,got⟩ | ⟨_,got⟩ := ite_eq_iff.mp got
    · cases got
    cases got
    exact resumeTask_sound before (taskOf_mem found)

theorem setFileId_sound {node : Nat} {fileId : Int} (before : Sound store stopped) :
    Sound (store.setFileId node fileId) stopped := by
  rw [Sound,DwldStore.setFileId,places_map fun task => by split <;> rfl]
  exact before

theorem setDwldProgress_sound {fileId unitId : Int} {isEof : Bool} (before : Sound store stopped)
    (alone : isEof = true → ∀ task ∈ store.tasks.find? (fun task => task.fileId = fileId),
      ∀ other ∈ store.tasks, other.key = task.key → other.offset = task.offset)
    (still : ∀ key, stopped key → later key)
    (told : isEof = true → ∀ key, (store.setDwldProgress fileId unitId isEof).2 = some key → later key) :
    Sound (store.setDwldProgress fileId unitId isEof).1 later := by
  have weaker : Sound store later := recorded_mono before fun task _ => still task.2
  rw [DwldStore.setDwldProgress] at told ⊢
  split
  · exact weaker
  · rename_i task found
    simp only [found] at told
    split_ifs at told ⊢ with running
    · exact weaker
    · have member : task ∈ store.tasks := List.mem_of_find?_eq_some found
      have used : (!isEof) = true ∨ Ending (store.tasks.map place) later (place task) := by
        cases isEof with
        | false => exact Or.inl rfl
        | true =>
          refine Or.inr ⟨told rfl task.key rfl,fun other among same => ?_⟩
          obtain ⟨other,listed,rfl⟩ := List.mem_map.mp among
          exact alone rfl task found other listed same
      rw [Sound,places_map fun task => by split <;> rfl]
      exact recorded_write (DwldStore.marked (!isEof) { task.dwldInfo with unitId := unitId }) weaker
        (List.mem_map_of_mem member) rfl used

theorem delDwldNode_sound (before : Sound store stopped) (still : ∀ other ≠ key, stopped other → later other) :
    Sound (store.delDwldNode key).2 later := by
  rw [DwldStore.delDwldNode]
  split
  · rename_i absent
    refine recorded_mono before fun task member => still task.2 ?_
    obtain ⟨task,among,rfl⟩ := List.mem_map.mp member
    simpa [place] using List.find?_eq_none.mp absent task among
  · rename_i task found
    have place_found : (store.tasks.map place).find? (fun task => task.2 = key) = some (place task) := by
      rw [List.find?_map]
      exact congrArg (Option.map place) found
    have deleted := recorded_delete
      { readUnit store.file task.offset with
        isUsing := false
        dwldInfo := { (readUnit store.file task.offset).dwldInfo with isDwlding := false }
        checkSum := checksumStubValue }
      before place_found rfl still
    rw [List.eraseP_map] at deleted
    exact deleted

end Stores

section Runs

variable {n : Nat} {state : State n} {caller : Fin n}

/-- The keys of the tasks that callers have set out to stop. -/
def State.Stopped (state : State n) (key : FileinfoKey) : Prop :=
  ∃ caller, (state.calls caller).bind Place.stops = some key

def Kept (state : State n) : Prop := Sound state.store state.Stopped

theorem move_here {target : Option Place} : (state.move caller target).calls caller = target :=
  Function.update_self ..

theorem move_other {target : Option Place} {other : Fin n} (different : other ≠ caller) :
    (state.move caller target).calls other = state.calls other :=
  Function.update_of_ne different ..

theorem stopped_move {target : Option Place} {key : FileinfoKey} (stopped : state.Stopped key)
    (still : (state.calls caller).bind Place.stops = some key → target.bind Place.stops = some key) :
    (state.move caller target).Stopped key := by
  obtain ⟨other,there⟩ := stopped
  refine ⟨other,?_⟩
  by_cases same : other = caller
  · subst same
    rw [move_here]
    exact still there
  · rw [move_other same]
    exact there

theorem stopped_idle {target : Option Place} {key : FileinfoKey} (idle : (state.calls caller).bind Place.stops = none)
    (stopped : state.Stopped key) : (state.move caller target).Stopped key :=
  stopped_move stopped fun stops => by rw [idle] at stops; cases stops

theorem stop_kept {key : FileinfoKey} (before : Kept state)
    (stops : ∀ other, (state.calls caller).bind Place.stops = some other → other = key) :
    Kept (state.stop caller key) := by
  have goes : ∀ {target : Place}, target.stops = some key → Kept (state.move caller (some target)) :=
    fun same => recorded_mono before fun task _ stopped =>
      stopped_move stopped fun old => by rw [stops _ old]; exact same
  rw [State.stop]
  split
  · exact goes rfl
  · rename_i failed
    -- only an empty list is searched to its end
    have empty : state.store.tasks = [] := by
      rw [DwldStore.getDwldFileInfo] at failed
      split at failed
      · assumption
      · split_ifs at failed
        cases failed
    refine recorded_mono before fun task member => ?_
    have none_there : task ∈ state.store.tasks.map place := member
    rw [empty] at none_there
    cases none_there
  · exact goes rfl

theorem delete_kept {key : FileinfoKey} (before : Kept state)
    (stops : ∀ other, (state.calls caller).bind Place.stops = some other → other = key) :
    Kept (state.delete caller key) :=
  delDwldNode_sound before fun other different stopped =>
    @stopped_move n { state with store := _ } _ _ _ stopped fun old => absurd (stops other old) different

variable {event : Event n}

theorem step_kept (before : Kept state) (enabled : state.Enabled event) (ordered : Orderly state event) :
    Kept (state.next event) := by
  cases event with
  | startDownloadFile caller key filesize pLocalFilepath malloc =>
    have idle : (state.calls caller).bind Place.stops = none := by rw [enabled.1]; rfl
    rw [State.next]
    split
    · exact before
    · rename_i store node startOffset got
      have added := getOneDwldNode_sound before ordered got
      exact recorded_mono added fun task _ stopped =>
        @stopped_idle n { state with store := store } _ _ _ idle stopped
  | cliDataStartDwld caller fileId =>
    unfold State.next
    dsimp only
    split
    · rename_i here
      have idle : (state.calls caller).bind Place.stops = none := by rw [here]; rfl
      exact recorded_mono before fun task _ => stopped_idle idle
    · rename_i node key fileId here
      have idle : (state.calls caller).bind Place.stops = none := by rw [here]; rfl
      exact recorded_mono (setFileId_sound before) fun task _ stopped =>
        @stopped_idle n { state with store := state.store.setFileId node fileId } _ _ _ idle stopped
    · exact before
  | doStartDwld caller done =>
    rw [State.next]
    split
    · rename_i here
      have idle : (state.calls caller).bind Place.stops = none := by rw [here]; rfl
      exact recorded_mono before fun task _ => stopped_idle idle
    · exact before
  | stopDownloadFile caller key =>
    exact stop_kept before fun other stops => by rw [enabled.1] at stops; cases stops
  | setDwldProgress caller fileId unitId isEof =>
    have idle : (state.calls caller).bind Place.stops = none := by rw [enabled.1]; rfl
    refine setDwldProgress_sound before (fun eof => ?_) (fun key stopped => ?_) fun eof key told => ?_
    · subst eof
      exact ordered
    · exact @stopped_idle n { state with store := _ } _ _ _ idle stopped
    · refine ⟨caller,?_⟩
      have moved : (state.next (.setDwldProgress caller fileId unitId isEof)).calls caller =
          if isEof then (state.store.setDwldProgress fileId unitId isEof).2.map .eofStop else none := move_here
      rw [moved,if_pos eof,told]
      rfl
  | stopAtEof caller =>
    rw [State.next]
    split
    · rename_i key here
      refine stop_kept before fun other stops => ?_
      rw [here] at stops
      exact (Option.some.inj stops).symm
    · exact before
  | delDwldNode caller =>
    rw [State.next]
    split
    · rename_i key here
      refine delete_kept before fun other stops => ?_
      rw [here] at stops
      cases stops
    · rename_i key here
      refine delete_kept before fun other stops => ?_
      rw [here] at stops
      exact (Option.some.inj stops).symm
    · exact before

theorem quiet_consistent (sound : Kept state) (quiet : state.Quiet) : Consistent state.store := by
  have nobody : ∀ key, ¬ state.Stopped key := by
    rintro key ⟨caller,stops⟩
    rw [quiet caller] at stops
    cases stops
  refine ⟨?_,fun task member => ?_,fun offset unit found using_ => ?_⟩
  · have distinct := sound.distinct
    rwa [List.map_map] at distinct
  · obtain ⟨unit,found,key,used⟩ := sound.recorded (place task) (List.mem_map_of_mem member)
    exact ⟨unit,found,used.resolve_right fun ending => nobody _ ending.1,key⟩
  · obtain ⟨task,member,same⟩ := List.mem_map.mp (sound.owned offset unit found using_)
    exact ⟨task,member,congrArg Prod.fst same,congrArg Prod.snd same⟩

def first : FileinfoKey := ⟨filetypeVideo,text "a"⟩

def second : FileinfoKey := ⟨filetypeVideo,text "b"⟩

def oneByOne : List (Event 2) :=
  [.startDownloadFile 0 first 5 [] true,.cliDataStartDwld 0 (some 0),.doStartDwld 0 true,
    .setDwldProgress 1 0 3 false,.setDwldProgress 1 0 0 true,.stopAtEof 1,.delDwldNode 1,
    .startDownloadFile 0 second 7 [] true,.cliDataStartDwld 0 (some 1),.doStartDwld 0 true]

def eofRace : List (Event 2) :=
  [.startDownloadFile 0 first 5 [] true,.cliDataStartDwld 0 (some 0),.doStartDwld 0 true,
    .setDwldProgress 1 0 0 true,.stopAtEof 1,
    .startDownloadFile 0 second 7 [] true,.cliDataStartDwld 0 (some 1),.doStartDwld 0 true,.delDwldNode 1]

end Runs

end MoCodes.MoCloud.Client.DwldTasks
