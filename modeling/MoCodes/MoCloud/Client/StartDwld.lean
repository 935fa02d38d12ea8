import MoCodes.MoCloud.Client.DwldSlots
import MoCodes.MoCloud.Client.DwldTasks

/-! One call of moCloudClient_startDownloadFile, and what it leaves of the tasks in memory and of
the used records of the dwldInfo file when it fails. -/
namespace MoCodes.MoCloud.Client.StartDwld
open DwldTasks (firstFree_unused writeUnit_inside writeUnit_free)
open DwldSlots (Slots World FileId cliDataStartDwld)

/-- The list in memory; malloc gives a node that is not in it. -/
structure TaskList extends DwldStore where
  fresh : ∀ task ∈ tasks, task.node < nodes

/-- The code, with what is left; `none` is a call that waits for ever. `doStartDwld` is the code that
it returns for the start offset and the file id; cliDataStopDwld has nothing to do with the tasks. -/
def startDownloadFile (store : DwldStore) (slots : Slots) (world : World) (doStartDwld : Int → Int → Int)
    (key : FileinfoKey) (filesize : Nat) (pLocalFilepath : Text) (malloc : Bool) : Option (Int × DwldStore) :=
  match store.getOneDwldNode key filesize pLocalFilepath malloc with
  | .error _ => some (-1,store)
  | .ok (store,pDwldNode,startOffset) =>
    match cliDataStartDwld slots world key filesize (some pLocalFilepath) true with
    | .waits _ => none
    | .returns ret pFileId _ =>
      if ret < 0 then some (-2,(store.delDwldNode key).2)
      else
        let fileId : Int := (pFileId.map fun fileId => (fileId.val : Int)).getD (-1)
        let store := store.setFileId pDwldNode fileId
        if doStartDwld startOffset fileId < 0 then some (-3,(store.delDwldNode key).2) else some (0,store)

def Used (file : DwldInfoFile) (offset : Nat) (unit : DwldFileUnitInfo) : Prop :=
  file[offset]? = some unit ∧ unit.isUsing = true

structure Same (store after : DwldStore) : Prop where
  tasks : after.tasks = store.tasks
  used : ∀ offset unit, Used after.file offset unit ↔ Used store.file offset unit

/-- A task of the key that is not being downloaded waits, and another download may be started. -/
def Resumes (store : DwldStore) (key : FileinfoKey) : Prop :=
  (store.tasks.countP fun task => task.dwldInfo.isDwlding) < dwldTaskMaxNum ∧
    ∃ task ∈ store.taskOf key, task.dwldInfo.isDwlding = false

instance (store : DwldStore) (key : FileinfoKey) : Decidable (Resumes store key) :=
  inferInstanceAs (Decidable (_ ∧ ∃ task ∈ store.taskOf key, _))

variable {store after : DwldStore} {slots : Slots} {world : World} {doStartDwld : Int → Int → Int} {key : FileinfoKey}
  {filesize : Nat} {pLocalFilepath : Text} {malloc : Bool} {node : Nat} {startOffset ret : Int}

section Stages

theorem getOneDwldNode_cases
    (got : store.getOneDwldNode key filesize pLocalFilepath malloc = .ok (after,node,startOffset)) :
    (store.taskOf key = none ∧ after = store.addTask key filesize pLocalFilepath ∧ node = store.nodes) ∨
      Resumes store key ∧ ∃ task, store.taskOf key = some task ∧ after = store.resumeTask task := by
  rw [DwldStore.getOneDwldNode] at got
  split at got
  · cases got
  rename_i room
  cases found : store.taskOf key with
  | none =>
    rw [found] at got
    dsimp only at got
    split at got
    · cases got
    · cases got
      exact .inl ⟨rfl,rfl,rfl⟩
  | some task =>
    rw [found] at got
    dsimp only at got
    split at got
    · cases got
    · rename_i waits
      cases got
      exact .inr ⟨⟨Nat.lt_of_not_le room,task,found,Bool.eq_false_iff.mpr waits⟩,task,rfl,rfl⟩

theorem getOneDwldNode_resumes (filesize : Nat) (pLocalFilepath : Text) (malloc : Bool) (resumes : Resumes store key) :
    ∃ task, store.taskOf key = some task ∧ store.getOneDwldNode key filesize pLocalFilepath malloc =
      .ok (store.resumeTask task,task.node,toInt (task.dwldInfo.unitId*DwldStore.sizeofDataUnitLen)) := by
  obtain ⟨room,task,found,waits⟩ := resumes
  refine ⟨task,found,?_⟩
  have here : store.taskOf key = some task := found
  rw [DwldStore.getOneDwldNode,if_neg (Nat.not_le_of_lt room),here]
  exact if_neg (by rw [waits]; decide)

/-- A call that fails has done nothing, or deletes the task of the key. -/
theorem startDownloadFile_failed
    (done : startDownloadFile store slots world doStartDwld key filesize pLocalFilepath malloc = some (ret,after))
    (failed : ret < 0) : ((∃ code, store.getOneDwldNode key filesize pLocalFilepath malloc = .error code) ∧ after = store) ∨
      ∃ made node startOffset, store.getOneDwldNode key filesize pLocalFilepath malloc = .ok (made,node,startOffset) ∧
        (after = (made.delDwldNode key).2 ∨ ∃ fileId, after = ((made.setFileId node fileId).delDwldNode key).2) := by
  rw [startDownloadFile] at done
  split at done
  · rename_i code stops
    cases done
    exact .inl ⟨⟨code,stops⟩,rfl⟩
  · rename_i made node startOffset got
    refine .inr ⟨made,node,startOffset,got,?_⟩
    split at done
    · cases done
    split at done
    · cases done
      exact .inl rfl
    dsimp only at done
    split at done
    · cases done
      exact .inr ⟨_,rfl⟩
    · cases done
      exact absurd failed (Int.lt_irrefl 0)

theorem taskOf_none (absent : store.taskOf key = none) : ∀ task ∈ store.tasks, task.key ≠ key := by
  intro task member same
  have nothing := List.getLast?_eq_none_iff.mp absent
  exact absurd (List.mem_filter.mpr ⟨member,decide_eq_true same⟩) (by rw [nothing]; exact List.not_mem_nil)

end Stages

section Undo

theorem find_front {front : DwldTaskInfo} {rest : List DwldTaskInfo} {made : DwldStore} (tasks : made.tasks = front :: rest)
    (same : front.key = key) : (made.delDwldNode key).2 =
      { made with
        tasks := rest
        file := writeUnit made.file front.offset
          { readUnit made.file front.offset with
            isUsing := false
            dwldInfo := { (readUnit made.file front.offset).dwldInfo with isDwlding := false }
            checkSum := checksumStubValue } } := by
  rw [DwldStore.delDwldNode,tasks,List.find?_cons_of_pos (by simpa using same)]
  simp [List.eraseP_cons_of_pos,same]

theorem writeUnit_twice {file : DwldInfoFile} {new undone : DwldFileUnitInfo} (place : Nat) :
    (writeUnit (writeUnit file (DwldStore.firstFree file) new) (DwldStore.firstFree file) undone)[place]? =
      if place = DwldStore.firstFree file then some undone else file[place]? := by
  have there : (writeUnit file (DwldStore.firstFree file) new)[DwldStore.firstFree file]? = some new := by
    rw [writeUnit_free,if_pos rfl]
  obtain ⟨inside,_⟩ := List.getElem?_eq_some_iff.mp there
  rw [writeUnit_inside inside,List.getElem?_set,writeUnit_free,if_pos inside]
  split_ifs with here other other
  · rfl
  · exact absurd here.symm other
  · exact absurd other.symm here
  · rfl

/-- The record that a new task takes is not used behind the deletion, nor was it before. -/
theorem used_undone {file : DwldInfoFile} {new undone : DwldFileUnitInfo} (unused : undone.isUsing = false) (place : Nat)
    (unit : DwldFileUnitInfo) :
    Used (writeUnit (writeUnit file (DwldStore.firstFree file) new) (DwldStore.firstFree file) undone) place unit ↔
      Used file place unit := by
  rw [Used,Used,writeUnit_twice]
  split_ifs with here
  · subst here
    refine iff_of_false ?_ ?_
    · rintro ⟨last,used⟩
      cases last
      rw [unused] at used
      cases used
    · rintro ⟨first,used⟩
      rw [firstFree_unused first] at used
      cases used
  · rfl

/-- Deleting the node in front leaves the list and the used records of before it was put there. -/
theorem undo_new {made : DwldStore} {front : DwldTaskInfo} {new : DwldFileUnitInfo} (tasks : made.tasks = front :: store.tasks)
    (same : front.key = key) (offset : front.offset = DwldStore.firstFree store.file)
    (file : made.file = writeUnit store.file (DwldStore.firstFree store.file) new) : Same store (made.delDwldNode key).2 := by
  rw [find_front tasks same,offset,file]
  exact ⟨rfl,used_undone rfl⟩

theorem setFileId_front (list : TaskList) (fileId : Int) :
    ((list.addTask key filesize pLocalFilepath).setFileId list.nodes fileId).tasks =
      ⟨DwldStore.newInfo key filesize pLocalFilepath,DwldStore.firstFree list.file,fileId,list.nodes⟩ :: list.tasks := by
  have others : list.tasks.map (fun task => if task.node = list.nodes then { task with fileId := fileId } else task) =
      list.tasks.map id := by
    apply List.map_congr_left
    intro task member
    exact if_neg (Nat.ne_of_lt (list.fresh task member))
  rw [List.map_id] at others
  exact congrArg₂ List.cons (if_pos rfl) others

theorem delDwldNode_shorter {made : DwldStore} (some_task : ∃ task ∈ made.tasks, task.key = key) :
    (made.delDwldNode key).2.tasks.length < made.tasks.length := by
  obtain ⟨task,member,same⟩ := some_task
  have front : 0 < made.tasks.length := List.length_pos_of_mem member
  rw [DwldStore.delDwldNode]
  cases found : made.tasks.find? fun task => task.key = key with
  | none => exact absurd (decide_eq_true same) (List.find?_eq_none.mp found task member)
  | some first =>
    dsimp only
    rw [List.length_eraseP_of_mem member (by simpa using same)]
    omega

/-- What is left of a task that was resumed is a list that lacks a node. -/
theorem undo_resumed {made : DwldStore} {task : DwldTaskInfo} (found : store.taskOf key = some task)
    (tasks : ∃ f : DwldTaskInfo → DwldTaskInfo, made.tasks = store.tasks.map f ∧ ∀ task, (f task).key = task.key) :
    ¬ Same store (made.delDwldNode key).2 := by
  obtain ⟨f,mapped,keys⟩ := tasks
  intro same
  have ofKey := List.mem_filter.mp (List.mem_of_getLast? found)
  have there : ∃ task ∈ made.tasks, task.key = key := by
    refine ⟨f task,?_,(keys task).trans (of_decide_eq_true ofKey.2)⟩
    rw [mapped]
    exact List.mem_map_of_mem ofKey.1
  have shorter := delDwldNode_shorter there
  rw [same.tasks,mapped,List.length_map] at shorter
  exact Nat.lt_irrefl _ shorter

theorem resumeTask_keys (task : DwldTaskInfo) : ∃ f : DwldTaskInfo → DwldTaskInfo,
    (store.resumeTask task).tasks = store.tasks.map f ∧ ∀ task, (f task).key = task.key :=
  ⟨_,rfl,fun _ => by split <;> rfl⟩

theorem setFileId_keys {made : DwldStore} (fileId : Int)
    (before : ∃ f : DwldTaskInfo → DwldTaskInfo, made.tasks = store.tasks.map f ∧ ∀ task, (f task).key = task.key) :
    ∃ f : DwldTaskInfo → DwldTaskInfo, (made.setFileId node fileId).tasks = store.tasks.map f ∧
      ∀ task, (f task).key = task.key := by
  obtain ⟨f,mapped,keys⟩ := before
  refine ⟨fun task => if (f task).node = node then { f task with fileId := fileId } else f task,?_,fun task => ?_⟩
  · rw [DwldStore.setFileId,mapped,List.map_map]
    rfl
  · dsimp only
    split
    · exact keys task
    · exact keys task

end Undo

section Atomic

theorem new_atomic (list : TaskList) (waits : ¬ Resumes list.toDwldStore key)
    (done : startDownloadFile list.toDwldStore slots world doStartDwld key filesize pLocalFilepath malloc = some (ret,after))
    (failed : ret < 0) : Same list.toDwldStore after := by
  rcases startDownloadFile_failed done failed with ⟨_,rfl⟩ | ⟨made,node,startOffset,got,undone⟩
  · exact ⟨rfl,fun _ _ => Iff.rfl⟩
  · obtain ⟨_,rfl,rfl⟩ | ⟨resumes,_⟩ := getOneDwldNode_cases got
    · rcases undone with rfl | ⟨fileId,rfl⟩
      · exact undo_new rfl rfl rfl rfl
      · exact undo_new (setFileId_front list fileId) rfl rfl rfl
    · exact absurd resumes waits

theorem resumed_not_atomic (resumes : Resumes store key)
    (done : startDownloadFile store slots world doStartDwld key filesize pLocalFilepath malloc = some (ret,after))
    (failed : ret < 0) : ¬ Same store after := by
  obtain ⟨task,found,goes⟩ := getOneDwldNode_resumes filesize pLocalFilepath malloc resumes
  rcases startDownloadFile_failed done failed with ⟨⟨code,stops⟩,_⟩ | ⟨made,node,startOffset,got,undone⟩
  · cases goes.symm.trans stops
  · cases goes.symm.trans got
    rcases undone with rfl | ⟨fileId,rfl⟩
    · exact undo_resumed found (resumeTask_keys task)
    · exact undo_resumed found (setFileId_keys fileId (resumeTask_keys task))

theorem free_slots_start (key : FileinfoKey) (filesize : Nat) (pLocalFilepath : Text) : ∃ slots, cliDataStartDwld (fun _ => {}) DwldSlots.accepting key filesize (some pLocalFilepath) true =
    .returns 0 (some DwldSlots.firstId) slots := ⟨_,rfl⟩

theorem resumed_refused (filesize : Nat) (pLocalFilepath : Text) (malloc : Bool) (resumes : Resumes store key) : ∃ after,
    startDownloadFile store (fun _ => {}) DwldSlots.accepting (fun _ _ => -5) key filesize pLocalFilepath malloc = some (-3,after) := by
  obtain ⟨task,found,goes⟩ := getOneDwldNode_resumes filesize pLocalFilepath malloc resumes
  obtain ⟨slots,starts⟩ := free_slots_start key filesize pLocalFilepath
  rw [startDownloadFile,goes]
  dsimp only
  rw [starts]
  exact ⟨_,rfl⟩

def film : FileinfoKey := ⟨filetypeVideo,text "film"⟩

def filmInfo : DwldInfo := ⟨film,9000,text "/film",5,false⟩

def interrupted : DwldStore where
  tasks := [⟨filmInfo,0,-1,0⟩]
  file := [DwldStore.marked true filmInfo]
  nodes := 1

end Atomic

end MoCodes.MoCloud.Client.StartDwld
