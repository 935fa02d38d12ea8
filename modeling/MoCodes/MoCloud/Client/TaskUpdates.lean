import MoCodes.MoCloud.Client.CopySteps

/-! The calls that change the tasks, over the nodes and over the list of tasks. -/
namespace MoCodes.MoCloud.Client
open Lib.LinkedList Lib.Owners Lib.Machine

section Entries

variable {entries : Entries}

/-- The task of one node is changed. -/
def changeAt (addr : Nat) (change : DwldTaskInfo → DwldTaskInfo) (entries : Entries) : Entries :=
  entries.map fun entry => if entry.1 = addr then (entry.1,change entry.2) else entry

theorem changeAt_fst (addr : Nat) (change : DwldTaskInfo → DwldTaskInfo) (entries : Entries) :
    (changeAt addr change entries).map Prod.fst = entries.map Prod.fst := by
  rw [changeAt,List.map_map]
  refine List.map_congr_left fun entry _ => ?_
  rw [Function.comp_apply]
  split <;> rfl

theorem changeAt_view {β : Type} {view : DwldTaskInfo → β} {change : DwldTaskInfo → DwldTaskInfo}
    (keeps : ∀ task, view (change task) = view task) (addr : Nat) (entries : Entries) :
    ((changeAt addr change entries).map fun entry => view entry.2) = entries.map fun entry => view entry.2 := by
  rw [changeAt,List.map_map]
  refine List.map_congr_left fun entry _ => ?_
  rw [Function.comp_apply]
  split
  · exact keeps entry.2
  · rfl

theorem cellsOf_changeAt {change : DwldTaskInfo → DwldTaskInfo} {changeNode : DwldNode → DwldNode}
    (same : ∀ task, content (change task) = changeNode (content task)) (addr : Nat) (entries : Entries) :
    cellsOf (changeAt addr change entries) =
      (cellsOf entries).map fun cell => if cell.1 = addr then (cell.1,changeNode cell.2) else cell := by
  rw [cellsOf,cellsOf,changeAt,List.map_map,List.map_map]
  refine List.map_congr_left fun entry _ => ?_
  rw [Function.comp_apply,Function.comp_apply]
  by_cases here : entry.1 = addr
  · rw [if_pos here,if_pos here,same]
  · rw [if_neg here,if_neg here]

/-- A search that looks at what the nodes hold. -/
theorem find_cellsOf (test : DwldNode → Bool) (entries : Entries) :
    (cellsOf entries).find? (fun cell => test cell.2) =
      (entries.find? fun entry => test (content entry.2)).map fun entry => (entry.1,content entry.2) :=
  List.find?_map

theorem find_tasks (test : DwldTaskInfo → Bool) (entries : Entries) :
    (entries.map Prod.snd).find? test = (entries.find? fun entry => test entry.2).map Prod.snd := List.find?_map

/-- The node before those of `back`, with the head before the first. -/
theorem node_before (head : Nat) (front : Entries) : ∃ before pre,
    (head,DwldNode.head) :: cellsOf front = before ++ [pre] ∧ (addrs (cellsOf front)).getLastD head = pre.1 := by
  rcases List.eq_nil_or_concat' front with rfl | ⟨others,last,rfl⟩
  · exact ⟨[],_,rfl,rfl⟩
  · refine ⟨(head,.head) :: cellsOf others,(last.1,content last.2),?_,?_⟩
    · rw [cellsOf,List.map_append]
      rfl
    · rw [addrs_cellsOf,List.map_append,List.map_singleton,List.getLastD_concat]

end Entries

variable {ι : Type} {s : TaskMemory ι} {shown : TaskCopies ι} {entries : Entries}
  {own : ι → List (Cell DwldNode)} {caller : ι}

section Nodes

variable (reads : Reads s shown entries own)
include reads

theorem entry_node {entry : Nat × DwldTaskInfo} (member : entry ∈ entries) :
    ∃ next, s.memory.heap entry.1 = some ⟨content entry.2,next⟩ := by
  obtain ⟨first,_,rest⟩ := head_node reads
  have listed : (entry.1,content entry.2) ∈ cellsOf entries := List.mem_map_of_mem member
  exact seg_cell rest listed

/-- The node of a task and the number it was made with stand for each other. -/
theorem entry_same {entry : Nat × DwldTaskInfo} (member : entry ∈ entries) :
    ∀ other ∈ entries, other.1 = entry.1 ↔ other.2.node = entry.2.node := by
  intro other listed
  have nodup := (List.nodup_cons.mp (reads.owned.nodup none)).2
  rw [addrs_cellsOf] at nodup
  constructor
  · intro same
    rw [List.inj_on_of_nodup_map nodup listed member same]
  · intro same
    rw [List.inj_on_of_nodup_map reads.once listed member same]

theorem entry_task {node : Nat} : (shown.store.tasks.find? fun task => task.node = node) =
    (entries.find? fun entry => entry.2.node = node).map Prod.snd := by
  rw [reads.tasks]
  exact find_tasks _ _

theorem entry_apart {entry : Nat × DwldTaskInfo} (member : entry ∈ entries) : entry.1 ≠ s.gDwldTasksInfoListHead := by
  intro same
  have outside := (List.nodup_cons.mp (reads.owned.nodup none)).1
  rw [addrs_cellsOf,← same] at outside
  exact outside (List.mem_map_of_mem member)

variable [DecidableEq ι]

/-- One task is changed through its node; without the mutex only what the copies do not show. -/
theorem change_step {entry : Nat × DwldTaskInfo} (member : entry ∈ entries) (change : DwldTaskInfo → DwldTaskInfo)
    (changeNode : DwldNode → DwldNode) (store : DwldStore) (same : ∀ task, content (change task) = changeNode (content task))
    (keeps : ∀ task, (change task).node = task.node)
    (silent : shown.gDwldTasksMutex = none ∨ ∀ task, (change task).dwldInfo = task.dwldInfo)
    {node : Node DwldNode} (held : s.memory.heap entry.1 = some node)
    (tasks : store.tasks = shown.store.tasks.map fun task => if task.node = entry.2.node then change task else task)
    (nodes : store.nodes = shown.store.nodes) :
    Reads
      { s with
        memory := s.memory.store {node with info := changeNode node.info} entry.1
        gDwldInfofile := store.file }
      {shown with store} (changeAt entry.1 change entries) own := by
  have addrs_same : addrs (cellsOf (changeAt entry.1 change entries)) = addrs (cellsOf entries) := by
    rw [addrs_cellsOf,addrs_cellsOf,changeAt_fst]
  refine reads.task_step ?_ ?_ ?_ ?_ ?_ ?_ (Nat.le_of_eq nodes.symm) ?_
  · refine silent.imp_right fun quiet passed todo pCurNode split seg => ?_
    refine ⟨changeAt entry.1 change passed,changeAt entry.1 change todo,?_,changeAt_view quiet _ _,?_⟩
    · rw [split,changeAt,List.map_append]
      rfl
    · rw [cellsOf_changeAt same]
      exact seg_change held changeNode seg
  · rw [addrs_same]
    refine local_store reads.owned (i := none) ?_ _
    rw [owners,addrs_cellsOf]
    exact List.mem_cons_of_mem _ (List.mem_map_of_mem member)
  · have chain := seg_change held changeNode reads.chain
    rw [List.map_cons,if_neg (entry_apart reads member).symm,← cellsOf_changeAt same] at chain
    exact chain
  · rw [tasks,reads.tasks,changeAt,List.map_map,List.map_map]
    refine List.map_congr_left fun other listed => ?_
    rw [Function.comp_apply,Function.comp_apply]
    by_cases here : other.1 = entry.1
    · rw [if_pos here,if_pos ((entry_same reads member other listed).mp here)]
    · rw [if_neg here,if_neg fun equal => here ((entry_same reads member other listed).mpr equal)]
  · rw [changeAt_view keeps]
    exact reads.once
  · intro other listed
    obtain ⟨old,before,rfl⟩ := List.mem_map.mp listed
    rw [nodes]
    split
    · rw [keeps]
      exact reads.made old before
    · exact reads.made old before
  · intro other listed
    obtain ⟨old,before,rfl⟩ := List.mem_map.mp listed
    refine Or.inl ⟨old.2,?_⟩
    split
    · exact ⟨before,(keeps _).symm⟩
    · exact ⟨before,rfl⟩

/-- A new task behind the head. -/
theorem insert_step (store : DwldStore) (task : DwldTaskInfo) (free : shown.gDwldTasksMutex = none)
    (node : task.node = shown.store.nodes) (tasks : store.tasks = task :: shown.store.tasks)
    (nodes : store.nodes = shown.store.nodes+1) :
    ∃ after, s.memory.insertAfter s.gDwldTasksInfoListHead (content task) = some after ∧
      s.memory.limit < after.limit ∧
      Reads {s with memory := after, gDwldInfofile := store.file} {shown with store}
        ((s.memory.limit,task) :: entries) own := by
  obtain ⟨after,ran,chain,moved⟩ := owned_insertAfter reads.owned (i := none) rfl reads.chain (content task)
  have inside : s.memory.limit < after.limit := by
    refine moved.below _ ?_
    exact List.mem_cons_of_mem _ List.mem_cons_self
  refine ⟨after,ran,inside,reads.task_step (Or.inl free) moved chain ?_ ?_ ?_ ?_ ?_⟩
  · rw [tasks,reads.tasks]
    rfl
  · refine List.nodup_cons.mpr ⟨fun again => ?_,reads.once⟩
    obtain ⟨entry,listed,same⟩ := List.mem_map.mp again
    exact Nat.ne_of_lt (reads.made entry listed) (same.trans node)
  · intro entry listed
    rw [nodes]
    rcases List.mem_cons.mp listed with rfl | old
    · exact Nat.lt_succ_of_le (Nat.le_of_eq node)
    · exact Nat.lt_succ_of_lt (reads.made entry old)
  · rw [nodes]
    exact Nat.le_succ _
  · intro entry listed
    rcases List.mem_cons.mp listed with rfl | old
    · exact Or.inr ⟨Nat.le_refl _,Nat.le_of_eq node.symm⟩
    · exact Or.inl ⟨entry.2,old,rfl⟩

/-- What is known of getOneDwldNode, on both levels. -/
inductive GotNode (s : TaskMemory ι) (shown : TaskCopies ι) (own : ι → List (Cell DwldNode)) :
    Option (Except Int (TaskMemory ι × Nat × Int)) → Except Int (DwldStore × Nat × Int) → Prop
  | refused (code : Int) : GotNode s shown own (some (.error code)) (.error code)
  | got {after : TaskMemory ι} {store : DwldStore} {changed : Entries} {pDwldNode : Nat} {task : DwldTaskInfo}
      (offset : Int) (reads : Reads after {shown with store} changed own) (listed : (pDwldNode,task) ∈ changed)
      (places : after.places = s.places) : GotNode s shown own (some (.ok (after,pDwldNode,offset))) (.ok (store,task.node,offset))

theorem getOneDwldNode_agrees (free : shown.gDwldTasksMutex = none) (key : FileinfoKey) (filesize : Nat)
    (pLocalFilepath : Text) (malloc : Bool) :
    GotNode s shown own (s.getOneDwldNode key filesize pLocalFilepath malloc)
      (shown.store.getOneDwldNode key filesize pLocalFilepath malloc) := by
  have count : shown.store.tasks.countP (fun task => task.dwldInfo.isDwlding) =
      (cellsOf entries).countP fun cell => cell.2.dwldInfo.isDwlding := by
    rw [reads.tasks,cellsOf,List.countP_map,List.countP_map]
    rfl
  have of : shown.store.taskOf key = ((entries.filter fun entry => entry.2.key = key).getLast?).map Prod.snd := by
    rw [DwldStore.taskOf,reads.tasks,List.filter_map,List.getLast?_map]
    rfl
  have last : ((cellsOf entries).filter fun cell => cell.2.dwldInfo.fileKey = key).getLast? =
      ((entries.filter fun entry => entry.2.key = key).getLast?).map fun entry => (entry.1,content entry.2) := by
    rw [cellsOf,List.filter_map,List.getLast?_map]
    rfl
  rw [TaskMemory.getOneDwldNode,DwldStore.getOneDwldNode,nodes_cells reads,Option.bind_some,count,of,last]
  split
  · exact .refused _
  · cases found : (entries.filter fun entry => entry.2.key = key).getLast? with
    | none =>
      cases malloc with
      | false => exact .refused _
      | true =>
        let info := DwldStore.newInfo key filesize pLocalFilepath
        let task : DwldTaskInfo := ⟨info,DwldStore.firstFree shown.store.file,-1,shown.store.nodes⟩
        obtain ⟨after,ran,_,reads'⟩ := insert_step reads (shown.store.addTask key filesize pLocalFilepath) task
          free rfl rfl rfl
        change s.memory.insertAfter _ (.task info (DwldStore.firstFree shown.store.file) (-1)) = _ at ran
        simp only [Option.map_none,Bool.not_true,Bool.false_eq_true,if_false,reads.file,info] at ran ⊢
        rw [ran]
        exact .got 0 reads' List.mem_cons_self rfl
    | some entry =>
      have member : entry ∈ entries := List.mem_of_mem_filter (List.mem_of_getLast? found)
      simp only [Option.map_some]
      change GotNode s shown own (if entry.2.dwldInfo.isDwlding then _ else _) _
      split
      · exact .refused _
      · obtain ⟨next,held⟩ := entry_node reads member
        let change (task : DwldTaskInfo) : DwldTaskInfo := {task with dwldInfo := setDwlding task.dwldInfo}
        have reads' := change_step reads member change (.setInfo setDwlding) (shown.store.resumeTask entry.2)
          (fun _ => rfl) (fun _ => rfl) (Or.inl free) held rfl rfl
        have listed : (entry.1,change entry.2) ∈ changeAt entry.1 change entries :=
          List.mem_map.mpr ⟨entry,member,if_pos rfl⟩
        rw [held,reads.file]
        exact @GotNode.got _ s shown own _ _ _ _ (change entry.2) _ reads' listed rfl

end Nodes

section Calls

variable (reads : Reads s shown entries own)
include reads

/-- The node of a start is that of its task still, or it was freed with it. -/
theorem at_starting {pDwldNode : Nat} (there : s.places caller = .starting pDwldNode) :
    ∃ node, own caller = [] ∧ shown.places caller = .starting node ∧
      (s.memory.heap pDwldNode = none ∧ (shown.store.tasks.find? fun task => task.node = node) = none ∨
        ∃ task, (pDwldNode,task) ∈ entries ∧ task.node = node ∧
          (shown.store.tasks.find? fun task => task.node = node) = some task) := by
  have stands := stands_at reads there
  generalize own caller = cells,shown.places caller = shownPlace at stands
  cases stands with
  | @starting _ node given made same there =>
    refine ⟨node,rfl,rfl,?_⟩
    rw [entry_task reads]
    rcases there with gone | ⟨task,listed⟩
    · refine Or.inl ⟨gone,Option.map_eq_none_iff.mpr (List.find?_eq_none.mpr fun entry member found => ?_)⟩
      obtain ⟨next,held⟩ := entry_node reads member
      rw [(same entry member).mpr (of_decide_eq_true found),gone] at held
      cases held
    · have number := (same _ listed).mp rfl
      refine Or.inr ⟨task,listed,number,?_⟩
      cases found : entries.find? fun entry => entry.2.node = node with
      | none => exact absurd (decide_eq_true number) (List.find?_eq_none.mp found _ listed)
      | some entry =>
        have passes : entry.2.node = node := by simpa using List.find?_some found
        have member := List.mem_of_find?_eq_some found
        have first := (entry_same reads listed entry member).mpr (passes.trans number.symm)
        have nodup := (List.nodup_cons.mp (reads.owned.nodup none)).2
        rw [addrs_cellsOf] at nodup
        rw [List.inj_on_of_nodup_map nodup member listed first]
        rfl

variable [DecidableEq ι]

theorem startDownloadFile_agrees (caller : ι) (key : FileinfoKey) (filesize : Nat) (pLocalFilepath : Text) (malloc : Bool) :
    Agree Shows (taskMemory s (.startDownloadFile caller key filesize pLocalFilepath malloc))
      (taskCopies shown (.startDownloadFile caller key filesize pLocalFilepath malloc)) := by
  have idle := idle_iff reads caller
  rw [taskMemory,taskCopies,reads.mutex]
  split
  · rename_i there free
    rw [idle.mpr there,free]
    have got := getOneDwldNode_agrees reads free key filesize pLocalFilepath malloc
    dsimp only
    generalize s.getOneDwldNode key filesize pLocalFilepath malloc = one,
      shown.store.getOneDwldNode key filesize pLocalFilepath malloc = two at got
    cases got with
    | refused code => exact .right ⟨entries,own,reads⟩
    | @got after store changed pDwldNode task offset reads' listed places =>
      rw [free] at reads'
      obtain ⟨mine,_⟩ := at_idle reads there
      have inside : pDwldNode ∈ owners after.gDwldTasksInfoListHead changed own none := by
        rw [owners,addrs_cellsOf]
        exact List.mem_cons_of_mem _ (List.mem_map_of_mem listed)
      have stands : Stands after.memory changed store.nodes (own caller) (.starting pDwldNode) (.starting task.node) := by
        rw [mine]
        exact .starting (reads'.owned.below inside) (reads'.made _ listed) (entry_same reads' listed) (Or.inr ⟨task,listed⟩)
      exact .right (reads'.move_step (own_local reads' caller) stands False.elim)
  · rename_i busy
    split
    · rename_i here free
      exact absurd free (busy (idle.mp here))
    · exact .right ⟨entries,own,reads⟩

theorem idle_agrees (mine : own caller = []) :
    Shows (s.move caller .idle) (shown.move caller .idle) := by
  refine reads.move_step (own_local reads caller) ?_ False.elim
  rw [mine]
  exact .idle

theorem cliDataStartDwld_agrees (caller : ι) (fileId : Option Int) :
    Agree Shows (taskMemory s (.cliDataStartDwld caller fileId)) (taskCopies shown (.cliDataStartDwld caller fileId)) := by
  rw [taskMemory,taskCopies]
  cases there : s.places caller with
  | starting pDwldNode =>
    obtain ⟨node,mine,shows,state⟩ := at_starting reads there
    rw [shows]
    cases fileId with
    | none => exact .right (idle_agrees reads mine)
    | some fileId =>
      dsimp only
      rcases state with ⟨gone,absent⟩ | ⟨task,listed,number,found⟩
      · rw [gone,absent]
        exact .wrong
      · obtain ⟨next,held⟩ := entry_node reads listed
        rw [found,held]
        have reads' := change_step reads listed (fun task => {task with fileId}) (.setFileId fileId)
          (shown.store.setFileId node fileId) (fun _ => rfl) (fun _ => rfl) (Or.inr fun _ => rfl) held (number ▸ rfl) rfl
        have file : s.gDwldInfofile = (shown.store.setFileId node fileId).file := reads.file
        rw [← file] at reads'
        exact .right ⟨_,own,reads'⟩
  | _ =>
    have stands := stands_at reads there
    generalize own caller = cells,shows : shown.places caller = shownPlace at stands
    cases stands
    exact .right ⟨entries,_,reads⟩

theorem readFileId_agrees (caller : ι) (returns : Bool) :
    Agree Shows (taskMemory s (.readFileId caller returns)) (taskCopies shown (.readFileId caller returns)) := by
  rw [taskMemory,taskCopies]
  cases there : s.places caller with
  | starting pDwldNode =>
    obtain ⟨node,mine,shows,⟨gone,absent⟩ | ⟨task,listed,number,found⟩⟩ := at_starting reads there
    · rw [shows]
      dsimp only
      rw [gone,absent]
      exact .wrong
    · obtain ⟨next,held⟩ := entry_node reads listed
      rw [shows]
      dsimp only
      rw [found,held]
      cases returns with
      | false => exact .right ⟨entries,own,reads⟩
      | true => exact .right (idle_agrees reads mine)
  | _ =>
    have stands := stands_at reads there
    generalize own caller = cells,shows : shown.places caller = shownPlace at stands
    cases stands
    exact .right ⟨entries,_,reads⟩

theorem setDwldProgress_agrees (fileId unitId : Int) (isEof : Bool) :
    Agree Shows (taskMemory s (.setDwldProgress fileId unitId isEof))
      (taskCopies shown (.setDwldProgress fileId unitId isEof)) := by
  rw [taskMemory,taskCopies,reads.mutex]
  cases free : shown.gDwldTasksMutex with
  | some other => exact .right ⟨entries,own,reads⟩
  | none =>
    have search : (cellsOf entries).find? (fun cell => cell.2.fileId = fileId) =
        (entries.find? fun entry => entry.2.fileId = fileId).map fun entry => (entry.1,content entry.2) :=
      find_cellsOf (fun node => node.fileId = fileId) entries
    have shownSearch := find_tasks (fun task => task.fileId = fileId) entries
    rw [← reads.tasks] at shownSearch
    dsimp only
    rw [TaskMemory.setDwldProgress,DwldStore.setDwldProgress,nodes_cells reads,Option.bind_some,search,shownSearch]
    cases found : entries.find? fun entry => entry.2.fileId = fileId with
    | none =>
      rw [← free]
      exact .right ⟨entries,own,reads⟩
    | some entry =>
      have member := List.mem_of_find?_eq_some found
      obtain ⟨next,held⟩ := entry_node reads member
      simp only [Option.map_some]
      change Agree Shows (Option.map _ (if (!entry.2.dwldInfo.isDwlding) = true then _ else _)) _
      split
      · rw [← free]
        exact .right ⟨entries,own,reads⟩
      · let change (task : DwldTaskInfo) : DwldTaskInfo := {task with dwldInfo := setUnitId unitId task.dwldInfo}
        let store : DwldStore := {shown.store with
          tasks := shown.store.tasks.map fun task => if task.node = entry.2.node then change task else task
          file := writeUnit shown.store.file entry.2.offset
            (DwldStore.marked (!isEof) (setUnitId unitId entry.2.dwldInfo))}
        have reads' := change_step reads member change (.setInfo (setUnitId unitId)) store (fun _ => rfl) (fun _ => rfl)
          (Or.inl free) held rfl rfl
        rw [held,reads.file]
        rw [free] at reads'
        exact .right ⟨_,own,reads'⟩

theorem delete_step (free : shown.gDwldTasksMutex = none) {front back : Entries}
    {entry : Nat × DwldTaskInfo} (split : entries = front ++ entry :: back) (store : DwldStore)
    (tasks : store.tasks = (front ++ back).map Prod.snd) (nodes : store.nodes = shown.store.nodes) :
    ∃ after next, s.memory.unlink ((addrs (cellsOf front)).getLastD s.gDwldTasksInfoListHead) entry.1 = some (after,next) ∧
      Reads {s with memory := after, gDwldInfofile := store.file} {shown with store} (front ++ back) own := by
  obtain ⟨before,pre,order,last⟩ := node_before s.gDwldTasksInfoListHead front
  have whole : (s.gDwldTasksInfoListHead,DwldNode.head) :: cellsOf entries =
      before ++ pre :: (entry.1,content entry.2) :: cellsOf back := by
    rw [split,cellsOf,List.map_append,List.append_cons,← order]
    rfl
  have others : (s.gDwldTasksInfoListHead,DwldNode.head) :: cellsOf (front ++ back) = before ++ pre :: cellsOf back := by
    rw [cellsOf,List.map_append,List.append_cons,← order]
    rfl
  have chain := reads.chain
  rw [whole] at chain
  obtain ⟨after,next,ran,first,rest,moved⟩ := owned_unlink reads.owned (i := none) (congrArg addrs whole) chain
  rw [last]
  refine ⟨after,next,ran,?_⟩
  rw [← others] at moved
  have kept : ∀ other ∈ front ++ back, other ∈ entries := by
    intro other member
    rw [split]
    rcases List.mem_append.mp member with left | right
    · exact List.mem_append_left _ left
    · exact List.mem_append_right _ (List.mem_cons_of_mem _ right)
  refine reads.task_step (Or.inl free) moved ?_ tasks ?_ ?_ (Nat.le_of_eq nodes.symm) ?_
  · rw [others,List.append_cons]
    exact seg_append.mpr ⟨next,first,rest⟩
  · have sublist : (front ++ back).Sublist entries := by
      rw [split]
      exact (List.Sublist.refl _).append (List.sublist_cons_self _ _)
    exact reads.once.sublist (sublist.map _)
  · intro other member
    rw [nodes]
    exact reads.made other (kept other member)
  · exact fun other member => Or.inl ⟨other.2,kept other member,rfl⟩

theorem delDwldNode_agrees (key : FileinfoKey) :
    Agree Shows (taskMemory s (.delDwldNode key)) (taskCopies shown (.delDwldNode key)) := by
  rw [taskMemory,taskCopies,reads.mutex]
  cases free : shown.gDwldTasksMutex with
  | some other => exact .right ⟨entries,own,reads⟩
  | none =>
    have search : (cellsOf entries).find? (fun cell => cell.2.dwldInfo.fileKey = key) =
        (entries.find? fun entry => entry.2.key = key).map fun entry => (entry.1,content entry.2) :=
      find_cellsOf (fun node => node.dwldInfo.fileKey = key) entries
    have shownSearch := find_tasks (fun task => task.key = key) entries
    rw [← reads.tasks] at shownSearch
    dsimp only
    rw [TaskMemory.delDwldNode,DwldStore.delDwldNode,nodes_cells reads,Option.bind_some,search,shownSearch]
    cases found : entries.find? fun entry => entry.2.key = key with
    | none =>
      rw [← free]
      exact .right ⟨entries,own,reads⟩
    | some entry =>
      obtain ⟨passes,front,back,split,others⟩ := List.find?_eq_some_iff_append.mp found
      have hit : entry.2.dwldInfo.fileKey = key := by simpa using passes
      have missed : ∀ other ∈ front, other.2.dwldInfo.fileKey ≠ key := fun other member => by
        simpa using others other member
      have before : (cellsOf entries).takeWhile (fun cell => !(cell.2.dwldInfo.fileKey = key)) = cellsOf front := by
        rw [split,cellsOf,List.map_append,List.takeWhile_append_of_pos,List.map_cons,List.takeWhile_cons_of_neg]
        · exact List.append_nil _
        · simp [content,DwldNode.dwldInfo,hit]
        · intro cell member
          obtain ⟨other,listed,rfl⟩ := List.mem_map.mp member
          simp [content,DwldNode.dwldInfo,missed other listed]
      have erased : shown.store.tasks.eraseP (fun task => task.key = key) = (front ++ back).map Prod.snd := by
        rw [reads.tasks,split,List.map_append,List.map_append,List.eraseP_append_right,List.map_cons,
          List.eraseP_cons_of_pos]
        · exact decide_eq_true hit
        · intro task member
          obtain ⟨other,listed,rfl⟩ := List.mem_map.mp member
          simp [missed other listed]
      let unit := readUnit shown.store.file entry.2.offset
      let store : DwldStore := {shown.store with
        tasks := shown.store.tasks.eraseP fun task => task.key = key
        file := writeUnit shown.store.file entry.2.offset
          { unit with
            isUsing := false
            dwldInfo := {unit.dwldInfo with isDwlding := false}
            checkSum := checksumStubValue }}
      obtain ⟨after,next,ran,reads'⟩ := delete_step reads free split store erased rfl
      simp only [Option.map_some,before]
      rw [ran,reads.file]
      rw [free] at reads'
      exact .right ⟨_,own,reads'⟩

end Calls

section Start

variable (ι) in
/-- A state with these tasks, and no caller in a call. -/
def quietMemory (memory : Memory DwldNode) (gDwldInfofile : DwldInfoFile) : TaskMemory ι where
  memory := memory
  gDwldTasksInfoListHead := 0
  gDwldInfofile := gDwldInfofile
  gDwldTasksMutex := none
  places := fun _ => .idle

variable (ι) in
def quietCopies (store : DwldStore) : TaskCopies ι := ⟨store,none,fun _ => .idle⟩

theorem empty_reads : Reads (quietMemory ι emptyTasks []) (quietCopies ι {}) [] fun _ => [] where
  tasks := rfl
  chain := ⟨rfl,none,rfl,rfl⟩
  owned := by
    constructor
    · intro addr
      constructor
      · intro there
        by_cases first : addr = 0
        · exact ⟨none,first ▸ List.mem_cons_self⟩
        · exact absurd (Memory.malloc_other first) there
      · intro ⟨owner,member⟩
        cases owner with
        | none =>
          rw [List.mem_singleton.mp member]
          exact Option.some_ne_none _
        | some caller => cases member
    · intro owner
      cases owner with
      | none => exact List.nodup_singleton 0
      | some caller => exact List.nodup_nil
    · intro owner other addr first second
      cases owner with
      | some caller => cases first
      | none => cases other with
        | some caller => cases second
        | none => rfl
    · intro owner addr member
      cases owner with
      | none =>
        rw [List.mem_singleton.mp member]
        exact Nat.zero_lt_one
      | some caller => cases member
  once := List.nodup_nil
  made := nofun
  file := rfl
  mutex := rfl
  locked _ := False.elim
  stands _ := .idle

variable [DecidableEq ι]

/-- The list is filled as the records of the file are read. -/
theorem restoreNodes_shows (units : DwldInfoFile) {offset : Nat} {memory : Memory DwldNode} {store : DwldStore}
    {entries : Entries} {own : ι → List (Cell DwldNode)}
    (reads : Reads (quietMemory ι memory store.file) (quietCopies ι store) entries own) :
    ∃ after file, restoreNodes 0 units offset (memory,store.file) = some (after,file) ∧
      Shows (quietMemory ι after file) (quietCopies ι (DwldStore.restore units offset store)) := by
  induction units generalizing offset memory store entries with
  | nil => exact ⟨memory,store.file,rfl,entries,own,reads⟩
  | cons unit units ih =>
    rw [restoreNodes,DwldStore.restore]
    by_cases used : unit.isUsing = true
    · rw [if_pos used,if_pos used]
      let dwldInfo : DwldInfo := {unit.dwldInfo with isDwlding := false}
      let store' : DwldStore :=
        { tasks := ⟨dwldInfo,offset,-1,store.nodes⟩ :: store.tasks
          file := store.file ++ [{unit with dwldInfo}]
          nodes := store.nodes+1 }
      obtain ⟨after,ran,_,reads'⟩ := insert_step reads store' ⟨dwldInfo,offset,-1,store.nodes⟩ rfl rfl rfl rfl
      change memory.insertAfter 0 (.task dwldInfo offset (-1)) = some after at ran
      dsimp only [dwldInfo] at ran ⊢
      rw [ran]
      exact @ih (offset+1) after store' _ reads'
    · rw [if_neg used,if_neg used]
      let store' : DwldStore := {store with file := store.file ++ [unit]}
      have reads' : Reads (quietMemory ι memory store'.file) (quietCopies ι store') entries own :=
        ⟨reads.tasks,reads.chain,reads.owned,reads.once,reads.made,rfl,rfl,reads.locked,reads.stands⟩
      exact @ih (offset+1) memory store' _ reads'

theorem init_shows (file : DwldInfoFile) (leftover : Bool) :
    ∃ s, initTaskMemory ι file leftover = some s ∧ Shows s (initTaskCopies ι file leftover) := by
  rw [initTaskMemory,initTaskCopies,DwldStore.initDwldTasksInfo]
  split
  · obtain ⟨memory,written,ran,shows⟩ := @restoreNodes_shows ι _ file 0 _ {} _ _ empty_reads
    rw [ran]
    exact ⟨_,rfl,shows⟩
  · exact ⟨_,rfl,[],_,empty_reads⟩

end Start

theorem dwldTasks_simulates [DecidableEq ι] : Simulates (@taskMemory ι _) taskCopies Shows := by
  rintro s shown call ⟨entries,own,reads⟩
  cases call with
  | startDownloadFile caller key filesize pLocalFilepath malloc =>
    exact startDownloadFile_agrees reads caller key filesize pLocalFilepath malloc
  | cliDataStartDwld caller fileId => exact cliDataStartDwld_agrees reads caller fileId
  | readFileId caller returns => exact readFileId_agrees reads caller returns
  | delDwldNode key => exact delDwldNode_agrees reads key
  | setDwldProgress fileId unitId isEof => exact setDwldProgress_agrees reads fileId unitId isEof
  | getDwldTasks caller dwldingOnly => exact getDwldTasks_agrees reads caller dwldingOnly
  | pass caller malloc => exact pass_agrees reads caller malloc
  | readTasks caller => exact readTasks_agrees reads caller
  | freeDwldTasks caller => exact freeDwldTasks_agrees reads caller

end MoCodes.MoCloud.Client
