import MoCodes.MoCloud.Client.DwldTasks
import MoCodes.MoCloud.DwldRequest

/-! A download that is started again after the client was started again: the unit in the
dwldInfo file, the offset that is asked for, and the units that the server sends of a file
that does not change. -/
namespace MoCodes.MoCloud.Resume
open Lib.Transition Client Client.DwldTasks Server Server.SendFile

section Waiting

variable {key other : FileinfoKey} {u : Nat} {tasks : List DwldTaskInfo} {nodes node : Nat}

/-- The used records of the key, and there is one, all tell the unit. -/
structure Interrupted (file : DwldInfoFile) (key : FileinfoKey) (u : Nat) : Prop where
  recorded : ∃ unit ∈ file, unit.isUsing = true ∧ unit.key = key
  unitId : ∀ unit ∈ file, unit.isUsing = true → unit.key = key → unit.dwldInfo.unitId = u

instance (file : DwldInfoFile) (key : FileinfoKey) (u : Nat) : Decidable (Interrupted file key u) :=
  decidable_of_iff (_ ∧ _) ⟨fun both => ⟨both.1,both.2⟩,fun whole => ⟨whole.recorded,whole.unitId⟩⟩

/-- The tasks of the key as they were read from the file. -/
structure Waiting (key : FileinfoKey) (u : Nat) (tasks : List DwldTaskInfo) (nodes : Nat) : Prop where
  fresh : ∀ task ∈ tasks, task.node < nodes
  apart : ∀ task ∈ tasks, ∀ other ∈ tasks, other.node = task.node → other.key = task.key
  unstarted : ∀ task ∈ tasks, task.key = key → task.fileId = -1 ∧ task.dwldInfo.unitId = u

/-- The node of another file, which may be freed already. -/
def Foreign (key : FileinfoKey) (tasks : List DwldTaskInfo) (nodes node : Nat) : Prop :=
  node < nodes ∧ ∀ task ∈ tasks, task.key = key → task.node ≠ node

theorem waiting_add {task : DwldTaskInfo} (before : Waiting key u tasks nodes) (new : task.node = nodes)
    (unstarted : task.key = key → task.fileId = -1 ∧ task.dwldInfo.unitId = u) :
    Waiting key u (task :: tasks) (nodes+1) := by
  refine ⟨fun other member => ?_,fun one among other member same => ?_,fun other member => ?_⟩
  · rcases List.mem_cons.mp member with rfl | member
    · omega
    · exact Nat.lt_succ_of_lt (before.fresh other member)
  · rcases List.mem_cons.mp among with rfl | early <;> rcases List.mem_cons.mp member with rfl | late
    · rfl
    · have less := before.fresh other late
      omega
    · have less := before.fresh one early
      omega
    · exact before.apart one early other late same
  · rcases List.mem_cons.mp member with rfl | member
    · exact unstarted
    · exact before.unstarted other member

theorem waiting_map {f : DwldTaskInfo → DwldTaskInfo} (before : Waiting key u tasks nodes)
    (same : ∀ task ∈ tasks, (f task).node = task.node ∧ (f task).key = task.key)
    (left : ∀ task ∈ tasks, task.key = key →
      (f task).fileId = task.fileId ∧ (f task).dwldInfo.unitId = task.dwldInfo.unitId) :
    Waiting key u (tasks.map f) nodes := by
  refine ⟨fun task member => ?_,fun one among other member equal => ?_,fun task member ofKey => ?_⟩
  · obtain ⟨old,listed,rfl⟩ := List.mem_map.mp member
    rw [(same old listed).1]
    exact before.fresh old listed
  · obtain ⟨one,listedOne,rfl⟩ := List.mem_map.mp among
    obtain ⟨other,listed,rfl⟩ := List.mem_map.mp member
    rw [(same one listedOne).1,(same other listed).1] at equal
    rw [(same one listedOne).2,(same other listed).2]
    exact before.apart one listedOne other listed equal
  · obtain ⟨old,listed,rfl⟩ := List.mem_map.mp member
    rw [(same old listed).2] at ofKey
    rw [(left old listed ofKey).1,(left old listed ofKey).2]
    exact before.unstarted old listed ofKey

theorem waiting_sublist {fewer : List DwldTaskInfo} (before : Waiting key u tasks nodes) (sub : fewer.Sublist tasks) :
    Waiting key u fewer nodes where
  fresh := fun task member => before.fresh task (sub.subset member)
  apart := fun one among other member => before.apart one (sub.subset among) other (sub.subset member)
  unstarted := fun task member => before.unstarted task (sub.subset member)

theorem foreign_map {f : DwldTaskInfo → DwldTaskInfo} (foreign : Foreign key tasks nodes node)
    (same : ∀ task ∈ tasks, (f task).node = task.node ∧ (f task).key = task.key) :
    Foreign key (tasks.map f) nodes node := by
  refine ⟨foreign.1,fun task member ofKey => ?_⟩
  obtain ⟨old,listed,rfl⟩ := List.mem_map.mp member
  rw [(same old listed).2] at ofKey
  rw [(same old listed).1]
  exact foreign.2 old listed ofKey

theorem restore_waiting {store : DwldStore} {units : DwldInfoFile} {offset : Nat}
    (before : Waiting key u store.tasks store.nodes)
    (unitId : ∀ unit ∈ units, unit.isUsing = true → unit.key = key → unit.dwldInfo.unitId = u) :
    Waiting key u (DwldStore.restore units offset store).tasks (DwldStore.restore units offset store).nodes := by
  induction units generalizing store offset with
  | nil => exact before
  | cons unit units ih =>
    have later : ∀ unit ∈ units, unit.isUsing = true → unit.key = key → unit.dwldInfo.unitId = u :=
      fun unit member => unitId unit (List.mem_cons_of_mem _ member)
    rw [DwldStore.restore]
    split_ifs with used
    · exact ih (waiting_add before rfl fun ofKey => ⟨rfl,unitId unit List.mem_cons_self used ofKey⟩) later
    · exact ih before later

theorem initDwldTasksInfo_waiting {file : DwldInfoFile} {leftover : Bool} (interrupted : Interrupted file key u) :
    Waiting key u (DwldStore.initDwldTasksInfo file leftover).tasks (DwldStore.initDwldTasksInfo file leftover).nodes := by
  have empty : Waiting key u [] 0 :=
    ⟨fun _ member => absurd member List.not_mem_nil,fun _ member => absurd member List.not_mem_nil,
      fun _ member => absurd member List.not_mem_nil⟩
  rw [DwldStore.initDwldTasksInfo]
  split
  · exact restore_waiting empty interrupted.unitId
  · exact empty

variable {store after : DwldStore} {filesize : Nat} {pLocalFilepath : Text} {malloc : Bool} {startOffset : Int}

theorem taskOf_key {task : DwldTaskInfo} (found : store.taskOf key = some task) : task.key = key :=
  of_decide_eq_true (List.mem_filter.mp (List.mem_of_getLast? found)).2

theorem getOneDwldNode_offset (waiting : Waiting key u store.tasks store.nodes)
    (got : store.getOneDwldNode key filesize pLocalFilepath malloc = .ok (after,node,startOffset)) :
    startOffset = 0 ∨ startOffset = toInt (u*DwldStore.sizeofDataUnitLen) := by
  rw [DwldStore.getOneDwldNode] at got
  obtain ⟨_,got⟩ | ⟨_,got⟩ := ite_eq_iff.mp got
  · cases got
  split at got
  · obtain ⟨_,got⟩ | ⟨_,got⟩ := ite_eq_iff.mp got
    · cases got
    cases got
    exact Or.inl rfl
  · rename_i task found
    obtain ⟨_,got⟩ | ⟨_,got⟩ := ite_eq_iff.mp got
    · cases got
    cases got
    rw [(waiting.unstarted task (taskOf_mem found) (taskOf_key found)).2]
    exact Or.inr rfl

theorem getOneDwldNode_other (waiting : Waiting key u store.tasks store.nodes) (different : other ≠ key)
    (got : store.getOneDwldNode other filesize pLocalFilepath malloc = .ok (after,node,startOffset)) :
    Waiting key u after.tasks after.nodes ∧ Foreign key after.tasks after.nodes node ∧
      ∀ place, Foreign key store.tasks store.nodes place → Foreign key after.tasks after.nodes place := by
  rw [DwldStore.getOneDwldNode] at got
  obtain ⟨_,got⟩ | ⟨_,got⟩ := ite_eq_iff.mp got
  · cases got
  split at got
  · obtain ⟨_,got⟩ | ⟨_,got⟩ := ite_eq_iff.mp got
    · cases got
    cases got
    refine ⟨waiting_add waiting rfl fun ofKey => absurd ofKey different,⟨Nat.lt_succ_self _,fun task member ofKey => ?_⟩,
      fun place foreign => ⟨Nat.lt_succ_of_lt foreign.1,fun task member ofKey => ?_⟩⟩
    · rcases List.mem_cons.mp member with rfl | member
      · exact absurd ofKey different
      · exact Nat.ne_of_lt (waiting.fresh task member)
    · rcases List.mem_cons.mp member with rfl | member
      · exact absurd ofKey different
      · exact foreign.2 task member ofKey
  · rename_i task found
    obtain ⟨_,got⟩ | ⟨_,got⟩ := ite_eq_iff.mp got
    · cases got
    cases got
    have listed := taskOf_mem found
    have same : ∀ one ∈ store.tasks,
        (if one.node = task.node then { one with dwldInfo := { one.dwldInfo with isDwlding := true } } else one).node =
          one.node ∧
        (if one.node = task.node then { one with dwldInfo := { one.dwldInfo with isDwlding := true } } else one).key =
          one.key := by
      intro one _
      split <;> exact ⟨rfl,rfl⟩
    refine ⟨waiting_map waiting same fun one _ _ => by split <;> exact ⟨rfl,rfl⟩,?_,fun place foreign => foreign_map foreign same⟩
    refine foreign_map ⟨waiting.fresh task listed,fun one member ofKey equal => different ?_⟩ same
    rw [← taskOf_key found,← ofKey]
    exact (waiting.apart one member task listed equal.symm)

end Waiting

section Runs

variable {n : Nat} {key : FileinfoKey} {u : Nat} {state : State n} {caller : Fin n} {event : Event n}

/-- The download of the key is not started, and what is told of progress comes from a slot. -/
def Others (key : FileinfoKey) (_ : State n) : Event n → Prop
  | .startDownloadFile _ other .. => other ≠ key
  | .setDwldProgress _ fileId .. => 0 ≤ fileId
  | _ => True

structure Unstarted (key : FileinfoKey) (u : Nat) (state : State n) : Prop where
  waiting : Waiting key u state.store.tasks state.store.nodes
  started : ∀ caller node other, state.calls caller = some (.startData node other) →
    Foreign key state.store.tasks state.store.nodes node

theorem unstarted_move {store : DwldStore} {target : Option DwldTasks.Place} (before : Unstarted key u state)
    (waiting : Waiting key u store.tasks store.nodes)
    (kept : ∀ node, Foreign key state.store.tasks state.store.nodes node → Foreign key store.tasks store.nodes node)
    (new : ∀ node other, target = some (.startData node other) → Foreign key store.tasks store.nodes node) :
    Unstarted key u ({ state with store := store }.move caller target) := by
  refine ⟨waiting,fun one node other there => ?_⟩
  by_cases same : one = caller
  · subst same
    rw [move_here] at there
    exact new node other there
  · rw [move_other same] at there
    exact kept node (before.started one node other there)

/-- Only the place of one caller changes. -/
theorem unstarted_goes {target : Option DwldTasks.Place} (before : Unstarted key u state)
    (new : ∀ node other, target ≠ some (.startData node other)) : Unstarted key u (state.move caller target) :=
  unstarted_move before before.waiting (fun _ => id) fun node other same => absurd same (new node other)

theorem stop_unstarted {other : FileinfoKey} (before : Unstarted key u state) : Unstarted key u (state.stop caller other) := by
  rw [State.stop]
  split <;> exact unstarted_goes before (by simp)

theorem delete_unstarted {other : FileinfoKey} (before : Unstarted key u state) :
    Unstarted key u (state.delete caller other) := by
  have fewer : (state.store.delDwldNode other).2.tasks.Sublist state.store.tasks ∧
      (state.store.delDwldNode other).2.nodes = state.store.nodes := by
    rw [DwldStore.delDwldNode]
    split
    · exact ⟨List.Sublist.refl _,rfl⟩
    · exact ⟨List.eraseP_sublist,rfl⟩
  refine unstarted_move before ?_ (fun node foreign => ?_) (by simp)
  · rw [fewer.2]
    exact waiting_sublist before.waiting fewer.1
  · rw [fewer.2]
    exact ⟨foreign.1,fun task member => foreign.2 task (fewer.1.subset member)⟩

theorem step_unstarted (before : Unstarted key u state) (others : Others key state event) :
    Unstarted key u (state.next event) := by
  cases event with
  | startDownloadFile caller other filesize pLocalFilepath malloc =>
    rw [State.next]
    split
    · exact before
    · rename_i store node startOffset got
      obtain ⟨waiting,foreign,kept⟩ := getOneDwldNode_other before.waiting others got
      refine unstarted_move before waiting kept fun one other same => ?_
      obtain ⟨rfl,_⟩ := DwldTasks.Place.startData.inj (Option.some.inj same)
      exact foreign
  | cliDataStartDwld caller fileId =>
    unfold State.next
    dsimp only
    split
    · exact unstarted_goes before (by simp)
    · rename_i node other fileId here
      have foreign := before.started caller node other here
      have same : ∀ task ∈ state.store.tasks, (if task.node = node then { task with fileId := fileId } else task).node =
          task.node ∧ (if task.node = node then { task with fileId := fileId } else task).key = task.key := by
        intro task _
        split <;> exact ⟨rfl,rfl⟩
      refine unstarted_move before (waiting_map before.waiting same fun task member ofKey => ?_)
        (fun place foreign => foreign_map foreign same) (by simp)
      rw [if_neg (foreign.2 task member ofKey)]
      exact ⟨rfl,rfl⟩
    · exact before
  | doStartDwld caller done =>
    rw [State.next]
    split
    · refine unstarted_goes before fun node other same => ?_
      split at same <;> cases same
    · exact before
  | stopDownloadFile caller other => exact stop_unstarted before
  | setDwldProgress caller fileId unitId isEof =>
    have told : Waiting key u (state.store.setDwldProgress fileId unitId isEof).1.tasks
        (state.store.setDwldProgress fileId unitId isEof).1.nodes ∧
        ∀ node, Foreign key state.store.tasks state.store.nodes node →
          Foreign key (state.store.setDwldProgress fileId unitId isEof).1.tasks
            (state.store.setDwldProgress fileId unitId isEof).1.nodes node := by
      rw [DwldStore.setDwldProgress]
      split
      · exact ⟨before.waiting,fun _ => id⟩
      · rename_i task found
        have listed : task ∈ state.store.tasks := List.mem_of_find?_eq_some found
        have slot : task.fileId = fileId := of_decide_eq_true (List.find?_some found :)
        split
        · exact ⟨before.waiting,fun _ => id⟩
        · have same : ∀ one ∈ state.store.tasks,
              (if one.node = task.node then { one with dwldInfo := { one.dwldInfo with unitId := unitId } } else one).node =
                one.node ∧
              (if one.node = task.node then { one with dwldInfo := { one.dwldInfo with unitId := unitId } } else one).key =
                one.key := by
            intro one _
            split <;> exact ⟨rfl,rfl⟩
          refine ⟨waiting_map before.waiting same fun one member ofKey => ?_,fun node foreign => foreign_map foreign same⟩
          -- the task that was told of has a slot
          have other : one.node ≠ task.node := by
            intro equal
            have keys := before.waiting.apart one member task listed equal.symm
            have unstarted := (before.waiting.unstarted task listed (keys.trans ofKey)).1
            have slotted : 0 ≤ fileId := others
            omega
          rw [if_neg other]
          exact ⟨rfl,rfl⟩
    refine unstarted_move before told.1 told.2 fun node other same => ?_
    split at same
    · obtain ⟨_,_,same⟩ := Option.map_eq_some_iff.mp same
      cases same
    · cases same
  | stopAtEof caller =>
    rw [State.next]
    split
    · exact stop_unstarted before
    · exact before
  | delDwldNode caller =>
    rw [State.next]
    split
    · exact delete_unstarted before
    · exact delete_unstarted before
    · exact before

theorem run_unstarted {file : DwldInfoFile} {leftover : Bool} (interrupted : Interrupted file key u)
    (run : (system n).Run (Others key) (start n file leftover) state) : Unstarted key u state := by
  refine run_invariant ?_ (fun before _ others => step_unstarted before others) run
  exact ⟨initDwldTasksInfo_waiting interrupted,fun _ _ _ none => by cases none⟩

end Runs

section Resuming

variable {n : Nat} {state : State n} {key : FileinfoKey} {u : Nat} {startOffset fileId mDataSockId fd : Int}
  {serverFile : List UInt8} {asked : CliState}

/-- The client asks for the offset of unit `u`, and the thread that the server starts for what
it reads in the request sends the units from `u` on and the end behind them. -/
structure Resumes (serverFile : List UInt8) (key : FileinfoKey) (u : Nat) (startOffset fileId mDataSockId fd : Int)
    (asked : CliState) : Prop where
  offset : startOffset = u*dataUnitLen
  served : ∃ info, getDwldReqInfo (some (dwldTaskInfo key startOffset fileId)) = some (.ok info) ∧ info.key = key ∧
    Serves serverFile (newCliData mDataSockId info fd true asked) (writesFrom serverFile info.fileId u)

variable (socket : 0 ≤ mDataSockId) (handle : 0 ≤ fd)
include socket handle

theorem serves_whole {number : Int} : Serves serverFile (newCliData mDataSockId ⟨key,0,number⟩ fd true asked)
    (writesFrom (reached serverFile) number 0) := by
  have first : toInt ((toSize 0/dataUnitLen : Nat) : Int) = (0 : Nat) := by decide
  have unit : (newCliData mDataSockId ⟨key,0,number⟩ fd true asked).unitId = (0 : Nat) := by
    unfold newCliData
    dsimp only
    rw [first]
  refine serves_from ⟨⟨rfl,handle⟩,socket,rfl,unit⟩ rfl ?_
  rw [Nat.zero_mul]
  exact Nat.zero_le _

variable (name : IsName key.filename) (filetype : IsInt key.filetype) (id : IsInt fileId)
include name filetype id

theorem resumes_start : Resumes serverFile key 0 0 fileId mDataSockId fd asked ↔
    ¬ text ", startOffset=" <:+: key.filename ∧ serverFile.length ≤ 2^31 := by
  have zero : IsInt 0 := by decide
  constructor
  · rintro ⟨_,info,read,same,serves⟩
    have plain : ¬ text ", startOffset=" <:+: key.filename := fun within =>
      misread name filetype zero id within read (congrArg FileinfoKey.filename same)
    obtain ⟨number,whole⟩ := read_dwldTaskInfo name filetype zero id plain
    rw [whole] at read
    obtain rfl := Except.ok.inj (Option.some.inj read)
    exact ⟨plain,writesFrom_reached.mp (serves_unique (serves_whole socket handle) serves)⟩
  · rintro ⟨plain,size⟩
    obtain ⟨number,whole⟩ := read_dwldTaskInfo name filetype zero id plain
    have serves : Serves serverFile (newCliData mDataSockId ⟨key,0,number⟩ fd true asked)
        (writesFrom (reached serverFile) number 0) := serves_whole socket handle
    rw [reached_all size] at serves
    exact ⟨rfl,⟨key,0,number⟩,whole,rfl,serves⟩

variable {file : DwldInfoFile} {leftover malloc : Bool} {after : DwldStore} {filesize node : Nat} {pLocalFilepath : Text}

/-- The offset is that of the unit only for the first unit, since it is counted in the size of
an `int` instead of the length of a unit. -/
theorem resumes_iff (interrupted : Interrupted file key u) (u_int : IsInt u)
    (run : (system n).Run (Others key) (start n file leftover) state)
    (got : state.store.getOneDwldNode key filesize pLocalFilepath malloc = .ok (after,node,startOffset)) :
    Resumes serverFile key u startOffset fileId mDataSockId fd asked ↔
      u = 0 ∧ ¬ text ", startOffset=" <:+: key.filename ∧ serverFile.length ≤ 2^31 := by
  have asks := getOneDwldNode_offset (run_unstarted interrupted run).waiting got
  by_cases first : u = 0
  · subst first
    obtain rfl : startOffset = 0 := by
      rcases asks with asks | asks
      · exact asks
      · exact asks
    rw [resumes_start socket handle name filetype id]
    simp
  · refine iff_of_false (fun resumes => first ?_) fun both => first both.1
    have offset := resumes.offset
    rcases asks with asks | asks
    · rw [asks] at offset
      unfold dataUnitLen at offset
      omega
    · have low := Int.bmod_lt (x := u*4) (m := 2^32) (by decide)
      have wraps := Int.bmod_emod (x := u*4) (m := 2^32)
      rw [asks] at offset
      unfold toInt DwldStore.sizeofDataUnitLen dataUnitLen at *
      omega

end Resuming

def movie : FileinfoKey := ⟨filetypeVideo,text "a"⟩

/-- A dwldInfo file with one download in it. -/
def recordedAt (unitId : Int) : DwldInfoFile := [DwldStore.marked true ⟨movie,2000,text "b",unitId,true⟩]

def restarted (unitId : Int) : State 1 := start 1 (recordedAt unitId) false

theorem resumes_iff_first : Resumes [7] movie 0 0 0 3 5 .login ↔
    0 = 0 ∧ ¬ text ", startOffset=" <:+: movie.filename ∧ [(7 : UInt8)].length ≤ 2^31 :=
  resumes_iff (u := 0) (n := 1) (by decide) (by decide) (by decide) (by decide) (by decide)
    (by decide : Interrupted (recordedAt 0) movie 0) (by decide) .start
    (rfl : (restarted 0).store.getOneDwldNode movie 2000 (text "b") true = .ok (_,0,0))

/-- A download that was interrupted at its second unit is started again at offset 4. -/
theorem second_unit_again : Interrupted (recordedAt 1) movie 1 ∧
    (∃ after, (restarted 1).store.getOneDwldNode movie 2000 (text "b") true = .ok (after,0,4)) ∧
      ¬ Resumes (List.replicate 2000 7) movie 1 4 0 3 5 .login :=
  ⟨by decide,⟨_,rfl⟩,fun resumes => absurd resumes.offset (by decide)⟩

end MoCodes.MoCloud.Resume
