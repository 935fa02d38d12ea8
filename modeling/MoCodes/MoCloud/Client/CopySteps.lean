import MoCodes.MoCloud.Client.TaskCopies

/-! The steps over the nodes against those over the tasks and their copies. -/
namespace MoCodes.MoCloud.Client
open Lib.LinkedList Lib.Owners Lib.Machine

section Frames

variable {memory after : Memory DwldNode} {entries : Entries} {nodes : Nat} {cells : List (Cell DwldNode)}
  {place : TaskPlace} {shownPlace : CopyPlace}

theorem addrs_cellsOf (entries : Entries) : addrs (cellsOf entries) = entries.map Prod.fst := by
  rw [addrs,cellsOf,List.map_map]
  rfl

/-- A caller sees nothing of the steps that leave its own cells and the tasks alone. -/
theorem Stands.frame (stands : Stands memory entries nodes cells place shownPlace)
    (tasks : ∀ addr ∈ addrs (cellsOf entries), after.heap addr = memory.heap addr)
    (own : ∀ addr ∈ addrs cells, after.heap addr = memory.heap addr) (grows : memory.limit ≤ after.limit)
    (dead : ∀ addr < memory.limit, memory.heap addr = none → after.heap addr = none) :
    Stands after entries nodes cells place shownPlace := by
  cases stands with
  | idle => exact .idle
  | starting given made same there =>
    exact .starting (Nat.lt_of_lt_of_le given grows) made same (there.imp_left (dead _ given))
  | copying split rest seg copied =>
    refine .copying split (seg_frame ?_ rest) (seg_frame own seg) copied
    intro addr member
    refine tasks addr ?_
    rw [split,cellsOf,List.map_append,addrs,List.map_append]
    exact List.mem_append_right _ member
  | undoing seg => exact .undoing (seg_frame (fun addr member => own addr (List.mem_cons_of_mem _ member)) seg)
  | holding seg copied => exact .holding (seg_frame own seg) copied
  | freeing first seg =>
    refine .freeing ?_ (seg_frame (fun addr member => own addr (List.mem_cons_of_mem _ member)) seg)
    rw [own _ List.mem_cons_self,first]

end Frames

section Lists

theorem seg_none {α : Type} {heap : Heap α} {cells : List (Cell α)} (seg : Seg heap none cells none) : cells = [] := by
  cases cells with
  | nil => rfl
  | cons cell cells => cases seg.1

theorem seg_first {α : Type} {heap : Heap α} {addr : Nat} {cells : List (Cell α)}
    (seg : Seg heap (some addr) cells none) : ∃ info next rest, cells = (addr,info) :: rest ∧
      heap addr = some ⟨info,next⟩ ∧ Seg heap next rest none := by
  cases cells with
  | nil => cases seg
  | cons cell rest =>
    obtain ⟨here,next,held,behind⟩ := seg
    cases cell
    cases here
    exact ⟨_,next,rest,rfl,held,behind⟩

theorem copies_length {cells : List (Cell DwldNode)} {infos : List DwldInfo}
    (copied : cells.map Prod.snd = copies infos) : cells.length = infos.length := by
  have lengths := congrArg List.length copied
  rwa [List.length_map,copies,List.length_map] at lengths

def insertCopy (info : DwldInfo) : List DwldInfo → List DwldInfo
  | [] => [info]
  | first :: rest => first :: info :: rest

theorem snapshot_concat (dwldingOnly : Bool) (passed : List DwldInfo) (info : DwldInfo) :
    snapshot dwldingOnly (passed ++ [info]) =
      if wanted dwldingOnly info then insertCopy info (snapshot dwldingOnly passed) else snapshot dwldingOnly passed := by
  rw [snapshot,snapshot,List.filter_append,List.filter_singleton]
  cases wanted dwldingOnly info with
  | false => simp
  | true =>
    cases passed.filter (wanted dwldingOnly) with
    | nil => rfl
    | cons first rest => simp [copyOrder,insertCopy]

theorem infosOf_length (entries : Entries) : (infosOf entries).length = entries.length := List.length_map _

theorem infosOf_concat (passed : Entries) (entry : Nat × DwldTaskInfo) :
    infosOf (passed ++ [entry]) = infosOf passed ++ [entry.2.dwldInfo] := by
  rw [infosOf,List.map_append]
  rfl

end Lists

variable {ι : Type} {s : TaskMemory ι} {shown : TaskCopies ι} {entries : Entries}
  {own : ι → List (Cell DwldNode)} {caller : ι}

section Places

/-! What belongs to the place where a caller is. -/

variable (reads : Reads s shown entries own)
include reads

theorem head_node : ∃ first, s.memory.heap s.gDwldTasksInfoListHead = some ⟨.head,first⟩ ∧
    Seg s.memory.heap first (cellsOf entries) none := by
  obtain ⟨_,first,held,rest⟩ := reads.chain
  exact ⟨first,held,rest⟩

theorem nodes_cells : s.nodes = some (cellsOf entries) := by
  obtain ⟨first,held,rest⟩ := head_node reads
  have few := reads.owned.at_most none
  simp only [owners,addrs,List.length_cons,List.length_map] at few
  rw [TaskMemory.nodes,held,Option.bind_some]
  exact walk_seg rest (Nat.le_of_succ_le few)

theorem stands_at {place : TaskPlace} (there : s.places caller = place) :
    Stands s.memory entries shown.store.nodes (own caller) place (shown.places caller) :=
  there ▸ reads.stands caller

theorem at_idle (there : s.places caller = .idle) : own caller = [] ∧ shown.places caller = .idle := by
  have stands := stands_at reads there
  generalize own caller = cells,shown.places caller = shownPlace at stands
  cases stands with
  | idle => exact ⟨rfl,rfl⟩

theorem at_copying {dwldingOnly : Bool} {pRet pCurNode : Option Nat}
    (there : s.places caller = .copying dwldingOnly pRet pCurNode) : ∃ passed todo, entries = passed ++ todo ∧
      shown.places caller = .copying dwldingOnly passed.length ∧
      Seg s.memory.heap pCurNode (cellsOf todo) none ∧ Seg s.memory.heap pRet (own caller) none ∧
      (own caller).map Prod.snd = copies (snapshot dwldingOnly (infosOf passed)) := by
  have stands := stands_at reads there
  generalize own caller = cells,shown.places caller = shownPlace at stands
  cases stands with
  | copying split rest seg copied => exact ⟨_,_,split,rfl,rest,seg,copied⟩

theorem at_undoing {pRet : Nat} {pDelNode : Option Nat} (there : s.places caller = .undoing pRet pDelNode) :
    ∃ info rest, own caller = (pRet,info) :: rest ∧ shown.places caller = .undoing rest.length ∧
      Seg s.memory.heap pDelNode rest none := by
  have stands := stands_at reads there
  generalize own caller = cells,shown.places caller = shownPlace at stands
  cases stands with
  | undoing seg => exact ⟨_,_,rfl,rfl,seg⟩

theorem at_holding {pTasks : Nat} (there : s.places caller = .holding pTasks) :
    ∃ infos, shown.places caller = .holding infos ∧ Seg s.memory.heap (some pTasks) (own caller) none ∧
      (own caller).map Prod.snd = copies infos := by
  have stands := stands_at reads there
  generalize own caller = cells,shown.places caller = shownPlace at stands
  cases stands with
  | holding seg copied => exact ⟨_,rfl,seg,copied⟩

theorem at_freeing {pTasks : Nat} {pNextNode : Option Nat} (there : s.places caller = .freeing pTasks pNextNode) :
    ∃ info rest, own caller = (pTasks,info) :: rest ∧ shown.places caller = .freeing rest.length ∧
      s.memory.heap pTasks = some ⟨info,pNextNode⟩ ∧ Seg s.memory.heap pNextNode rest none := by
  have stands := stands_at reads there
  generalize own caller = cells,shown.places caller = shownPlace at stands
  cases stands with
  | freeing first seg => exact ⟨_,_,rfl,rfl,first,seg⟩

theorem infos_of : shown.infos = infosOf entries := by
  rw [TaskCopies.infos,reads.tasks,List.map_map]
  rfl

theorem own_local (caller : ι) : Local s.memory s.memory (addrs (own caller)) (addrs (own caller)) :=
  local_refl reads.owned (some caller)

theorem none_local (nothing : own caller = []) :
    Local s.memory s.memory (addrs (own caller)) (addrs ([] : List (Cell DwldNode))) := by
  have same := own_local reads caller
  rwa [nothing] at same ⊢

theorem tasks_frame {after : Memory DwldNode} {new : List Nat}
    (moved : Local s.memory after (addrs (own caller)) new) {pCurNode : Option Nat} {passed todo : Entries}
    (split : entries = passed ++ todo) (seg : Seg s.memory.heap pCurNode (cellsOf todo) none) :
    Seg after.heap pCurNode (cellsOf todo) none := by
  refine seg_frame ?_ seg
  intro addr member
  have inside : addr ∈ owners s.gDwldTasksInfoListHead entries own none := by
    rw [owners,addrs_cellsOf,split,List.map_append]
    rw [addrs_cellsOf] at member
    exact List.mem_cons_of_mem _ (List.mem_append_right _ member)
  have moved' : Local s.memory after (owners s.gDwldTasksInfoListHead entries own (some caller)) new := moved
  exact reads.owned.frame moved' (Option.some_ne_none _).symm inside

end Places

section Steps

variable [DecidableEq ι]

theorem owners_own (head : Nat) (entries : Entries) (own : ι → List (Cell DwldNode)) (caller : ι)
    (list : List (Cell DwldNode)) : owners head entries (Function.update own caller list) =
      Function.update (owners head entries own) (some caller) (addrs list) := by
  ext owner : 1
  cases owner with
  | none => rw [Function.update_of_ne (Option.some_ne_none _).symm,owners,owners]
  | some other =>
    by_cases same : other = caller
    · rw [same,Function.update_self,owners,Function.update_self]
    · have apart : some other ≠ some caller := fun equal => same (Option.some.inj equal)
      rw [Function.update_of_ne apart,owners,Function.update_of_ne same,owners]

theorem owners_tasks (head : Nat) (entries changed : Entries) (own : ι → List (Cell DwldNode)) :
    owners head changed own = Function.update (owners head entries own) none (head :: addrs (cellsOf changed)) := by
  ext owner : 1
  cases owner with
  | none => rw [Function.update_self,owners]
  | some other => rw [Function.update_of_ne (Option.some_ne_none _),owners,owners]

namespace Reads

variable (reads : Reads s shown entries own)
include reads

/-- A step of one caller over the cells it has. -/
theorem own_step {after : Memory DwldNode} {list : List (Cell DwldNode)} {place : TaskPlace} {shownPlace : CopyPlace}
    {mutex shownMutex : Option ι} (moved : Local s.memory after (addrs (own caller)) (addrs list))
    (stands : Stands after entries shown.store.nodes list place shownPlace)
    (agree : mutex = shownMutex)
    (locked : ∀ other, (Function.update shown.places caller shownPlace other).Locks → shownMutex = some other) :
    Reads {s with memory := after, places := Function.update s.places caller place, gDwldTasksMutex := mutex}
      {shown with places := Function.update shown.places caller shownPlace, gDwldTasksMutex := shownMutex} entries
      (Function.update own caller list) := by
  have moved' : Local s.memory after (owners s.gDwldTasksInfoListHead entries own (some caller)) (addrs list) := moved
  have tasks : ∀ addr ∈ s.gDwldTasksInfoListHead :: addrs (cellsOf entries),
      after.heap addr = s.memory.heap addr := by
    intro addr member
    exact reads.owned.frame moved' (Option.some_ne_none _).symm (j := none) member
  refine ⟨reads.tasks,seg_frame tasks reads.chain,?_,reads.once,reads.made,reads.file,agree,locked,?_⟩
  · rw [owners_own]
    exact reads.owned.step moved'
  · intro other
    change Stands after entries shown.store.nodes (Function.update own caller list other)
      (Function.update s.places caller place other) (Function.update shown.places caller shownPlace other)
    by_cases same : other = caller
    · rw [same,Function.update_self,Function.update_self,Function.update_self]
      exact stands
    · have apart : some other ≠ some caller := fun equal => same (Option.some.inj equal)
      rw [Function.update_of_ne same,Function.update_of_ne same,Function.update_of_ne same]
      refine (reads.stands other).frame (fun addr member => tasks addr (List.mem_cons_of_mem _ member)) ?_
        moved.grows fun addr early free => reads.owned.stays_free moved' early free
      intro addr member
      exact reads.owned.frame moved' apart member

theorem move_step {after : Memory DwldNode} {list : List (Cell DwldNode)} {place : TaskPlace} {shownPlace : CopyPlace}
    (moved : Local s.memory after (addrs (own caller)) (addrs list))
    (stands : Stands after entries shown.store.nodes list place shownPlace)
    (locks : shownPlace.Locks → (shown.places caller).Locks) :
    Shows ({s with memory := after}.move caller place) (shown.move caller shownPlace) := by
  refine ⟨entries,_,reads.own_step moved stands reads.mutex ?_⟩
  intro other locked
  by_cases same : other = caller
  · rw [same,Function.update_self] at locked
    rw [same]
    exact reads.locked caller (locks locked)
  · rw [Function.update_of_ne same] at locked
    exact reads.locked other locked

/-- The step with which a caller gives the mutex back. -/
theorem leave_step {after : Memory DwldNode} {list : List (Cell DwldNode)} {place : TaskPlace} {shownPlace : CopyPlace}
    (moved : Local s.memory after (addrs (own caller)) (addrs list))
    (stands : Stands after entries shown.store.nodes list place shownPlace)
    (had : (shown.places caller).Locks) (gives : ¬ shownPlace.Locks) :
    Shows ({s with memory := after}.leave caller place) (shown.leave caller shownPlace) := by
  refine ⟨entries,_,reads.own_step moved stands rfl ?_⟩
  intro other locked
  exfalso
  by_cases same : other = caller
  · rw [same,Function.update_self] at locked
    exact gives locked
  · rw [Function.update_of_ne same] at locked
    exact same (Option.some.inj ((reads.locked other locked).symm.trans (reads.locked caller had)))

/-- A step over the tasks; a loop over them that is under way goes on. -/
theorem task_step {after : Memory DwldNode} {changed : Entries} {store : DwldStore}
    (loops : shown.gDwldTasksMutex = none ∨ ∀ passed todo pCurNode, entries = passed ++ todo →
      Seg s.memory.heap pCurNode (cellsOf todo) none → ∃ passed' todo', changed = passed' ++ todo' ∧
        infosOf passed' = infosOf passed ∧ Seg after.heap pCurNode (cellsOf todo') none)
    (moved : Local s.memory after (s.gDwldTasksInfoListHead :: addrs (cellsOf entries))
      (s.gDwldTasksInfoListHead :: addrs (cellsOf changed)))
    (chain : Seg after.heap (some s.gDwldTasksInfoListHead) ((s.gDwldTasksInfoListHead,.head) :: cellsOf changed) none)
    (tasks : store.tasks = changed.map Prod.snd) (once : (changed.map fun entry => entry.2.node).Nodup)
    (made : ∀ entry ∈ changed, entry.2.node < store.nodes) (grows : shown.store.nodes ≤ store.nodes)
    (follows : ∀ entry ∈ changed, (∃ task, (entry.1,task) ∈ entries ∧ task.node = entry.2.node) ∨
      s.memory.limit ≤ entry.1 ∧ shown.store.nodes ≤ entry.2.node) :
    Reads {s with memory := after, gDwldInfofile := store.file} {shown with store} changed own := by
  have moved' : Local s.memory after (owners s.gDwldTasksInfoListHead entries own none)
      (s.gDwldTasksInfoListHead :: addrs (cellsOf changed)) := moved
  refine ⟨tasks,chain,?_,once,made,rfl,reads.mutex,reads.locked,fun other => ?_⟩
  · rw [owners_tasks _ entries]
    exact reads.owned.step moved'
  · have locked := reads.locked other
    have stands := reads.stands other
    have same : ∀ addr ∈ addrs (own other), after.heap addr = s.memory.heap addr := fun addr member =>
      reads.owned.frame moved' (Option.some_ne_none other) member
    change Stands after changed store.nodes (own other) (s.places other) (shown.places other)
    generalize own other = cells,s.places other = place,shown.places other = shownPlace at locked stands same
    cases stands with
    | idle => exact .idle
    | starting given before which there =>
      refine .starting (Nat.lt_of_lt_of_le given moved.grows) (Nat.lt_of_lt_of_le before grows) ?_ ?_
      · intro entry member
        rcases follows entry member with ⟨task,old,node⟩ | ⟨far,late⟩
        · rw [← node]
          exact which _ old
        · exact iff_of_false (Nat.ne_of_gt (Nat.lt_of_lt_of_le given far))
            (Nat.ne_of_gt (Nat.lt_of_lt_of_le before late))
      · rename_i pDwldNode _
        by_cases listed : pDwldNode ∈ addrs (cellsOf changed)
        · rw [addrs_cellsOf] at listed
          obtain ⟨entry,member,rfl⟩ := List.mem_map.mp listed
          exact Or.inr ⟨entry.2,member⟩
        · refine Or.inl ?_
          rcases there with gone | ⟨task,old⟩
          · exact reads.owned.stays_free moved' given gone
          · have inside : pDwldNode ∈ addrs (cellsOf entries) := by
              rw [addrs_cellsOf]
              exact List.mem_map_of_mem old
            have apart : pDwldNode ≠ s.gDwldTasksInfoListHead := by
              rintro rfl
              exact (List.nodup_cons.mp (reads.owned.nodup none)).1 inside
            exact moved.freed _ (List.mem_cons_of_mem _ inside) (List.not_mem_cons_of_ne_of_not_mem apart listed)
    | copying split rest seg copied =>
      rcases loops with free | goes
      · exact absurd (free.symm.trans (locked trivial)) (Option.some_ne_none _).symm
      · obtain ⟨passed,todo,split',before,rest'⟩ := goes _ _ _ split rest
        have lengths := congrArg List.length before
        rw [infosOf_length,infosOf_length] at lengths
        rw [← before] at copied
        rw [← lengths]
        exact .copying split' rest' (seg_frame same seg) copied
    | undoing seg => exact .undoing (seg_frame (fun addr member => same addr (List.mem_cons_of_mem _ member)) seg)
    | holding seg copied => exact .holding (seg_frame same seg) copied
    | freeing first seg =>
      refine .freeing ?_ (seg_frame (fun addr member => same addr (List.mem_cons_of_mem _ member)) seg)
      rw [same _ List.mem_cons_self,first]

end Reads

section Passes

/-! The passes of the loops that copy, undo and free. -/

variable (reads : Reads s shown entries own)
include reads

theorem copy_ends {dwldingOnly : Bool} {pRet : Option Nat}
    (there : s.places caller = .copying dwldingOnly pRet none) (malloc : Bool) :
    Agree Shows (s.copyPass caller dwldingOnly pRet none malloc) (some (shown.pass caller malloc)) := by
  obtain ⟨passed,todo,split,shows,rest,seg,copied⟩ := at_copying reads there
  have locks : (shown.places caller).Locks := shows ▸ trivial
  have last := List.map_eq_nil_iff.mp (seg_none rest)
  rw [last,List.append_nil] at split
  have ended : (infosOf passed)[passed.length]? = none :=
    List.getElem?_eq_none (Nat.le_of_eq (infosOf_length passed))
  rw [TaskCopies.pass,shows]
  change Agree Shows _ (some (shown.copyPass caller dwldingOnly passed.length malloc))
  unfold TaskMemory.copyPass TaskCopies.copyPass
  rw [infos_of reads,split,ended]
  dsimp only
  cases pRet with
  | none =>
    have nothing := seg_none seg
    rw [nothing] at copied
    have empty : snapshot dwldingOnly (infosOf passed) = [] := List.map_eq_nil_iff.mp copied.symm
    rw [empty]
    exact .right (reads.leave_step (none_local reads nothing) .idle locks id)
  | some pTasks =>
    obtain ⟨info,next,behind,here,_,_⟩ := seg_first seg
    cases shot : snapshot dwldingOnly (infosOf passed) with
    | nil =>
      rw [shot,here] at copied
      cases copied
    | cons first others =>
      rw [shot] at copied
      exact .right (reads.leave_step (own_local reads caller) (.holding seg copied) locks id)

theorem copy_goes {dwldingOnly : Bool} {pRet : Option Nat} {pCurNode : Nat}
    (there : s.places caller = .copying dwldingOnly pRet (some pCurNode)) (malloc : Bool) :
    Agree Shows (s.copyPass caller dwldingOnly pRet (some pCurNode) malloc) (some (shown.pass caller malloc)) := by
  obtain ⟨passed,todo,split,shows,rest,seg,copied⟩ := at_copying reads there
  have locks : (shown.places caller).Locks := shows ▸ trivial
  cases todo with
  | nil => cases rest
  | cons entry todo =>
    obtain ⟨here,next,held,behind⟩ := rest
    obtain rfl : pCurNode = entry.1 := Option.some.inj here
    change s.memory.heap entry.1 = _ at held
    rw [List.append_cons] at split
    have passes : ∀ {after : Memory DwldNode} {list : List (Cell DwldNode)} {pRet : Option Nat},
        Local s.memory after (addrs (own caller)) (addrs list) → Seg after.heap pRet list none →
        list.map Prod.snd = copies (snapshot dwldingOnly (infosOf (passed ++ [entry]))) →
        Shows ({s with memory := after}.move caller (.copying dwldingOnly pRet next))
          (shown.move caller (.copying dwldingOnly (passed.length+1))) := by
      intro after list pRet moved seg copied
      refine reads.move_step moved ?_ fun _ => locks
      have longer : passed.length+1 = (passed ++ [entry]).length := by rw [List.length_append,List.length_singleton]
      rw [longer]
      exact .copying split (tasks_frame reads moved split behind) seg copied
    rw [infosOf_concat,snapshot_concat] at passes
    rw [TaskCopies.pass,shows]
    change Agree Shows _ (some (shown.copyPass caller dwldingOnly passed.length malloc))
    have size : passed.length = (infosOf passed).length := (infosOf_length passed).symm
    have comes : shown.infos = infosOf passed ++ entry.2.dwldInfo :: infosOf todo := by
      rw [infos_of reads,split,infosOf,List.map_append,List.map_append,List.append_assoc]
      rfl
    have here : shown.infos[passed.length]? = some entry.2.dwldInfo := by
      rw [comes,size,List.getElem?_append_right (Nat.le_refl _),Nat.sub_self]
      rfl
    have front : shown.infos.take passed.length = infosOf passed := by rw [comes,size,List.take_left]
    rw [TaskMemory.copyPass,TaskCopies.copyPass,held,Option.bind_some,here,front]
    have skips : (dwldingOnly && !(content entry.2).dwldInfo.isDwlding) = !wanted dwldingOnly entry.2.dwldInfo := by
      rw [wanted,Bool.not_or,Bool.not_not]
      rfl
    simp only [skips]
    cases wants : wanted dwldingOnly entry.2.dwldInfo with
    | false =>
      rw [wants] at passes
      exact .right (passes (own_local reads caller) seg copied)
    | true =>
      rw [wants] at passes
      simp only [Bool.not_true,Bool.false_eq_true,if_false,Bool.true_and]
      cases pRet with
      | none =>
        have nothing := seg_none seg
        rw [nothing] at copied
        have empty : snapshot dwldingOnly (infosOf passed) = [] := List.map_eq_nil_iff.mp copied.symm
        rw [empty] at passes ⊢
        cases malloc with
        | false => exact .right (reads.leave_step (none_local reads nothing) .idle locks id)
        | true =>
          have moved := local_malloc reads.owned (some caller) ⟨.copy entry.2.dwldInfo,none⟩
          change Local _ _ (addrs (own caller)) (s.memory.limit :: addrs (own caller)) at moved
          have chain : Seg (s.memory.malloc ⟨.copy entry.2.dwldInfo,none⟩).heap (some s.memory.limit)
              [(s.memory.limit,.copy entry.2.dwldInfo)] none := ⟨rfl,none,Memory.malloc_self,rfl⟩
          refine .right (passes ?_ chain rfl)
          rwa [nothing] at moved ⊢
      | some pRet =>
        obtain ⟨info,first,others,mine,node,more⟩ := seg_first seg
        cases shot : snapshot dwldingOnly (infosOf passed) with
        | nil =>
          rw [shot,mine] at copied
          cases copied
        | cons one infos =>
          rw [shot,mine] at copied
          obtain ⟨head,tail⟩ := List.cons.inj copied
          cases malloc with
          | false =>
            dsimp only
            rw [node]
            have length := copies_length tail
            refine .right (reads.move_step (own_local reads caller) ?_ fun _ => locks)
            rw [mine,← length]
            exact .undoing more
          | true =>
            rw [mine] at seg
            obtain ⟨after,ran,chain,moved⟩ := owned_insertAfter reads.owned (i := some caller) (congrArg addrs mine) seg
              (.copy entry.2.dwldInfo)
            change Agree Shows (Option.map _ (s.memory.insertAfter pRet (.copy entry.2.dwldInfo))) _
            rw [ran]
            rw [shot] at passes
            refine .right (passes moved chain ?_)
            change info :: _ :: others.map Prod.snd = _
            rw [tail,show info = .copy one from head]
            rfl

omit reads [DecidableEq ι] in
theorem freeNode_some {addr : Nat} (there : s.memory.heap addr ≠ none) :
    s.freeNode addr = some (s.memory.release addr) := by
  obtain ⟨node,held⟩ := Option.ne_none_iff_exists'.mp there
  rw [TaskMemory.freeNode,held]
  rfl

omit [DecidableEq ι] in
/-- The last node of a caller is freed. -/
theorem last_freed {addr : Nat} {info : DwldNode} (mine : own caller = [(addr,info)]) :
    s.freeNode addr = some (s.memory.release addr) ∧
      Local s.memory (s.memory.release addr) (addrs (own caller)) (addrs ([] : List (Cell DwldNode))) := by
  have member : addr ∈ owners s.gDwldTasksInfoListHead entries own (some caller) := by
    rw [owners,mine]
    exact List.mem_singleton_self _
  refine ⟨freeNode_some (reads.owned.alive member),?_⟩
  refine local_release reads.owned (i := some caller) ?_
  rw [owners,mine]
  rfl

theorem undoPass_agrees {pRet : Nat} {pDelNode : Option Nat} (there : s.places caller = .undoing pRet pDelNode)
    (malloc : Bool) : Agree Shows (s.undoPass caller pRet pDelNode) (some (shown.pass caller malloc)) := by
  obtain ⟨info,rest,mine,shows,seg⟩ := at_undoing reads there
  have locks : (shown.places caller).Locks := shows ▸ trivial
  rw [TaskCopies.pass,shows]
  cases pDelNode with
  | none =>
    obtain rfl := seg_none seg
    obtain ⟨freed,moved⟩ := last_freed reads mine
    rw [TaskMemory.undoPass,freed]
    exact .right (reads.leave_step moved .idle locks id)
  | some pDelNode =>
    obtain ⟨gone,next,others,rfl,node,more⟩ := seg_first seg
    rw [TaskMemory.undoPass,node]
    have nodup := reads.owned.nodup (some caller)
    rw [owners,mine] at nodup
    have apart := (List.nodup_cons.mp (List.nodup_cons.mp nodup).2).1
    have moved : Local s.memory (s.memory.release pDelNode) (addrs (own caller)) (addrs ((pRet,info) :: others)) := by
      refine local_release reads.owned (i := some caller) ?_
      rw [owners,mine]
      exact List.Perm.swap _ _ _
    refine .right (reads.move_step moved (.undoing (seg_frame ?_ more)) fun _ => locks)
    intro addr member
    exact Memory.release_other fun same => apart (same ▸ member)

theorem freePass_agrees {pTasks : Nat} {pNextNode : Option Nat} (there : s.places caller = .freeing pTasks pNextNode)
    (malloc : Bool) : Agree Shows (s.freePass caller pTasks pNextNode) (some (shown.pass caller malloc)) := by
  obtain ⟨info,rest,mine,shows,first,seg⟩ := at_freeing reads there
  rw [TaskCopies.pass,shows]
  cases pNextNode with
  | none =>
    obtain rfl := seg_none seg
    obtain ⟨freed,moved⟩ := last_freed reads mine
    rw [TaskMemory.freePass,freed]
    exact .right (reads.move_step moved .idle False.elim)
  | some pNextNode =>
    obtain ⟨gone,next,others,rfl,_,_⟩ := seg_first seg
    have whole : Seg s.memory.heap (some pTasks) ([] ++ (pTasks,info) :: (pNextNode,gone) :: others) none :=
      ⟨rfl,_,first,seg⟩
    obtain ⟨after,next',ran,before,behind,moved⟩ := owned_unlink reads.owned (i := some caller)
      (congrArg addrs mine) whole
    change s.memory.unlink pTasks pNextNode = _ at ran
    obtain ⟨_,link,held,rfl⟩ := before
    rw [TaskMemory.freePass,ran]
    exact .right (reads.move_step moved (.freeing held behind) False.elim)

theorem pass_agrees (caller : ι) (malloc : Bool) :
    Agree Shows (s.pass caller malloc) (some (shown.pass caller malloc)) := by
  have stands := reads.stands caller
  cases there : s.places caller with
  | copying dwldingOnly pRet pCurNode =>
    rw [TaskMemory.pass,there]
    cases pCurNode with
    | none => exact copy_ends reads there malloc
    | some pCurNode => exact copy_goes reads there malloc
  | undoing pRet pDelNode =>
    rw [TaskMemory.pass,there]
    exact undoPass_agrees reads there malloc
  | freeing pTasks pNextNode =>
    rw [TaskMemory.pass,there]
    exact freePass_agrees reads there malloc
  | idle =>
    obtain ⟨_,shows⟩ := at_idle reads there
    rw [TaskMemory.pass,TaskCopies.pass,there,shows]
    exact .right ⟨entries,own,reads⟩
  | starting pDwldNode =>
    rw [there] at stands
    generalize own caller = cells,shows : shown.places caller = shownPlace at stands
    cases stands
    rw [TaskMemory.pass,TaskCopies.pass,there,shows]
    exact .right ⟨entries,own,reads⟩
  | holding pTasks =>
    obtain ⟨infos,shows,_⟩ := at_holding reads there
    rw [TaskMemory.pass,TaskCopies.pass,there,shows]
    exact .right ⟨entries,own,reads⟩

end Passes

section Calls

variable (reads : Reads s shown entries own)
include reads

omit [DecidableEq ι] in
theorem idle_iff (caller : ι) : shown.places caller = .idle ↔ s.places caller = .idle := by
  have stands := reads.stands caller
  generalize own caller = cells,s.places caller = place,shown.places caller = shownPlace at stands
  cases stands with
  | idle => exact iff_of_true rfl rfl
  | _ => exact iff_of_false nofun nofun

theorem getDwldTasks_agrees (caller : ι) (dwldingOnly : Bool) :
    Agree Shows (taskMemory s (.getDwldTasks caller dwldingOnly)) (taskCopies shown (.getDwldTasks caller dwldingOnly)) := by
  have idle := idle_iff reads caller
  rw [taskMemory,taskCopies,reads.mutex]
  split
  · rename_i there free
    obtain ⟨mine,shows⟩ := at_idle reads there
    obtain ⟨first,held,rest⟩ := head_node reads
    rw [shows,free,held]
    have stands : Stands s.memory entries shown.store.nodes (own caller) (.copying dwldingOnly none first)
        (.copying dwldingOnly 0) :=
      @Stands.copying _ entries _ _ _ _ _ [] entries rfl rest (mine ▸ rfl) (mine ▸ rfl)
    refine .right ⟨entries,_,reads.own_step (own_local reads caller) stands rfl ?_⟩
    intro other locked
    by_cases same : other = caller
    · rw [same]
    · rw [Function.update_of_ne same] at locked
      exact absurd (free.symm.trans (reads.locked other locked)) (Option.some_ne_none _).symm
  · rename_i busy
    split
    · rename_i here free
      exact absurd free (busy (idle.mp here))
    · exact .right ⟨entries,own,reads⟩

theorem readTasks_agrees (caller : ι) :
    Agree Shows (taskMemory s (.readTasks caller)) (taskCopies shown (.readTasks caller)) := by
  rw [taskMemory,taskCopies]
  cases there : s.places caller with
  | holding pTasks =>
    obtain ⟨infos,shows,seg,copied⟩ := at_holding reads there
    have read := owned_cells reads.owned (i := some caller) rfl seg
    have told : (own caller).map (fun cell => cell.2.dwldInfo) = infos := by
      have told := congrArg (List.map DwldNode.dwldInfo) copied
      rw [List.map_map,copies,List.map_map] at told
      exact told.trans (List.map_id' infos)
    rw [shows]
    dsimp only
    rw [read]
    change Agree Shows (some (TaskAnswer.tasks ((own caller).map fun cell => cell.2.dwldInfo),s)) _
    rw [told]
    exact .right ⟨entries,own,reads⟩
  | _ =>
    have stands := stands_at reads there
    generalize own caller = cells,shows : shown.places caller = shownPlace at stands
    cases stands
    exact .right ⟨entries,_,reads⟩

theorem freeDwldTasks_agrees (caller : ι) :
    Agree Shows (taskMemory s (.freeDwldTasks caller)) (taskCopies shown (.freeDwldTasks caller)) := by
  rw [taskMemory,taskCopies]
  cases there : s.places caller with
  | holding pTasks =>
    obtain ⟨infos,shows,seg,copied⟩ := at_holding reads there
    obtain ⟨info,next,rest,mine,node,more⟩ := seg_first seg
    have length := copies_length copied
    rw [mine,List.length_cons] at length
    rw [shows]
    dsimp only
    rw [node]
    refine .right (reads.move_step (own_local reads caller) ?_ False.elim)
    rw [mine,← length,Nat.add_sub_cancel]
    exact .freeing node more
  | _ =>
    have stands := stands_at reads there
    generalize own caller = cells,shows : shown.places caller = shownPlace at stands
    cases stands
    exact .right ⟨entries,_,reads⟩

end Calls

end Steps

end MoCodes.MoCloud.Client
