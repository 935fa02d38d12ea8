import MoCodes.Lib.Ring
import MoCodes.Lib.Transition
import MoCodes.MoCloud.Proto

/-! The units of one file in cliData.c, between the receive thread and the thread that writes
the file. Both work on the list under writeFileThrMutex, so that a call of saveDataToBuffer
and the taking of a unit are one step each. -/
namespace MoCodes.MoCloud.Client.UnitList
open Lib.Loop Lib.Ring Lib.Transition

/-- DWLD_UNIT_INFO. -/
structure DwldUnitInfo where
  isEof : Bool
  isUsed : Bool
  unitId : Int
  bodyLen : Int
  body : List UInt8
  deriving DecidableEq

def DwldUnitInfo.recycled (info : DwldUnitInfo) : DwldUnitInfo := { info with isUsed := false }

abbrev Units := Heap DwldUnitInfo

/-- A list whose only node is the node behind the head. -/
def linkOnly (heap : Units) (head pNewNode : Nat) : Option Units := do
  let heap ← setNext heap head pNewNode
  let heap ← setPrev heap head pNewNode
  let heap ← setNext heap pNewNode head
  setPrev heap pNewNode head

def linkFirst (heap : Units) (head pNewNode pCurNode : Nat) : Option Units := do
  let heap ← setNext heap head pNewNode
  let heap ← setNext heap pNewNode pCurNode
  let heap ← setPrev heap pCurNode pNewNode
  setPrev heap pNewNode head

def moveFirst (heap : Units) (head pLastNode pNewLastNode pFirstNode : Nat) : Option Units := do
  let heap ← setNext heap head pLastNode
  let heap ← setPrev heap head pNewLastNode
  let heap ← setNext heap pLastNode pFirstNode
  let heap ← setPrev heap pLastNode head
  let heap ← setPrev heap pFirstNode pLastNode
  setNext heap pNewLastNode head

def unitInfo (header : DataHeader) (body : List UInt8) : DwldUnitInfo :=
  ⟨header.isEof,true,header.unitId,header.bodyLen,body⟩

/-- Behind the search for a node: `pCurNode` is the first used node or the head. -/
def saveBefore (heap : Units) (head : Nat) (info : DwldUnitInfo) (malloc : Option Nat) (pCurNode : Nat) :
    Option (Int × Units) := do
  let cur ← heap pCurNode
  let prev ← cur.prev
  if prev = head then
    match malloc with
    | none => return (-4,heap)
    | some pNewNode =>
      let heap ← linkFirst (allocate heap pNewNode info) head pNewNode pCurNode
      return (0,heap)
  else
    let heap ← setInfo heap prev info
    return (0,heap)

/-- The outer `none` is a search that goes on after so many turns, the inner one a fault. -/
def saveDataToBuffer (isStopWriteFileThr : Bool) (heap : Units) (head : Nat) (header : DataHeader)
    (body : List UInt8) (malloc : Option Nat) (turns : Nat) : Option (Option (Int × Units)) :=
  if isStopWriteFileThr then some (some (-2,heap))
  else
    match heap head with
    | none => some none
    | some node =>
      if node.next = none ∧ node.prev = none then
        match malloc with
        | none => some (some (-3,heap))
        | some pNewNode =>
          some ((linkOnly (allocate heap pNewNode (unitInfo header body)) head pNewNode).map fun heap =>
            (0,heap))
      else
        (run (findBody heap head DwldUnitInfo.isUsed) turns node.next).map fun pCurNode =>
          pCurNode.bind (saveBefore heap head (unitInfo header body) malloc)

/-- The step of writeFileThr that takes a unit, when the thread is not to stop. -/
def takeUnit (heap : Units) (head : Nat) : Option (Option DwldUnitInfo × Units) := do
  let node ← heap head
  match node.prev with
  | none => return (none,heap)
  | some pLastNode =>
    let last ← heap pLastNode
    if last.info.isUsed = false then return (none,heap)
    else
      let heap ← setInfo heap pLastNode last.info.recycled
      -- with one node in the list there is nothing to move
      if node.prev = node.next then return (some last.info,heap)
      else
        let pNewLastNode ← last.prev
        let pFirstNode ← node.next
        let heap ← moveFirst heap head pLastNode pNewLastNode pFirstNode
        return (some last.info,heap)

structure State where
  heap : Units
  pDwldUnitListHead : Nat
  isStopWriteFileThr : Bool := false
  saved : List DwldUnitInfo := []
  taken : List DwldUnitInfo := []
  fault : Bool := false

inductive Event where
  | save (header : DataHeader) (body : List UInt8) (malloc : Option Nat) (turns : Nat)
  | take
  | stop

def State.save (state : State) (header : DataHeader) (body : List UInt8) :
    Option (Option (Int × Units)) → State
  | none => state
  | some none => { state with fault := true }
  | some (some (ret,heap)) =>
    { state with heap := heap, saved := state.saved ++ if ret = 0 then [unitInfo header body] else [] }

def State.take (state : State) : Option (Option DwldUnitInfo × Units) → State
  | none => { state with fault := true }
  | some (curInfo,heap) => { state with heap := heap, taken := state.taken ++ curInfo.toList }

/-- malloc gives memory that is not in use; the writing thread takes units until it is told
to stop. -/
def unitSystem : System State Event where
  Enabled state
    | .save header body malloc turns =>
      (malloc.all fun addr => (state.heap addr).isNone) = true ∧
        (saveDataToBuffer state.isStopWriteFileThr state.heap state.pDwldUnitListHead header body malloc
          turns).isSome = true
    | .take => state.isStopWriteFileThr = false
    | .stop => True
  next state
    | .save header body malloc turns => state.save header body
        (saveDataToBuffer state.isStopWriteFileThr state.heap state.pDwldUnitListHead header body malloc turns)
    | .take => state.take (takeUnit state.heap state.pDwldUnitListHead)
    | .stop => { state with isStopWriteFileThr := true }

instance (state : State) (event : Event) : Decidable (unitSystem.Enabled state event) :=
  match event with
  | .save .. => inferInstanceAs (Decidable (_ ∧ _))
  | .take => inferInstanceAs (Decidable (_ = _))
  | .stop => isTrue trivial

/-- The head that cliDataInit allocates. -/
def start (head : Nat) (info : DwldUnitInfo) : State where
  heap := allocate (fun _ => none) head info
  pDwldUnitListHead := head

section Links

variable {heap : Units} {head addr cur : Nat} {info : DwldUnitInfo}

theorem linkOnly_views {there here : DwldUnitInfo} (at_head : infoOf heap head = some there)
    (at_new : infoOf heap addr = some here) (apart : addr ≠ head) :
    ∃ after, linkOnly heap head addr = some after ∧ infoOf after = infoOf heap ∧
      (∀ other, nextOf after other =
        if other = head then some addr else if other = addr then some head else nextOf heap other) ∧
      ∀ other, prevOf after other =
        if other = addr then some head else if other = head then some addr else prevOf heap other := by
  obtain ⟨one,set_one,info_one,next_one,prev_one⟩ := setNext_views addr at_head
  obtain ⟨two,set_two,info_two,next_two,prev_two⟩ := setPrev_views addr (info_one ▸ at_head)
  have kept := info_two.trans info_one
  obtain ⟨three,set_three,info_three,next_three,prev_three⟩ := setNext_views head (kept ▸ at_new)
  have kept := info_three.trans kept
  obtain ⟨four,set_four,info_four,next_four,prev_four⟩ := setPrev_views head (kept ▸ at_new)
  refine ⟨four,?_,info_four.trans kept,fun other => ?_,fun other => ?_⟩
  · simp only [linkOnly,set_one,set_two,set_three,set_four,Option.bind_eq_bind,Option.bind_some]
  · rw [next_four,next_three,next_two,next_one,Function.update_apply,Function.update_apply]
    split
    · rename_i same
      rw [if_neg (by rw [same]; exact apart)]
    · rfl
  · rw [prev_four,prev_three,prev_two,prev_one,Function.update_apply,Function.update_apply]

theorem linkFirst_views {there here next : DwldUnitInfo} (at_head : infoOf heap head = some there)
    (at_new : infoOf heap addr = some here) (at_cur : infoOf heap cur = some next) (apart : addr ≠ head) :
    ∃ after, linkFirst heap head addr cur = some after ∧ infoOf after = infoOf heap ∧
      (∀ other, nextOf after other =
        if other = head then some addr else if other = addr then some cur else nextOf heap other) ∧
      ∀ other, prevOf after other =
        if other = addr then some head else if other = cur then some addr else prevOf heap other := by
  obtain ⟨one,set_one,info_one,next_one,prev_one⟩ := setNext_views addr at_head
  obtain ⟨two,set_two,info_two,next_two,prev_two⟩ := setNext_views cur (info_one ▸ at_new)
  have kept := info_two.trans info_one
  obtain ⟨three,set_three,info_three,next_three,prev_three⟩ := setPrev_views addr (kept ▸ at_cur)
  have kept := info_three.trans kept
  obtain ⟨four,set_four,info_four,next_four,prev_four⟩ := setPrev_views head (kept ▸ at_new)
  refine ⟨four,?_,info_four.trans kept,fun other => ?_,fun other => ?_⟩
  · simp only [linkFirst,set_one,set_two,set_three,set_four,Option.bind_eq_bind,Option.bind_some]
  · rw [next_four,next_three,next_two,next_one,Function.update_apply,Function.update_apply]
    split
    · rename_i same
      rw [if_neg (by rw [same]; exact apart)]
    · rfl
  · rw [prev_four,prev_three,prev_two,prev_one,Function.update_apply,Function.update_apply]

theorem moveFirst_views {last first : Nat} {there here before next : DwldUnitInfo}
    (at_head : infoOf heap head = some there) (at_addr : infoOf heap addr = some here)
    (at_last : infoOf heap last = some before) (at_first : infoOf heap first = some next)
    (addr_head : addr ≠ head) (last_head : last ≠ head) (last_addr : last ≠ addr) (first_head : first ≠ head)
    (first_addr : first ≠ addr) :
    ∃ after, moveFirst heap head addr last first = some after ∧ infoOf after = infoOf heap ∧
      (∀ other, nextOf after other =
        if other = head then some addr else if other = addr then some first
        else if other = last then some head else nextOf heap other) ∧
      ∀ other, prevOf after other =
        if other = head then some last else if other = addr then some head
        else if other = first then some addr else prevOf heap other := by
  obtain ⟨one,set_one,info_one,next_one,prev_one⟩ := setNext_views addr at_head
  obtain ⟨two,set_two,info_two,next_two,prev_two⟩ := setPrev_views last (info_one ▸ at_head)
  have kept := info_two.trans info_one
  obtain ⟨three,set_three,info_three,next_three,prev_three⟩ := setNext_views first (kept ▸ at_addr)
  have kept := info_three.trans kept
  obtain ⟨four,set_four,info_four,next_four,prev_four⟩ := setPrev_views head (kept ▸ at_addr)
  have kept := info_four.trans kept
  obtain ⟨five,set_five,info_five,next_five,prev_five⟩ := setPrev_views addr (kept ▸ at_first)
  have kept := info_five.trans kept
  obtain ⟨six,set_six,info_six,next_six,prev_six⟩ := setNext_views head (kept ▸ at_last)
  refine ⟨six,?_,info_six.trans kept,fun other => ?_,fun other => ?_⟩
  · simp only [moveFirst,set_one,set_two,set_three,set_four,set_five,set_six,Option.bind_eq_bind,
      Option.bind_some]
  · rw [next_six,next_five,next_four,next_three,next_two,next_one]
    simp only [Function.update_apply]
    grind
  · rw [prev_six,prev_five,prev_four,prev_three,prev_two,prev_one]
    simp only [Function.update_apply]
    grind

end Links

/-- From the head on, nodes that are not used and behind them nodes that are. A list without
nodes has no links. -/
structure Split (heap : Units) (head : Nat) (unused used : List (Cell DwldUnitInfo)) : Prop where
  at_head : ∃ info, infoOf heap head = some info
  empty : unused ++ used = [] → nextOf heap head = none ∧ prevOf heap head = none
  circle : unused ++ used ≠ [] → Circle heap head (unused ++ used)
  free : ∀ cell ∈ unused, cell.2.isUsed = false
  full : ∀ cell ∈ used, cell.2.isUsed = true

section Save

variable {heap : Units} {head addr cur : Nat} {info : DwldUnitInfo} {unused used : List (Cell DwldUnitInfo)}
  {header : DataHeader} {body : List UInt8}

theorem split_insert {after : Units} {first : Nat} (split : Split heap head [] used) (fresh : heap addr = none)
    (full : info.isUsed = true) (begin : (addrs used ++ [head]).head? = some first)
    (info_after : infoOf after = infoOf (allocate heap addr info))
    (next_after : ∀ other, nextOf after other = if other = head then some addr
      else if other = addr then some first else nextOf (allocate heap addr info) other)
    (prev_after : ∀ other, prevOf after other = if other = addr then some head
      else if other = first then some addr else prevOf (allocate heap addr info) other) :
    Split after head [] ((addr,info)::used) := by
  obtain ⟨there,at_head⟩ := split.at_head
  have unknown : infoOf heap addr = none := by rw [infoOf,fresh,Option.map_none]
  have apart : addr ≠ head := by
    rintro rfl
    rw [unknown] at at_head
    cases at_head
  have inside : ∀ cell ∈ used, infoOf heap cell.1 = some cell.2 := fun cell member =>
    (split.circle (List.ne_nil_of_mem member)).infos cell member
  have links : List.IsChain (Linked heap) (addrs used ++ [head]) := by
    by_cases none_used : used = []
    · rw [none_used]
      exact .singleton head
    · exact (split.circle none_used).links.tail
  have nodup : (head :: addrs used).Nodup := by
    by_cases none_used : used = []
    · rw [none_used]
      exact List.nodup_singleton head
    · exact (split.circle none_used).nodup
  have outside : addr ∉ head :: addrs used := by
    apply List.not_mem_cons_of_ne_of_not_mem apart
    intro member
    obtain ⟨cell,within,rfl⟩ := List.mem_map.mp member
    rw [inside cell within] at unknown
    cases unknown
  have circle : Circle after head ((addr,info)::used) := by
    apply circle_insert links inside nodup begin outside
    · rw [info_after,infoOf_allocate]
    · intro other
      rw [next_after,nextOf_allocate]
      split
      · rfl
      · split
        · rfl
        · rename_i other_addr
          exact Function.update_of_ne other_addr ..
    · intro other
      rw [prev_after,prevOf_allocate]
      split
      · rfl
      · rename_i other_addr
        rw [Function.update_of_ne other_addr]
  refine ⟨⟨there,?_⟩,fun absent => (List.cons_ne_nil _ _ absent).elim,fun _ => circle,
    fun _ absent => (List.not_mem_nil absent).elim,?_⟩
  · rw [info_after,infoOf_allocate,Function.update_of_ne apart.symm,at_head]
  · intro cell member
    rcases List.mem_cons.mp member with rfl | before
    · exact full
    · exact split.full cell before

theorem split_fresh (split : Split heap head unused used) (fresh : heap addr = none) : addr ≠ head := by
  rintro rfl
  obtain ⟨there,at_head⟩ := split.at_head
  rw [infoOf,fresh] at at_head
  cases at_head

theorem linkOnly_split (info : DwldUnitInfo) (split : Split heap head [] []) (fresh : heap addr = none) (full : info.isUsed = true) :
    ∃ after, linkOnly (allocate heap addr info) head addr = some after ∧ Split after head [] [(addr,info)] := by
  obtain ⟨there,at_head⟩ := split.at_head
  have apart := split_fresh split fresh
  have at_head' : infoOf (allocate heap addr info) head = some there := by
    rw [infoOf_allocate,Function.update_of_ne apart.symm,at_head]
  have at_new : infoOf (allocate heap addr info) addr = some info := by
    rw [infoOf_allocate,Function.update_self]
  obtain ⟨after,ok,infos,nexts,prevs⟩ := linkOnly_views at_head' at_new apart
  exact ⟨after,ok,split_insert split fresh full rfl infos nexts prevs⟩

theorem linkFirst_split (split : Split heap head [] used) (fresh : heap addr = none) (full : info.isUsed = true)
    (begin : (addrs used ++ [head]).head? = some cur) :
    ∃ after, linkFirst (allocate heap addr info) head addr cur = some after ∧
      Split after head [] ((addr,info)::used) := by
  obtain ⟨there,at_head⟩ := split.at_head
  have apart := split_fresh split fresh
  have there_cur : ∃ next, infoOf (allocate heap addr info) cur = some next := by
    rw [infoOf_allocate,Function.update_apply]
    split
    · exact ⟨info,rfl⟩
    · cases used with
      | nil =>
        cases Option.some.inj begin
        exact ⟨there,at_head⟩
      | cons cell used =>
        cases Option.some.inj begin
        exact ⟨cell.2,(split.circle (List.cons_ne_nil _ _)).infos cell List.mem_cons_self⟩
  obtain ⟨next,at_cur⟩ := there_cur
  have at_head' : infoOf (allocate heap addr info) head = some there := by
    rw [infoOf_allocate,Function.update_of_ne apart.symm,at_head]
  have at_new : infoOf (allocate heap addr info) addr = some info := by
    rw [infoOf_allocate,Function.update_self]
  obtain ⟨after,ok,infos,nexts,prevs⟩ := linkFirst_views at_head' at_new at_cur apart
  exact ⟨after,ok,split_insert split fresh full begin infos nexts prevs⟩

/-- A call that fails changes nothing, and any other adds the unit behind those in the list. -/
def Saved (heap : Units) (head : Nat) (used : List (Cell DwldUnitInfo)) (info : DwldUnitInfo)
    (result : Int × Units) : Prop :=
  (result.1 ≠ 0 ∧ result.2 = heap) ∨
    result.1 = 0 ∧ ∃ unused addr, Split result.2 head unused ((addr,info)::used)

theorem saveBefore_saved (info : DwldUnitInfo) {malloc : Option Nat} (split : Split heap head unused used)
    (some_node : unused ++ used ≠ []) (full : info.isUsed = true)
    (begin : (addrs used ++ [head]).head? = some cur) (fresh : ∀ addr ∈ malloc, heap addr = none) :
    ∃ result, saveBefore heap head info malloc cur = some result ∧ Saved heap head used info result ∧
      (malloc ≠ none → result.1 = 0) := by
  have circle := split.circle some_node
  have there : ∃ node, heap cur = some node := by
    obtain ⟨first,at_head⟩ := split.at_head
    cases used with
    | nil =>
      cases Option.some.inj begin
      obtain ⟨node,found,_⟩ := infoOf_some.mp at_head
      exact ⟨node,found⟩
    | cons cell used =>
      cases Option.some.inj begin
      obtain ⟨node,found,_⟩ := infoOf_some.mp (circle.infos cell (by simp))
      exact ⟨node,found⟩
  obtain ⟨node,found⟩ := there
  cases unused using List.reverseRecOn with
  | nil =>
    have prev : node.prev = some head := by
      rw [← prevOf_of_node found]
      exact (circle_seam circle rfl begin).2
    simp only [saveBefore,found,prev,Option.bind_eq_bind,Option.bind_some,if_pos]
    cases malloc with
    | none => exact ⟨(-4,heap),rfl,.inl ⟨show (-4 : Int) ≠ 0 by decide,rfl⟩,fun memory => absurd rfl memory⟩
    | some addr =>
      obtain ⟨after,ok,split⟩ := linkFirst_split split (fresh addr rfl) full begin
      exact ⟨(0,after),by simp only [ok]; rfl,.inr ⟨rfl,[],addr,split⟩,fun _ => rfl⟩
  | append_singleton front cell =>
    obtain ⟨addr,old⟩ := cell
    have prev : node.prev = some addr := by
      rw [← prevOf_of_node found]
      refine (circle_seam circle ?_ begin).2
      rw [addrs,List.map_append,← List.cons_append]
      exact List.getLast?_concat
    have whole : front ++ [(addr,old)] ++ used = front ++ (addr,old) :: used := by
      rw [List.append_assoc,List.singleton_append]
    rw [whole] at circle
    have apart : addr ≠ head := by
      rintro rfl
      exact (List.nodup_cons.mp circle.nodup).1 (by simp [addrs])
    have here : infoOf heap addr = some old := circle.infos (addr,old) (by simp)
    obtain ⟨after,ok,infos,nexts,prevs⟩ := setInfo_views info here
    refine ⟨(0,after),?_,.inr ⟨rfl,front,addr,?_⟩,fun _ => rfl⟩
    · simp only [saveBefore,found,prev,ok,Option.bind_eq_bind,Option.bind_some,if_neg apart]
      rfl
    · refine ⟨?_,fun absent => (by simp at absent),fun _ => circle_info circle infos nexts prevs,
        fun cell member => split.free cell (List.mem_append_left _ member),?_⟩
      · obtain ⟨first,at_head⟩ := split.at_head
        exact ⟨first,by rw [infos,Function.update_of_ne apart.symm,at_head]⟩
      · intro cell member
        rcases List.mem_cons.mp member with rfl | before
        · exact full
        · exact split.full cell before

/-- The search ends, and however many turns it is given, a call that ends has saved the unit
or has changed nothing. -/
theorem save_saved {stop : Bool} {malloc : Option Nat} (split : Split heap head unused used)
    (fresh : ∀ addr ∈ malloc, heap addr = none) :
    (∃ turns, (saveDataToBuffer stop heap head header body malloc turns).isSome = true) ∧
      ∀ turns outcome, saveDataToBuffer stop heap head header body malloc turns = some outcome →
        ∃ result, outcome = some result ∧ Saved heap head used (unitInfo header body) result ∧
          (stop = false → malloc ≠ none → result.1 = 0) := by
  cases stop with
  | true =>
    refine ⟨⟨0,rfl⟩,fun turns outcome ok => ⟨(-2,heap),?_,.inl ⟨show (-2 : Int) ≠ 0 by decide,rfl⟩,nofun⟩⟩
    exact (Option.some.inj ok).symm
  | false =>
    obtain ⟨first,at_head⟩ := split.at_head
    obtain ⟨node,found,_⟩ := infoOf_some.mp at_head
    by_cases no_node : unused ++ used = []
    · obtain ⟨no_next,no_prev⟩ := split.empty no_node
      obtain ⟨rfl,rfl⟩ := List.append_eq_nil_iff.mp no_node
      have free : node.next = none ∧ node.prev = none :=
        ⟨by rw [← nextOf_of_node found,no_next],by rw [← prevOf_of_node found,no_prev]⟩
      simp only [saveDataToBuffer,found,if_pos free,Bool.false_eq_true,if_false]
      cases malloc with
      | none =>
        refine ⟨⟨0,rfl⟩,fun _ outcome ok => ⟨(-3,heap),?_,.inl ⟨show (-3 : Int) ≠ 0 by decide,rfl⟩,
          fun _ memory => absurd rfl memory⟩⟩
        exact (Option.some.inj ok).symm
      | some addr =>
        obtain ⟨after,linked,split⟩ := linkOnly_split (unitInfo header body) split (fresh addr rfl) rfl
        refine ⟨⟨0,rfl⟩,fun _ outcome ok => ⟨(0,after),?_,.inr ⟨rfl,[],addr,split⟩,fun _ _ => rfl⟩⟩
        rw [← Option.some.inj ok,linked,Option.map_some]
    · have circle := split.circle no_node
      have search := circle_find DwldUnitInfo.isUsed circle split.free split.full
      obtain ⟨cur,begin⟩ : ∃ cur, (addrs used ++ [head]).head? = some cur := by
        cases used with
        | nil => exact ⟨head,rfl⟩
        | cons cell used => exact ⟨cell.1,rfl⟩
      obtain ⟨result,ok,saved,memory⟩ := saveBefore_saved (unitInfo header body) split no_node rfl begin fresh
      have linked : ¬ (node.next = none ∧ node.prev = none) := by
        rintro ⟨no_next,_⟩
        have none_found := search
        rw [nextOf_of_node found,no_next,begin] at none_found
        cases returns_unique none_found (returns_done rfl)
      rw [nextOf_of_node found,begin] at search
      simp only [saveDataToBuffer,found,if_neg linked,Bool.false_eq_true,if_false]
      obtain ⟨turns,ended⟩ := search
      refine ⟨⟨turns,by rw [ended]; rfl⟩,fun others outcome finished => ⟨result,?_,saved,fun _ => memory⟩⟩
      obtain ⟨link,there,same⟩ := Option.map_eq_some_iff.mp finished
      cases returns_unique ⟨others,there⟩ ⟨turns,ended⟩
      rw [← same,Option.bind_some,ok]

end Save

section Take

variable {heap : Units} {head addr : Nat} {info : DwldUnitInfo} {unused used : List (Cell DwldUnitInfo)}

theorem circle_last {cells : List (Cell DwldUnitInfo)} (circle : Circle heap head (cells ++ [(addr,info)])) :
    prevOf heap head = some addr ∧ infoOf heap addr = some info := by
  refine ⟨?_,circle.infos (addr,info) (by simp)⟩
  have line := circle
  rw [← List.append_nil (cells ++ [(addr,info)])] at line
  refine (circle_seam line ?_ rfl).2
  rw [addrs,List.map_append,← List.cons_append]
  exact List.getLast?_concat

theorem take_nothing (split : Split heap head unused []) : takeUnit heap head = some (none,heap) := by
  obtain ⟨first,at_head⟩ := split.at_head
  obtain ⟨node,found,_⟩ := infoOf_some.mp at_head
  cases unused using List.reverseRecOn with
  | nil =>
    have no_prev : node.prev = none := by
      rw [← prevOf_of_node found]
      exact (split.empty rfl).2
    simp only [takeUnit,found,no_prev,Option.bind_eq_bind,Option.bind_some]
    rfl
  | append_singleton front cell =>
    have circle := split.circle (by simp)
    rw [List.append_nil] at circle
    obtain ⟨prev,here⟩ := circle_last circle
    rw [prevOf_of_node found] at prev
    obtain ⟨last,there,same⟩ := infoOf_some.mp here
    have free : last.info.isUsed = false := by
      rw [same]
      exact split.free cell (by simp)
    simp only [takeUnit,found,prev,there,if_pos free,Option.bind_eq_bind,Option.bind_some]
    rfl

theorem take_oldest (split : Split heap head unused (used ++ [(addr,info)])) :
    ∃ after, takeUnit heap head = some (some info,after) ∧
      Split after head ((addr,info.recycled)::unused) used := by
  obtain ⟨first,at_head⟩ := split.at_head
  obtain ⟨node,found,_⟩ := infoOf_some.mp at_head
  have circle := split.circle (by simp)
  rw [← List.append_assoc] at circle
  obtain ⟨prev,here⟩ := circle_last circle
  rw [prevOf_of_node found] at prev
  obtain ⟨last,there,same⟩ := infoOf_some.mp here
  have full : last.info.isUsed ≠ false := by
    rw [same,split.full (addr,info) (by simp)]
    decide
  have apart : addr ≠ head := by
    rintro rfl
    exact (List.nodup_cons.mp circle.nodup).1 (by simp [addrs])
  obtain ⟨one,set_one,info_one,next_one,prev_one⟩ :=
    setInfo_views last.info.recycled here
  have emptied : Circle one head (unused ++ used ++ [(addr,last.info.recycled)]) :=
    circle_info circle info_one next_one prev_one
  have at_head' : infoOf one head = some first := by
    rw [info_one,Function.update_of_ne apart.symm,at_head]
  have free : ∀ cell ∈ (addr,info.recycled)::unused, cell.2.isUsed = false := by
    intro cell member
    rcases List.mem_cons.mp member with rfl | before
    · rfl
    · exact split.free cell before
  have full' : ∀ cell ∈ used, cell.2.isUsed = true := fun cell member =>
    split.full cell (List.mem_append_left _ member)
  rw [same] at set_one emptied full
  cases others : unused ++ used with
  | nil =>
    obtain ⟨rfl,rfl⟩ := List.append_eq_nil_iff.mp others
    have next : node.next = some addr := by
      rw [← nextOf_of_node found]
      exact (List.isChain_cons_cons.mp circle.links).1.1
    refine ⟨one,?_,⟨first,at_head'⟩,fun absent => (List.cons_ne_nil _ _ absent).elim,fun _ => emptied,free,full'⟩
    simp only [takeUnit,found,prev,there,same,if_neg full,set_one,next,Option.bind_eq_bind,Option.bind_some,
      if_pos]
    rfl
  | cons cell cells =>
    have next : node.next = some cell.1 := by
      rw [← nextOf_of_node found]
      rw [others] at circle
      exact (List.isChain_cons_cons.mp circle.links).1.1
    obtain ⟨before,ending⟩ : ∃ before, (addrs (unused ++ used)).getLast? = some before :=
      ⟨_,List.getLast?_eq_some_getLast (by simp [others,addrs])⟩
    have begin : (addrs (unused ++ used)).head? = some cell.1 := by
      rw [others]
      rfl
    have prev_last : last.prev = some before := by
      rw [← prevOf_of_node there]
      refine (circle_seam circle ?_ rfl).2
      rw [← ending,others]
      exact List.getLast?_cons_cons
    obtain ⟨head_out,once⟩ := List.nodup_cons.mp circle.nodup
    rw [addrs,List.map_append,← addrs] at head_out once
    have inside : ∀ other ∈ addrs (unused ++ used), other ≠ head ∧ other ≠ addr ∧
        ∃ there, infoOf one other = some there := by
      intro other member
      refine ⟨?_,(List.nodup_append.mp once).2.2 other member addr (by simp),?_⟩
      · rintro rfl
        exact head_out (List.mem_append_left _ member)
      · obtain ⟨cell,within,rfl⟩ := List.mem_map.mp member
        exact ⟨cell.2,emptied.infos cell (List.mem_append_left _ within)⟩
    obtain ⟨first_head,first_addr,_,at_first⟩ := inside cell.1 (List.mem_of_head? begin)
    obtain ⟨last_head,last_addr,_,at_last⟩ := inside before (List.mem_of_getLast? ending)
    obtain ⟨after,moved,infos,nexts,prevs⟩ := moveFirst_views at_head' (emptied.infos (addr,info.recycled) (by simp)) at_last at_first
      apart last_head last_addr first_head first_addr
    have turned := circle_rotate emptied begin ending infos nexts prevs
    have several : ¬ some addr = some cell.1 := fun equal => first_addr (Option.some.inj equal).symm
    refine ⟨after,?_,⟨first,by rw [infos,at_head']⟩,fun absent => (List.cons_ne_nil _ _ absent).elim,
      fun _ => turned,free,full'⟩
    simp only [takeUnit,found,prev,there,same,if_neg full,set_one,next,if_neg several,prev_last,moved,
      Option.bind_eq_bind,Option.bind_some]
    rfl

end Take

/-- The units that are still to be taken, the oldest first. -/
def unread (used : List (Cell DwldUnitInfo)) : List DwldUnitInfo := (used.map Prod.snd).reverse

/-- What has been saved is what has been taken and, behind it, what the used nodes hold. -/
def Ordered (state : State) : Prop :=
  state.fault = false ∧ ∃ unused used, Split state.heap state.pDwldUnitListHead unused used ∧
    state.saved = state.taken ++ unread used

section Runs

variable {state : State} {event : Event} {head : Nat} {info : DwldUnitInfo}

theorem start_split (head : Nat) (info : DwldUnitInfo) : Split (allocate (fun _ => none) head info) head [] [] := by
  refine ⟨⟨info,?_⟩,fun _ => ⟨?_,?_⟩,fun absent => (absent rfl).elim,?_,?_⟩
  · exact congrFun infoOf_allocate head |>.trans (Function.update_self ..)
  · exact congrFun nextOf_allocate head |>.trans (Function.update_self ..)
  · exact congrFun prevOf_allocate head |>.trans (Function.update_self ..)
  · exact fun _ absent => (List.not_mem_nil absent).elim
  · exact fun _ absent => (List.not_mem_nil absent).elim

theorem start_ordered (head : Nat) (info : DwldUnitInfo) : Ordered (start head info) :=
  ⟨rfl,[],[],start_split head info,rfl⟩

theorem save_ordered {header : DataHeader} {body : List UInt8} {malloc : Option Nat} {turns : Nat}
    (ordered : Ordered state) (enabled : unitSystem.Enabled state (.save header body malloc turns)) :
    Ordered (unitSystem.next state (.save header body malloc turns)) := by
  obtain ⟨no_fault,unused,used,split,order⟩ := ordered
  obtain ⟨fresh,ended⟩ := enabled
  have free : ∀ addr ∈ malloc, state.heap addr = none := by
    rintro addr rfl
    exact Option.isNone_iff_eq_none.mp fresh
  obtain ⟨outcome,ok⟩ := Option.isSome_iff_exists.mp ended
  obtain ⟨⟨ret,after⟩,rfl,saved,_⟩ := (save_saved split free).2 turns outcome ok
  change Ordered (state.save header body _)
  rw [ok]
  rcases saved with ⟨failed,kept⟩ | ⟨done,unused,addr,split⟩
  · refine ⟨no_fault,unused,used,?_,?_⟩
    · change Split after _ _ _
      rw [show after = state.heap from kept]
      exact split
    · change state.saved ++ (if ret = 0 then _ else _) = _
      rw [if_neg failed,List.append_nil,order]
      rfl
  · refine ⟨no_fault,unused,(addr,unitInfo header body)::used,split,?_⟩
    change state.saved ++ (if ret = 0 then _ else _) = state.taken ++ _
    rw [if_pos done,order,unread,unread,List.map_cons,List.reverse_cons,List.append_assoc]

/-- With memory for it, a unit is saved until the thread is told to stop. -/
theorem save_done {header : DataHeader} {body : List UInt8} {malloc : Option Nat} {turns : Nat}
    (ordered : Ordered state) (enabled : unitSystem.Enabled state (.save header body malloc turns))
    (runs : state.isStopWriteFileThr = false) (memory : malloc ≠ none) :
    (unitSystem.next state (.save header body malloc turns)).saved = state.saved ++ [unitInfo header body] := by
  obtain ⟨no_fault,unused,used,split,order⟩ := ordered
  obtain ⟨fresh,ended⟩ := enabled
  have free : ∀ addr ∈ malloc, state.heap addr = none := by
    rintro addr rfl
    exact Option.isNone_iff_eq_none.mp fresh
  obtain ⟨outcome,ok⟩ := Option.isSome_iff_exists.mp ended
  obtain ⟨⟨ret,after⟩,rfl,_,zero⟩ := (save_saved split free).2 turns outcome ok
  have done : ret = 0 := zero runs memory
  change (state.save header body _).saved = _
  rw [ok]
  change state.saved ++ (if ret = 0 then _ else _) = _
  rw [if_pos done]

theorem take_ordered (ordered : Ordered state) : Ordered (unitSystem.next state .take) ∧
    ∀ unit rest, state.saved = state.taken ++ unit :: rest →
      (unitSystem.next state .take).taken = state.taken ++ [unit] := by
  obtain ⟨no_fault,unused,used,split,order⟩ := ordered
  change Ordered (state.take _) ∧ ∀ unit rest, _ → (state.take _).taken = _
  cases used using List.reverseRecOn with
  | nil =>
    rw [take_nothing split]
    have same : (state.take (some (none,state.heap))).taken = state.taken := List.append_nil _
    refine ⟨⟨no_fault,unused,[],split,?_⟩,fun unit rest more => ?_⟩
    · rw [same]
      exact order
    · rw [order] at more
      exact absurd (List.append_cancel_left more) (by simp [unread])
  | append_singleton front cell =>
    obtain ⟨after,ok,split⟩ := take_oldest split
    rw [ok]
    have oldest : unread (front ++ [cell]) = cell.2 :: unread front := by simp [unread]
    rw [oldest] at order
    refine ⟨⟨no_fault,_,front,split,?_⟩,fun unit rest more => ?_⟩
    · change state.saved = state.taken ++ [cell.2] ++ unread front
      rw [order,List.append_assoc,List.singleton_append]
    · rw [order] at more
      cases List.append_cancel_left more
      rfl

theorem run_ordered (run : unitSystem.Run anyEvent (start head info) state) : Ordered state := by
  refine run_invariant (start_ordered head info) ?_ run
  intro state event ordered enabled _
  cases event with
  | save header body malloc turns => exact save_ordered ordered enabled
  | take => exact (take_ordered ordered).1
  | stop => exact ordered

/-- The list is always a run of unused nodes in front of used ones, linked both ways, and the
units are taken in the order they were saved; no search goes on for ever and a unit that is
in the list is the next one taken. -/
theorem unitList_fifo (run : unitSystem.Run anyEvent (start head info) state) :
    Ordered state ∧
      (∀ header body malloc, (∀ addr ∈ malloc, state.heap addr = none) →
        ∃ turns, unitSystem.Enabled state (.save header body malloc turns)) ∧
      ∀ unit rest, state.saved = state.taken ++ unit :: rest →
        (unitSystem.next state .take).taken = state.taken ++ [unit] := by
  have ordered := run_ordered run
  refine ⟨ordered,fun header body malloc fresh => ?_,(take_ordered ordered).2⟩
  obtain ⟨_,unused,used,split,_⟩ := ordered
  obtain ⟨turns,ended⟩ : ∃ turns,
      (saveDataToBuffer state.isStopWriteFileThr state.heap state.pDwldUnitListHead header body malloc turns).isSome =
        true := (save_saved split fresh).1
  refine ⟨turns,?_,ended⟩
  cases malloc with
  | none => rfl
  | some addr => exact Option.isNone_iff_eq_none.mpr (fresh addr rfl)

def zeroUnit : DwldUnitInfo := ⟨false,false,0,0,[]⟩

def oneByteHeader (unitId : Int) : DataHeader := ⟨markDwld,0,false,unitId,1⟩

/-- Two units one after the other, and a third in the node of the first. -/
def threeUnits : List Event :=
  [.save (oneByteHeader 0) [7] (some 1) 0,.save (oneByteHeader 1) [8] (some 2) 1,.take,
    .save (oneByteHeader 2) [9] none 2,.take]

theorem unitList_fifo_threeUnits :
    Ordered (threeUnits.foldl unitSystem.next (start 0 zeroUnit)) ∧
      (∀ header body malloc,
        (∀ addr ∈ malloc, (threeUnits.foldl unitSystem.next (start 0 zeroUnit)).heap addr = none) →
          ∃ turns, unitSystem.Enabled (threeUnits.foldl unitSystem.next (start 0 zeroUnit))
            (.save header body malloc turns)) ∧
      ∀ unit rest, (threeUnits.foldl unitSystem.next (start 0 zeroUnit)).saved =
          (threeUnits.foldl unitSystem.next (start 0 zeroUnit)).taken ++ unit :: rest →
        (unitSystem.next (threeUnits.foldl unitSystem.next (start 0 zeroUnit)) .take).taken =
          (threeUnits.foldl unitSystem.next (start 0 zeroUnit)).taken ++ [unit] :=
  unitList_fifo (run_of_events (by decide) .start)

end Runs

end MoCodes.MoCloud.Client.UnitList
