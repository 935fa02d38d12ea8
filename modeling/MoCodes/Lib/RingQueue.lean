import MoCodes.Lib.Ring

/-! Queues that are rings around a head node, whose links are NULL while nothing hangs there. A
list that is to be put in as a whole has the same shape around its first node. -/
namespace MoCodes.Lib.RingQueue
open MoCodes.Lib.Loop MoCodes.Lib.Ring

variable {α : Type}

section Memory

def free (heap : Heap α) (addr : Nat) : Heap α := Function.update heap addr none

def freeAll (heap : Heap α) (line : List Nat) : Heap α := line.foldl free heap

/-- Both links are set to NULL. -/
def unlink (heap : Heap α) (addr : Nat) : Option (Heap α) :=
  (heap addr).map fun node => Function.update heap addr (some { node with next := none, prev := none })

variable {heap : Heap α} {addr other : Nat} {info : α} {line : List Nat}

theorem unlink_views (here : infoOf heap addr = some info) : ∃ after, unlink heap addr = some after ∧
    infoOf after = infoOf heap ∧ nextOf after = Function.update (nextOf heap) addr none ∧
    prevOf after = Function.update (prevOf heap) addr none := by
  obtain ⟨node,found,_⟩ := infoOf_some.mp here
  refine ⟨_,by rw [unlink,found,Option.map_some],?_,?_,?_⟩ <;>
    (funext other; by_cases same : other = addr <;> simp [infoOf,nextOf,prevOf,same,found])

theorem freeAll_apply : freeAll heap line addr = if addr ∈ line then none else heap addr := by
  induction line generalizing heap with
  | nil => simp [freeAll]
  | cons first line ih =>
    have step : freeAll heap (first :: line) = freeAll (free heap first) line := rfl
    rw [step,ih]
    by_cases same : addr = first
    · simp [free,same]
    · simp [free,same]

theorem infoOf_freeAll : infoOf (freeAll heap line) addr = if addr ∈ line then none else infoOf heap addr := by
  rw [infoOf,freeAll_apply]
  split_ifs <;> rfl

end Memory

/-- From the head through the cells, and from the last of them back to the head. -/
structure Hung (heap : Heap α) (head : Nat) (cells : List (Cell α)) : Prop where
  line : List.IsChain (Linked heap) (head :: addrs cells)
  back : ∀ last ∈ (addrs cells).getLast?, Linked heap last head
  idle : cells = [] → nextOf heap head = none ∧ prevOf heap head = none
  there : (infoOf heap head).isSome
  infos : ∀ cell ∈ cells, infoOf heap cell.1 = some cell.2
  nodup : (head :: addrs cells).Nodup

section Shapes

variable {heap after : Heap α} {head first last addr : Nat} {cells rest : List (Cell α)} {info : α} {cell : Cell α}

/-- What hangs at a head is a circle, with links that are inverse to each other. -/
theorem hung_circle (hung : Hung heap head cells) (some_cell : cells ≠ []) : Circle heap head cells where
  links := by
    have last := List.getLast?_eq_some_getLast (l := addrs cells) (by simpa [addrs] using some_cell)
    rw [← List.cons_append,List.isChain_append]
    refine ⟨hung.line,.singleton _,?_⟩
    intro one ending other begin
    cases begin
    apply hung.back
    rw [List.getLast?_cons,last] at ending
    rw [last]
    exact ending
  infos := hung.infos
  nodup := hung.nodup

theorem hung_prev (hung : Hung heap head cells) : prevOf heap head = (addrs cells).getLast? := by
  rcases List.eq_nil_or_concat' cells with rfl | ⟨front,cell,rfl⟩
  · exact (hung.idle rfl).2
  · have last : (addrs (front ++ [cell])).getLast? = some cell.1 := by simp [addrs]
    rw [last]
    exact (hung.back _ last).2

theorem hung_next (hung : Hung heap head cells) : nextOf heap head = (addrs cells).head? := by
  cases cells with
  | nil => exact (hung.idle rfl).1
  | cons cell cells => exact (List.isChain_cons_cons.mp hung.line).1.1

theorem hung_info (hung : Hung heap head cells) (inside : addr ∈ head :: addrs cells) :
    (infoOf heap addr).isSome := by
  rcases List.mem_cons.mp inside with rfl | member
  · exact hung.there
  · obtain ⟨cell,found,rfl⟩ := List.mem_map.mp member
    rw [hung.infos cell found]
    rfl

theorem node_congr (info : infoOf after addr = infoOf heap addr) (next : nextOf after addr = nextOf heap addr)
    (prev : prevOf after addr = prevOf heap addr) : after addr = heap addr := by
  cases here : after addr with
  | none =>
    cases there : heap addr with
    | none => rfl
    | some node => simp [infoOf,here,there] at info
  | some node =>
    cases there : heap addr with
    | none => simp [infoOf,here,there] at info
    | some other =>
      obtain ⟨_,_,_⟩ := node
      obtain ⟨_,_,_⟩ := other
      simp_all [infoOf,nextOf,prevOf]

theorem node_of_info (there : (infoOf heap addr).isSome) : ∃ node, heap addr = some node ∧
    node.next = nextOf heap addr ∧ node.prev = prevOf heap addr := by
  obtain ⟨info,found⟩ := Option.isSome_iff_exists.mp there
  obtain ⟨node,here,_⟩ := infoOf_some.mp found
  exact ⟨node,here,(nextOf_of_node here).symm,(prevOf_of_node here).symm⟩

theorem hung_frame (hung : Hung heap head cells) (same : ∀ addr ∈ head :: addrs cells,
      infoOf after addr = infoOf heap addr ∧ nextOf after addr = nextOf heap addr ∧
        prevOf after addr = prevOf heap addr) : Hung after head cells where
  line := chain_frame (fun addr member => (same addr ((List.dropLast_sublist _).subset member)).2.1)
    (fun addr member => (same addr (List.mem_of_mem_tail member)).2.2) hung.line
  back last ending := by
    have linked := hung.back last ending
    have inside := List.mem_cons_of_mem head (List.mem_of_getLast? ending)
    exact ⟨(same last inside).2.1.trans linked.1,(same head List.mem_cons_self).2.2.trans linked.2⟩
  idle none := by
    obtain ⟨_,next,prev⟩ := same head List.mem_cons_self
    rw [next,prev]
    exact hung.idle none
  there := by
    rw [(same head List.mem_cons_self).1]
    exact hung.there
  infos cell member := by
    rw [(same cell.1 (List.mem_cons_of_mem _ (List.mem_map_of_mem member))).1]
    exact hung.infos cell member
  nodup := hung.nodup

/-- A list is put in behind the last node: the four links at the seams change and no others. -/
theorem hung_splice {rear : Nat} (front : Hung heap head cells) (more : Hung heap first rest)
    (here : infoOf heap first = some info) (apart : ∀ addr ∈ head :: addrs cells, addr ∉ first :: addrs rest)
    (ending : (head :: addrs cells).getLast? = some last) (tail : (first :: addrs rest).getLast? = some rear)
    (info_after : infoOf after = infoOf heap)
    (next_after : ∀ addr, nextOf after addr =
      if addr = last then some first else if addr = rear then some head else nextOf heap addr)
    (prev_after : ∀ addr, prevOf after addr =
      if addr = first then some last else if addr = head then some rear else prevOf heap addr) :
    Hung after head (cells ++ (first,info) :: rest) := by
  have last_in := List.mem_of_getLast? ending
  have rear_in := List.mem_of_getLast? tail
  have whole : addrs (cells ++ (first,info) :: rest) = addrs cells ++ first :: addrs rest := by simp [addrs]
  have one : List.IsChain (Linked after) (head :: addrs cells) := by
    refine chain_frame (fun addr member => ?_) (fun addr member => ?_) front.line
    · have inside := (List.dropLast_sublist _).subset member
      have not_last : addr ≠ last := by
        rintro rfl
        have split := List.dropLast_append_getLast? addr ending
        have distinct := front.nodup
        rw [← split] at distinct
        exact (List.nodup_append.mp distinct).2.2 addr member addr (by simp) rfl
      have not_rear : addr ≠ rear := fun same => apart addr inside (same ▸ rear_in)
      rw [next_after,if_neg not_last,if_neg not_rear]
    · have not_first : addr ≠ first := by
        rintro rfl
        exact apart addr (List.mem_of_mem_tail member) List.mem_cons_self
      have not_head : addr ≠ head := by
        rintro rfl
        exact (List.nodup_cons.mp front.nodup).1 member
      rw [prev_after,if_neg not_first,if_neg not_head]
  have two : List.IsChain (Linked after) (first :: addrs rest) := by
    refine chain_frame (fun addr member => ?_) (fun addr member => ?_) more.line
    · have inside := (List.dropLast_sublist _).subset member
      have not_last : addr ≠ last := fun same => apart last last_in (same ▸ inside)
      have not_rear : addr ≠ rear := by
        rintro rfl
        have split := List.dropLast_append_getLast? addr tail
        have distinct := more.nodup
        rw [← split] at distinct
        exact (List.nodup_append.mp distinct).2.2 addr member addr (by simp) rfl
      rw [next_after,if_neg not_last,if_neg not_rear]
    · have not_first : addr ≠ first := by
        rintro rfl
        exact (List.nodup_cons.mp more.nodup).1 member
      have not_head : addr ≠ head := by
        rintro rfl
        exact apart addr List.mem_cons_self (List.mem_of_mem_tail member)
      rw [prev_after,if_neg not_first,if_neg not_head]
  refine ⟨?_,?_,?_,?_,?_,?_⟩
  · rw [whole,← List.cons_append,List.isChain_append]
    refine ⟨one,two,?_⟩
    intro left left_last right right_first
    obtain rfl := Option.some.inj (ending.symm.trans left_last)
    obtain rfl := Option.some.inj right_first
    exact ⟨by rw [next_after,if_pos rfl],by rw [prev_after,if_pos rfl]⟩
  · intro final final_last
    rw [whole,List.getLast?_append_of_ne_nil _ (List.cons_ne_nil _ _),tail] at final_last
    obtain rfl := Option.some.inj final_last
    have not_last : rear ≠ last := fun same => apart last last_in (same ▸ rear_in)
    have not_first : head ≠ first := by
      rintro rfl
      exact apart head List.mem_cons_self List.mem_cons_self
    exact ⟨by rw [next_after,if_neg not_last,if_pos rfl],by rw [prev_after,if_neg not_first,if_pos rfl]⟩
  · intro none
    simp at none
  · rw [info_after]
    exact front.there
  · intro cell member
    rw [info_after]
    rcases List.mem_append.mp member with old | new
    · exact front.infos cell old
    · rcases List.mem_cons.mp new with rfl | later
      · exact here
      · exact more.infos cell later
  · rw [whole,← List.cons_append]
    exact List.nodup_append.mpr ⟨front.nodup,more.nodup,fun addr inside other member same =>
      apart addr inside (same ▸ member)⟩

/-- The first of several cells is taken out. -/
theorem hung_tail {second : Nat} (hung : Hung heap head (cell :: cells)) (begin : (addrs cells).head? = some second)
    (info_after : infoOf after = infoOf heap)
    (next_after : nextOf after = Function.update (nextOf heap) head (some second))
    (prev_after : prevOf after = Function.update (prevOf heap) second (some head)) : Hung after head cells := by
  cases cells with
  | nil => cases begin
  | cons next cells =>
    obtain rfl : next.1 = second := Option.some.inj begin
    obtain ⟨head_out,different⟩ := List.nodup_cons.mp hung.nodup
    have distinct : (head :: addrs (next :: cells)).Nodup :=
      List.nodup_cons.mpr ⟨fun member => head_out (List.mem_cons_of_mem _ member),(List.nodup_cons.mp different).2⟩
    obtain ⟨_,rest⟩ := List.isChain_cons_cons.mp hung.line
    obtain ⟨_,line⟩ := List.isChain_cons_cons.mp rest
    have inner : List.IsChain (Linked after) (addrs (next :: cells)) := by
      refine chain_frame (fun addr member => ?_) (fun addr member => ?_) line
      · have apart : addr ≠ head := by
          rintro rfl
          exact (List.nodup_cons.mp distinct).1 ((List.dropLast_sublist _).subset member)
        rw [next_after,Function.update_of_ne apart]
      · have apart : addr ≠ next.1 := by
          rintro rfl
          exact (List.nodup_cons.mp (List.nodup_cons.mp distinct).2).1 member
        rw [prev_after,Function.update_of_ne apart]
    refine ⟨.cons_cons ⟨?_,?_⟩ inner,?_,?_,?_,?_,distinct⟩
    · rw [next_after,Function.update_self]
    · rw [prev_after,Function.update_self]
    · intro last ending
      have inside := List.mem_of_getLast? ending
      have linked := hung.back last (by
        have longer : addrs (cell :: next :: cells) = cell.1 :: addrs (next :: cells) := rfl
        rw [longer,List.getLast?_cons,ending]
        rfl)
      have not_head : last ≠ head := by
        rintro rfl
        exact (List.nodup_cons.mp distinct).1 inside
      have not_next : head ≠ next.1 := by
        rintro rfl
        exact (List.nodup_cons.mp distinct).1 List.mem_cons_self
      exact ⟨by rw [next_after,Function.update_of_ne not_head]; exact linked.1,
        by rw [prev_after,Function.update_of_ne not_next]; exact linked.2⟩
    · intro none
      cases none
    · rw [info_after]
      exact hung.there
    · intro other member
      rw [info_after]
      exact hung.infos other (List.mem_cons_of_mem _ member)

theorem hung_of_same (hung : Hung heap head cells) (same : ∀ addr ∈ head :: addrs cells, after addr = heap addr) :
    Hung after head cells := by
  refine hung_frame hung fun addr member => ?_
  simp [infoOf,nextOf,prevOf,same addr member]

theorem hung_nil (there : (infoOf after head).isSome) (next : nextOf after head = none)
    (prev : prevOf after head = none) : Hung after head ([] : List (Cell α)) where
  line := .singleton _
  back last ending := by cases ending
  idle _ := ⟨next,prev⟩
  there := there
  infos cell member := by cases member
  nodup := by simp [addrs]

theorem hung_allocate : Hung (allocate heap addr info) addr ([] : List (Cell α)) := by
  apply hung_nil
  · simp [infoOf_allocate]
  · simp [nextOf_allocate]
  · simp [prevOf_allocate]

end Shapes

section Walk

/-- `while(link != NULL && link != stop)`: the next link is read and the node is freed. A node that
is read or freed while it is not allocated is a fault. -/
def freeBody (stop : Option Nat) (state : Heap α × Option Nat) :
    Outcome (Heap α × Option Nat) (Option (Heap α)) :=
  match state.2 with
  | none => .done (some state.1)
  | some addr =>
    if some addr = stop then .done (some state.1)
    else
      match state.1 addr with
      | none => .done none
      | some node => .next (free state.1 addr,node.next)

variable {heap : Heap α} {stop link : Option Nat}

/-- The walk along a line of nodes frees them all and comes to where the last of them leads. -/
theorem run_freeBody {line : List Nat} (links : List.IsChain (fun one other => nextOf heap one = some other) line)
    (ending : ∀ last ∈ line.getLast?, nextOf heap last = link) (there : ∀ addr ∈ line, (heap addr).isSome)
    (distinct : line.Nodup) (goes : ∀ addr ∈ line, some addr ≠ stop) (turns : Nat) :
    run (freeBody stop) (line.length+turns) (heap,line.head?.or link) =
      run (freeBody stop) turns (freeAll heap line,link) := by
  induction line generalizing heap with
  | nil => simp [freeAll]
  | cons addr line ih =>
    obtain ⟨node,found⟩ := Option.isSome_iff_exists.mp (there addr List.mem_cons_self)
    obtain ⟨out,different⟩ := List.nodup_cons.mp distinct
    have follows : node.next = line.head?.or link := by
      rw [← nextOf_of_node found]
      cases line with
      | nil => exact ending addr rfl
      | cons other line => exact (List.isChain_cons_cons.mp links).1
    have step : freeBody stop (heap,(addr :: line).head?.or link) = .next (free heap addr,node.next) := by
      simp [freeBody,found,goes addr List.mem_cons_self]
    have other {one : Nat} (member : one ∈ line) : free heap addr one = heap one := by
      have apart : one ≠ addr := by
        rintro rfl
        exact out member
      exact Function.update_of_ne apart ..
    have length : (addr :: line).length+turns = (line.length+turns)+1 := by
      rw [List.length_cons]
      omega
    rw [length,run_next step,follows,ih]
    · rfl
    · refine List.IsChain.imp_of_mem_imp (fun one _ member _ linked => ?_) links.tail
      rw [nextOf,other member]
      exact linked
    · intro last last_in
      rw [nextOf,other (List.mem_of_getLast? last_in)]
      apply ending
      cases line with
      | nil => cases last_in
      | cons second line => exact last_in
    · intro one member
      rw [other member]
      exact there one (List.mem_cons_of_mem _ member)
    · exact different
    · exact fun one member => goes one (List.mem_cons_of_mem _ member)

end Walk

end MoCodes.Lib.RingQueue
