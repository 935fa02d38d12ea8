import MoCodes.Lib.Loop
import Mathlib.Logic.Function.Basic
import Mathlib.Data.List.Chain

/-! Circular doubly linked lists in a heap, around a head node that is no cell of the list.
Neighbours are linked both ways; a write to memory that is not allocated is a fault. -/
namespace MoCodes.Lib.Ring
open Loop

variable {α : Type}

structure Node (α : Type) where
  info : α
  next : Option Nat
  prev : Option Nat

abbrev Heap (α : Type) := Nat → Option (Node α)

abbrev Cell (α : Type) := Nat × α

def addrs (cells : List (Cell α)) : List Nat := cells.map Prod.fst

section Writes

def allocate (heap : Heap α) (addr : Nat) (info : α) : Heap α :=
  Function.update heap addr (some ⟨info,none,none⟩)

def setInfo (heap : Heap α) (addr : Nat) (info : α) : Option (Heap α) :=
  (heap addr).map fun node => Function.update heap addr (some { node with info := info })

def setNext (heap : Heap α) (addr link : Nat) : Option (Heap α) :=
  (heap addr).map fun node => Function.update heap addr (some { node with next := some link })

def setPrev (heap : Heap α) (addr link : Nat) : Option (Heap α) :=
  (heap addr).map fun node => Function.update heap addr (some { node with prev := some link })

end Writes

section Views

def infoOf (heap : Heap α) (addr : Nat) : Option α := (heap addr).map Node.info

def nextOf (heap : Heap α) (addr : Nat) : Option Nat := (heap addr).bind Node.next

def prevOf (heap : Heap α) (addr : Nat) : Option Nat := (heap addr).bind Node.prev

variable {heap : Heap α} {addr link : Nat} {info new : α}

theorem infoOf_some : infoOf heap addr = some info ↔ ∃ node, heap addr = some node ∧ node.info = info :=
  Option.map_eq_some_iff

theorem nextOf_of_node {node : Node α} (found : heap addr = some node) : nextOf heap addr = node.next := by
  rw [nextOf,found,Option.bind_some]

theorem prevOf_of_node {node : Node α} (found : heap addr = some node) : prevOf heap addr = node.prev := by
  rw [prevOf,found,Option.bind_some]

theorem infoOf_allocate : infoOf (allocate heap addr info) = Function.update (infoOf heap) addr (some info) := by
  funext other
  by_cases same : other = addr <;> simp [infoOf,allocate,same]

theorem nextOf_allocate : nextOf (allocate heap addr info) = Function.update (nextOf heap) addr none := by
  funext other
  by_cases same : other = addr <;> simp [nextOf,allocate,same]

theorem prevOf_allocate : prevOf (allocate heap addr info) = Function.update (prevOf heap) addr none := by
  funext other
  by_cases same : other = addr <;> simp [prevOf,allocate,same]

theorem setInfo_views (new : α) (here : infoOf heap addr = some info) : ∃ after, setInfo heap addr new = some after ∧
    infoOf after = Function.update (infoOf heap) addr (some new) ∧ nextOf after = nextOf heap ∧
    prevOf after = prevOf heap := by
  obtain ⟨node,found,_⟩ := infoOf_some.mp here
  refine ⟨_,by rw [setInfo,found,Option.map_some],?_,?_,?_⟩ <;>
    (funext other; by_cases same : other = addr <;> simp [infoOf,nextOf,prevOf,same,found])

theorem setNext_views (link : Nat) (here : infoOf heap addr = some info) : ∃ after, setNext heap addr link = some after ∧
    infoOf after = infoOf heap ∧ nextOf after = Function.update (nextOf heap) addr (some link) ∧
    prevOf after = prevOf heap := by
  obtain ⟨node,found,_⟩ := infoOf_some.mp here
  refine ⟨_,by rw [setNext,found,Option.map_some],?_,?_,?_⟩ <;>
    (funext other; by_cases same : other = addr <;> simp [infoOf,nextOf,prevOf,same,found])

theorem setPrev_views (link : Nat) (here : infoOf heap addr = some info) : ∃ after, setPrev heap addr link = some after ∧
    infoOf after = infoOf heap ∧ nextOf after = nextOf heap ∧
    prevOf after = Function.update (prevOf heap) addr (some link) := by
  obtain ⟨node,found,_⟩ := infoOf_some.mp here
  refine ⟨_,by rw [setPrev,found,Option.map_some],?_,?_,?_⟩ <;>
    (funext other; by_cases same : other = addr <;> simp [infoOf,nextOf,prevOf,same,found])

end Views

/-- The one leads to the other and the other back to it. -/
def Linked (heap : Heap α) (one other : Nat) : Prop := nextOf heap one = some other ∧ prevOf heap other = some one

/-- From the head through the cells and back to the head. -/
structure Circle (heap : Heap α) (head : Nat) (cells : List (Cell α)) : Prop where
  links : List.IsChain (Linked heap) (head :: (addrs cells ++ [head]))
  infos : ∀ cell ∈ cells, infoOf heap cell.1 = some cell.2
  nodup : (head :: addrs cells).Nodup

section Chains

variable {heap after : Heap α}

/-- Only the next links of all but the last and the prev links of all but the first are read. -/
theorem chain_frame {line : List Nat} (forward : ∀ addr ∈ line.dropLast, nextOf after addr = nextOf heap addr)
    (backward : ∀ addr ∈ line.tail, prevOf after addr = prevOf heap addr)
    (chain : List.IsChain (Linked heap) line) : List.IsChain (Linked after) line := by
  induction chain with
  | nil => exact .nil
  | singleton addr => exact .singleton addr
  | @cons_cons one other line linked rest ih =>
    refine .cons_cons ⟨?_,?_⟩ (ih (fun addr member => forward addr ?_) fun addr member => backward addr ?_)
    · rw [forward one (by simp),linked.1]
    · rw [backward other (by simp),linked.2]
    · rw [List.dropLast_cons_of_ne_nil (List.cons_ne_nil _ _)]
      exact List.mem_cons_of_mem _ member
    · exact List.mem_of_mem_tail member

end Chains

section Walk

/-- `for(cur = link; cur != head; cur = cur->next) if(test(cur)) break;` -/
def findBody (heap : Heap α) (head : Nat) (test : α → Bool) (link : Option Nat) :
    Outcome (Option Nat) (Option Nat) :=
  match link with
  | none => .done none
  | some addr =>
    if addr = head then .done (some head)
    else
      match heap addr with
      | none => .done none
      | some node => if test node.info then .done (some addr) else .next node.next

theorem find_ring {heap : Heap α} {head : Nat} {test : α → Bool} {front back : List (Cell α)}
    (links : List.IsChain (Linked heap) (addrs (front ++ back) ++ [head]))
    (infos : ∀ cell ∈ front ++ back, infoOf heap cell.1 = some cell.2)
    (outside : head ∉ addrs (front ++ back)) (fail : ∀ cell ∈ front, test cell.2 = false)
    (pass : ∀ cell ∈ back.head?, test cell.2 = true) :
    Returns (findBody heap head test) (addrs (front ++ back) ++ [head]).head? (addrs back ++ [head]).head? := by
  induction front with
  | nil =>
    apply returns_done
    cases back with
    | nil => simp [addrs,findBody]
    | cons cell back =>
      obtain ⟨node,found,same⟩ := infoOf_some.mp (infos cell (by simp))
      have apart : cell.1 ≠ head := by
        rintro rfl
        simp [addrs] at outside
      have here := pass cell rfl
      rw [← same] at here
      simp [addrs,findBody,apart,found,here]
  | cons cell front ih =>
    obtain ⟨node,found,same⟩ := infoOf_some.mp (infos cell (by simp))
    have apart : cell.1 ≠ head := by
      rintro rfl
      simp [addrs] at outside
    have here := fail cell (by simp)
    rw [← same] at here
    have follows : node.next = (addrs (front ++ back) ++ [head]).head? := by
      rw [← nextOf_of_node found]
      cases rest : addrs (front ++ back) ++ [head] with
      | nil => simp at rest
      | cons second line =>
        rw [List.cons_append,addrs,List.map_cons,List.cons_append,← addrs,rest] at links
        exact (List.isChain_cons_cons.mp links).1.1
    have step : findBody heap head test (some cell.1) = .next node.next := by
      simp [findBody,apart,found,here]
    have start : (addrs (cell::front ++ back) ++ [head]).head? = some cell.1 := rfl
    rw [start,returns_next step,follows]
    apply ih
    · exact links.tail
    · exact fun cell member => infos cell (List.mem_cons_of_mem _ member)
    · exact fun member => outside (List.mem_cons_of_mem _ member)
    · exact fun cell member => fail cell (List.mem_cons_of_mem _ member)

end Walk

section Places

variable {heap : Heap α} {head one other : Nat} {front back : List (Cell α)}

/-- The two nodes on both sides of a cut. -/
theorem circle_seam (circle : Circle heap head (front ++ back))
    (ending : (head :: addrs front).getLast? = some one) (begin : (addrs back ++ [head]).head? = some other) :
    Linked heap one other := by
  have line : List.IsChain (Linked heap) ((head :: addrs front) ++ (addrs back ++ [head])) := by
    have links := circle.links
    rw [addrs,List.map_append,List.append_assoc] at links
    exact links
  exact (List.isChain_append.mp line).2.2 one ending other begin

theorem circle_find (test : α → Bool) (circle : Circle heap head (front ++ back))
    (fail : ∀ cell ∈ front, test cell.2 = false) (pass : ∀ cell ∈ back, test cell.2 = true) :
    Returns (findBody heap head test) (nextOf heap head) (addrs back ++ [head]).head? := by
  have start : nextOf heap head = (addrs (front ++ back) ++ [head]).head? := by
    cases whole : addrs (front ++ back) ++ [head] with
    | nil => simp at whole
    | cons first line =>
      have links := circle.links
      rw [whole] at links
      exact (List.isChain_cons_cons.mp links).1.1
  rw [start]
  exact find_ring circle.links.tail circle.infos (List.nodup_cons.mp circle.nodup).1 fail
    fun cell first => pass cell (List.mem_of_head? first)

end Places

section Changes

variable {heap after : Heap α} {head : Nat} {cells front back : List (Cell α)} {addr : Nat} {info new : α}

theorem circle_insert {first : Nat} (links : List.IsChain (Linked heap) (addrs cells ++ [head]))
    (infos : ∀ cell ∈ cells, infoOf heap cell.1 = some cell.2) (nodup : (head :: addrs cells).Nodup)
    (begin : (addrs cells ++ [head]).head? = some first) (fresh : addr ∉ head :: addrs cells)
    (info_after : infoOf after = Function.update (infoOf heap) addr (some info))
    (next_after : ∀ other, nextOf after other =
      if other = head then some addr else if other = addr then some first else nextOf heap other)
    (prev_after : ∀ other, prevOf after other =
      if other = addr then some head else if other = first then some addr else prevOf heap other) :
    Circle after head ((addr,info)::cells) := by
  have not_head : addr ≠ head := List.ne_of_not_mem_cons fresh
  have not_cell : addr ∉ addrs cells := List.not_mem_of_not_mem_cons fresh
  obtain ⟨head_out,different⟩ := List.nodup_cons.mp nodup
  refine ⟨?_,?_,?_⟩
  · have line : addrs cells ++ [head] = first :: (addrs cells ++ [head]).tail := by
      cases whole : addrs cells ++ [head] with
      | nil => simp at whole
      | cons one line =>
        rw [whole] at begin
        rw [Option.some.inj begin,List.tail_cons]
    have first_other : first ≠ addr := by
      rintro rfl
      have member : first ∈ addrs cells ++ [head] := by rw [line]; exact List.mem_cons_self
      rcases List.mem_append.mp member with inside | last
      · exact not_cell inside
      · exact not_head (List.mem_singleton.mp last)
    change List.IsChain (Linked after) (head :: addr :: (addrs cells ++ [head]))
    refine .cons_cons ⟨?_,?_⟩ ?_
    · rw [next_after,if_pos rfl]
    · rw [prev_after,if_pos rfl]
    rw [line]
    refine .cons_cons ⟨?_,?_⟩ ?_
    · rw [next_after,if_neg not_head,if_pos rfl]
    · rw [prev_after,if_neg first_other,if_pos rfl]
    rw [← line]
    apply chain_frame _ _ links
    · intro other member
      rw [List.dropLast_concat] at member
      have apart : other ≠ head := by rintro rfl; exact head_out member
      have apart' : other ≠ addr := by rintro rfl; exact not_cell member
      rw [next_after,if_neg apart,if_neg apart']
    · intro other member
      have inside := List.mem_of_mem_tail member
      have apart : other ≠ addr := by
        rintro rfl
        rcases List.mem_append.mp inside with here | last
        · exact not_cell here
        · exact not_head (List.mem_singleton.mp last)
      have once : (addrs cells ++ [head]).Nodup :=
        (List.perm_append_singleton head (addrs cells)).nodup_iff.mpr nodup
      rw [line] at once
      have apart' : other ≠ first := by
        rintro rfl
        exact (List.nodup_cons.mp once).1 member
      rw [prev_after,if_neg apart,if_neg apart']
  · intro cell member
    rw [info_after]
    rcases List.mem_cons.mp member with rfl | inside
    · exact Function.update_self ..
    · have apart : cell.1 ≠ addr := by
        rintro rfl
        exact not_cell (List.mem_map_of_mem inside)
      rw [Function.update_of_ne apart,infos cell inside]
  · have front : (head :: addr :: addrs cells).Nodup :=
      List.nodup_cons.mpr ⟨List.not_mem_cons_of_ne_of_not_mem not_head.symm head_out,
        List.nodup_cons.mpr ⟨not_cell,different⟩⟩
    exact front

theorem circle_info (circle : Circle heap head (front ++ (addr,info) :: back))
    (info_after : infoOf after = Function.update (infoOf heap) addr (some new))
    (next_after : nextOf after = nextOf heap) (prev_after : prevOf after = prevOf heap) :
    Circle after head (front ++ (addr,new) :: back) := by
  have same : addrs (front ++ (addr,new) :: back) = addrs (front ++ (addr,info) :: back) := by
    simp [addrs]
  have once := (List.nodup_cons.mp circle.nodup).2
  rw [addrs,List.map_append,List.map_cons] at once
  refine ⟨?_,?_,by rw [same]; exact circle.nodup⟩
  · rw [same]
    apply chain_frame _ _ circle.links
    · exact fun other _ => by rw [next_after]
    · exact fun other _ => by rw [prev_after]
  · intro cell member
    rw [info_after]
    rcases List.mem_append.mp member with before | behind
    · have apart : cell.1 ≠ addr := by
        rintro rfl
        have other := (List.nodup_append.mp once).2.2 _ (List.mem_map_of_mem before)
        exact other _ List.mem_cons_self rfl
      rw [Function.update_of_ne apart]
      exact circle.infos cell (List.mem_append_left _ before)
    · rcases List.mem_cons.mp behind with rfl | later
      · exact Function.update_self ..
      · have apart : cell.1 ≠ addr := by
          rintro rfl
          have again : cell.1 ∈ back.map Prod.fst := List.mem_map_of_mem later
          exact (List.nodup_cons.mp (List.nodup_append.mp once).2.1).1 again
        rw [Function.update_of_ne apart]
        exact circle.infos cell (List.mem_append_right _ (List.mem_cons_of_mem _ later))

theorem circle_rotate {first last : Nat} (circle : Circle heap head (front ++ [(addr,info)]))
    (begin : (addrs front).head? = some first) (ending : (addrs front).getLast? = some last)
    (info_after : infoOf after = infoOf heap)
    (next_after : ∀ other, nextOf after other =
      if other = head then some addr else if other = addr then some first
      else if other = last then some head else nextOf heap other)
    (prev_after : ∀ other, prevOf after other =
      if other = head then some last else if other = addr then some head
      else if other = first then some addr else prevOf heap other) :
    Circle after head ((addr,info)::front) := by
  obtain ⟨head_out,once⟩ := List.nodup_cons.mp circle.nodup
  rw [addrs,List.map_append,← addrs] at once head_out
  have distinct : (addrs front).Nodup := (List.nodup_append.mp once).1
  have addr_out : addr ∉ addrs front := fun member =>
    (List.nodup_append.mp once).2.2 addr member addr (by simp) rfl
  have head_front : head ∉ addrs front := fun member => head_out (List.mem_append_left _ member)
  have not_head : addr ≠ head := by
    rintro rfl
    exact head_out (by simp)
  have first_in : first ∈ addrs front := List.mem_of_head? begin
  have last_in : last ∈ addrs front := List.mem_of_getLast? ending
  have start : addrs front = first :: (addrs front).tail := by
    cases whole : addrs front with
    | nil => rw [whole] at begin; cases begin
    | cons one line =>
      rw [whole] at begin
      rw [Option.some.inj begin,List.tail_cons]
  have stop : (addrs front).dropLast ++ [last] = addrs front := List.dropLast_append_getLast? last ending
  have inner : List.IsChain (Linked heap) (addrs front) := by
    have whole := circle.links.tail
    rw [List.tail_cons,addrs,List.map_append,← addrs,List.append_assoc] at whole
    exact (List.isChain_append.mp whole).1
  refine ⟨?_,?_,?_⟩
  · change List.IsChain (Linked after) (head :: addr :: (addrs front ++ [head]))
    refine .cons_cons ⟨?_,?_⟩ ?_
    · rw [next_after,if_pos rfl]
    · rw [prev_after,if_neg not_head,if_pos rfl]
    have whole : addrs front ++ [head] = first :: ((addrs front).tail ++ [head]) := by
      rw [← List.cons_append,← start]
    rw [whole]
    refine .cons_cons ⟨?_,?_⟩ ?_
    · rw [next_after,if_neg not_head,if_pos rfl]
    · have apart : first ≠ head := by rintro rfl; exact head_front first_in
      have apart' : first ≠ addr := by rintro rfl; exact addr_out first_in
      rw [prev_after,if_neg apart,if_neg apart',if_pos rfl]
    rw [← whole]
    refine List.isChain_append.mpr ⟨chain_frame ?_ ?_ inner,.singleton _,?_⟩
    · intro other member
      have inside := (List.dropLast_sublist _).subset member
      have apart : other ≠ head := by rintro rfl; exact head_front inside
      have apart' : other ≠ addr := by rintro rfl; exact addr_out inside
      have apart'' : other ≠ last := by
        rintro rfl
        rw [← stop] at distinct
        exact (List.nodup_append.mp distinct).2.2 other member other (by simp) rfl
      rw [next_after,if_neg apart,if_neg apart',if_neg apart'']
    · intro other member
      have inside := List.mem_of_mem_tail member
      have apart : other ≠ head := by rintro rfl; exact head_front inside
      have apart' : other ≠ addr := by rintro rfl; exact addr_out inside
      have apart'' : other ≠ first := by
        rintro rfl
        rw [start] at distinct
        exact (List.nodup_cons.mp distinct).1 member
      rw [prev_after,if_neg apart,if_neg apart',if_neg apart'']
    · intro one one_last other other_head
      rw [ending] at one_last
      cases Option.some.inj one_last
      cases Option.some.inj other_head
      have apart : last ≠ head := by rintro rfl; exact head_front last_in
      have apart' : last ≠ addr := by rintro rfl; exact addr_out last_in
      constructor
      · rw [next_after,if_neg apart,if_neg apart',if_pos rfl]
      · rw [prev_after,if_pos rfl]
  · intro cell member
    rw [info_after]
    rcases List.mem_cons.mp member with rfl | inside
    · exact circle.infos _ (by simp)
    · exact circle.infos cell (List.mem_append_left _ inside)
  · have turned : (head :: addr :: addrs front).Nodup :=
      List.nodup_cons.mpr ⟨List.not_mem_cons_of_ne_of_not_mem not_head.symm head_front,
        List.nodup_cons.mpr ⟨addr_out,distinct⟩⟩
    exact turned

end Changes

end MoCodes.Lib.Ring
