import MoCodes.Lib.Loop
import Mathlib.Logic.Function.Basic
import Mathlib.Data.List.Basic

/-! Singly linked lists in a heap. A segment relates a pointer to the cells it leads
through; operations that walk a list and write to it are compared with operations on
the list of its cells. An access to memory that is not allocated is a fault. -/
namespace MoCodes.Lib.LinkedList
open Loop

variable {α : Type}

structure Node (α : Type) where
  info : α
  next : Option Nat

/-- The nodes at their addresses; none where nothing is allocated. -/
abbrev Heap (α : Type) := Nat → Option (Node α)

abbrev Cell (α : Type) := Nat × α

def write (heap : Heap α) (addr : Nat) (node : Node α) : Heap α := Function.update heap addr (some node)

def free (heap : Heap α) (addr : Nat) : Heap α := Function.update heap addr none

/-- From `link` the next pointers lead through the cells and to `last`. -/
def Seg (heap : Heap α) : Option Nat → List (Cell α) → Option Nat → Prop
  | link,[],last => link = last
  | link,cell :: cells,last =>
    link = some cell.1 ∧ ∃ next, heap cell.1 = some ⟨cell.2,next⟩ ∧ Seg heap next cells last

def addrs (cells : List (Cell α)) : List Nat := cells.map Prod.fst

/-- A list with a head node of its own, which is no cell. -/
structure Listed (heap : Heap α) (head : Nat) (cells : List (Cell α)) : Prop where
  chain : ∃ info first, heap head = some ⟨info,first⟩ ∧ Seg heap first cells none
  nodup : (head :: addrs cells).Nodup

section Seg

theorem seg_append {heap : Heap α} {link last : Option Nat} {front back : List (Cell α)} :
    Seg heap link (front ++ back) last ↔ ∃ mid, Seg heap link front mid ∧ Seg heap mid back last := by
  induction front generalizing link with
  | nil => simp [Seg]
  | cons cell front ih =>
    simp only [List.cons_append,Seg,ih]
    constructor
    · rintro ⟨here,next,node,mid,left,right⟩
      exact ⟨mid,⟨here,next,node,left⟩,right⟩
    · rintro ⟨mid,⟨here,next,node,left⟩,right⟩
      exact ⟨here,next,node,mid,left,right⟩

theorem seg_frame {heap after : Heap α} {link last : Option Nat} {cells : List (Cell α)}
    (same : ∀ addr ∈ addrs cells, after addr = heap addr) (seg : Seg heap link cells last) :
    Seg after link cells last := by
  induction cells generalizing link with
  | nil => exact seg
  | cons cell cells ih =>
    obtain ⟨here,next,node,rest⟩ := seg
    refine ⟨here,next,?_,ih (fun addr member => same addr (List.mem_cons_of_mem _ member)) rest⟩
    rw [same cell.1 List.mem_cons_self,node]

theorem seg_write {heap : Heap α} {link last : Option Nat} {cells : List (Cell α)} {addr : Nat}
    {node : Node α} (other : addr ∉ addrs cells) (seg : Seg heap link cells last) :
    Seg (write heap addr node) link cells last := by
  apply seg_frame _ seg
  intro here member
  exact Function.update_of_ne (by rintro rfl; exact other member) _ _

theorem seg_unique {heap : Heap α} {link : Option Nat} {first second : List (Cell α)}
    (one : Seg heap link first none) (two : Seg heap link second none) : first = second := by
  induction first generalizing link second with
  | nil =>
    cases second with
    | nil => rfl
    | cons cell second =>
      rw [Seg] at one
      rw [one] at two
      cases two.1
  | cons cell first ih =>
    obtain ⟨here,next,node,rest⟩ := one
    cases second with
    | nil =>
      rw [Seg,here] at two
      cases two
    | cons other second =>
      obtain ⟨there,next',node',rest'⟩ := two
      rw [here] at there
      have addr : cell.1 = other.1 := Option.some.inj there
      rw [← addr,node] at node'
      obtain ⟨info,link⟩ := Node.mk.inj (Option.some.inj node')
      subst link
      rw [ih rest rest',Prod.ext addr info]

theorem seg_allocated {heap : Heap α} {link last : Option Nat} {cells : List (Cell α)}
    (seg : Seg heap link cells last) {addr : Nat} (member : addr ∈ addrs cells) : heap addr ≠ none := by
  induction cells generalizing link with
  | nil => cases member
  | cons cell cells ih =>
    obtain ⟨_,_,node,rest⟩ := seg
    rcases List.mem_cons.mp member with rfl | inside
    · rw [node]
      exact Option.some_ne_none _
    · exact ih rest inside

theorem seg_cell {heap : Heap α} {link last : Option Nat} {cells : List (Cell α)} {cell : Cell α}
    (seg : Seg heap link cells last) (member : cell ∈ cells) : ∃ next, heap cell.1 = some ⟨cell.2,next⟩ := by
  induction cells generalizing link with
  | nil => cases member
  | cons first cells ih =>
    obtain ⟨_,next,node,rest⟩ := seg
    rcases List.mem_cons.mp member with rfl | inside
    · exact ⟨next,node⟩
    · exact ih rest inside

/-- A chain that ends cannot lead through a cell twice. -/
theorem seg_nodup {heap : Heap α} {link : Option Nat} {cells : List (Cell α)}
    (seg : Seg heap link cells none) : (addrs cells).Nodup := by
  induction cells generalizing link with
  | nil => exact List.nodup_nil
  | cons cell cells ih =>
    obtain ⟨here,next,node,rest⟩ := seg
    refine List.nodup_cons.mpr ⟨fun again => ?_,ih rest⟩
    obtain ⟨other,inside,same⟩ := List.mem_map.mp again
    obtain ⟨front,back,rfl⟩ := List.append_of_mem inside
    obtain ⟨mid,_,there⟩ := seg_append.mp rest
    have whole : Seg heap link (cell::(front++other::back)) none := ⟨here,next,node,rest⟩
    rw [here,← same,← there.1] at whole
    have size := congrArg List.length (seg_unique whole there)
    simp only [List.length_cons,List.length_append] at size
    omega

theorem listed_unique {heap : Heap α} {head : Nat} {first second : List (Cell α)}
    (one : Listed heap head first) (two : Listed heap head second) : first = second := by
  obtain ⟨⟨info,link,at_head,seg⟩,_⟩ := one
  obtain ⟨⟨info',link',at_head',seg'⟩,_⟩ := two
  obtain ⟨-,rfl⟩ := Node.mk.inj (Option.some.inj (at_head.symm.trans at_head'))
  exact seg_unique seg seg'

end Seg

section Walks

def countBody (heap : Heap α) (state : Option Nat × Nat) : Outcome (Option Nat × Nat) (Option Nat) :=
  match state.1 with
  | none => .done (some state.2)
  | some addr =>
    match heap addr with
    | none => .done none
    | some node => .next (node.next,state.2+1)

def findBody (heap : Heap α) (test : α → Bool) (link : Option Nat) :
    Outcome (Option Nat) (Option (Option Nat)) :=
  match link with
  | none => .done (some none)
  | some addr =>
    match heap addr with
    | none => .done none
    | some node => if test node.info then .done (some (some addr)) else .next node.next

theorem count_cells {heap : Heap α} {link : Option Nat} {cells : List (Cell α)}
    (seg : Seg heap link cells none) (count : Nat) :
    Returns (countBody heap) (link,count) (some (count+cells.length)) := by
  induction cells generalizing link count with
  | nil =>
    rw [Seg] at seg
    subst seg
    exact returns_done rfl
  | cons cell cells ih =>
    obtain ⟨rfl,next,node,rest⟩ := seg
    have step : countBody heap (some cell.1,count) = .next (next,count+1) := by
      simp only [countBody,node]
    rw [returns_next step]
    have more := ih rest (count+1)
    rwa [Nat.add_assoc,Nat.add_comm 1] at more

theorem find_cells {heap : Heap α} {link : Option Nat} {cells : List (Cell α)}
    (seg : Seg heap link cells none) (test : α → Bool) :
    Returns (findBody heap test) link
      (some ((cells.find? fun cell => test cell.2).map Prod.fst)) := by
  induction cells generalizing link with
  | nil =>
    rw [Seg] at seg
    subst seg
    exact returns_done rfl
  | cons cell cells ih =>
    obtain ⟨rfl,next,node,rest⟩ := seg
    cases passed : test cell.2 with
    | true =>
      apply returns_done
      simp [findBody,node,passed]
    | false =>
      have step : findBody heap test (some cell.1) = .next next := by
        simp [findBody,node,passed]
      rw [returns_next step,List.find?_cons_of_neg (by simp [passed])]
      exact ih rest

end Walks

section Unlinking

/-- `pre->next = cur->next; free(cur);` and the pointer that `pre->next` then holds. -/
def unlink (heap : Heap α) (pre cur : Nat) : Option (Heap α × Option Nat) :=
  match heap pre,heap cur with
  | some before,some node => some (free (write heap pre {before with next := node.next}) cur,node.next)
  | _,_ => none

theorem unlink_spec {heap : Heap α} {pre cur : Nat} {before node : Node α} (apart : cur ≠ pre)
    (at_pre : heap pre = some before) (at_cur : heap cur = some node) :
    ∃ after, unlink heap pre cur = some (after,node.next) ∧
      after pre = some {before with next := node.next} ∧
      ∀ addr ≠ pre, after addr = if addr = cur then none else heap addr := by
  refine ⟨free (write heap pre {before with next := node.next}) cur,?_,?_,?_⟩
  · simp only [unlink,at_pre,at_cur]
  · rw [free,Function.update_of_ne apart.symm,write,Function.update_self]
  · intro addr other
    unfold free
    split
    · rename_i same
      rw [same,Function.update_self]
    · rename_i different
      rw [Function.update_of_ne different,write,Function.update_of_ne other]

/-- Unlinking the cell after `pre` takes it out of the chain; the pointer that is returned
leads through the cells behind it. -/
theorem seg_unlink {heap : Heap α} {link : Option Nat} {front back : List (Cell α)} {pre cell : Cell α}
    (seg : Seg heap link (front ++ pre :: cell :: back) none)
    (nodup : (addrs (front ++ pre :: cell :: back)).Nodup) :
    ∃ after next, unlink heap pre.1 cell.1 = some (after,next) ∧
      Seg after link (front ++ [pre]) next ∧ Seg after next back none := by
  obtain ⟨mid,before,rfl,_,at_pre,rfl,next,at_cell,rest⟩ := seg_append.mp seg
  have order : addrs (front ++ pre :: cell :: back) = addrs front ++ pre.1 :: cell.1 :: addrs back := by
    simp [addrs]
  obtain ⟨_,later,cross⟩ := List.nodup_append.mp (order ▸ nodup)
  obtain ⟨pre_new,later⟩ := List.nodup_cons.mp later
  obtain ⟨cell_new,_⟩ := List.nodup_cons.mp later
  have apart : cell.1 ≠ pre.1 := fun same => pre_new (same ▸ List.mem_cons_self)
  obtain ⟨after,unlinked,linked,frame⟩ := unlink_spec apart at_pre at_cell
  refine ⟨after,next,unlinked,seg_append.mpr ⟨some pre.1,?_,rfl,next,linked,rfl⟩,?_⟩
  · apply seg_frame _ before
    intro addr member
    rw [frame addr (cross addr member pre.1 List.mem_cons_self),
      if_neg (cross addr member cell.1 (List.mem_cons_of_mem _ List.mem_cons_self))]
  · apply seg_frame _ rest
    intro addr member
    rw [frame addr (by rintro rfl; exact pre_new (List.mem_cons_of_mem _ member)),
      if_neg (by rintro rfl; exact cell_new member)]

end Unlinking

section Updates

def modifyFirst {β : Type} (test : β → Bool) (change : β → β) : List β → List β
  | [] => []
  | item :: items => if test item then change item :: items else item :: modifyFirst test change items

theorem modifyFirst_none {β : Type} {test : β → Bool} {change : β → β} {items : List β}
    (none_passes : ∀ item ∈ items, test item = false) : modifyFirst test change items = items := by
  induction items with
  | nil => rfl
  | cons item items ih =>
    obtain ⟨here,others⟩ := List.forall_mem_cons.mp none_passes
    simp [modifyFirst,here,ih others]

theorem mem_modifyFirst {β : Type} {test : β → Bool} {change : β → β} {item : β} {items : List β}
    (member : item ∈ modifyFirst test change items) : item ∈ items ∨ ∃ old ∈ items, item = change old := by
  induction items with
  | nil => cases member
  | cons first items ih =>
    rw [modifyFirst] at member
    split at member
    · rcases List.mem_cons.mp member with rfl | inside
      · exact Or.inr ⟨first,List.mem_cons_self,rfl⟩
      · exact Or.inl (List.mem_cons_of_mem _ inside)
    · rcases List.mem_cons.mp member with rfl | inside
      · exact Or.inl List.mem_cons_self
      · rcases ih inside with there | ⟨old,there,rfl⟩
        · exact Or.inl (List.mem_cons_of_mem _ there)
        · exact Or.inr ⟨old,List.mem_cons_of_mem _ there,rfl⟩

theorem modifyFirst_view {β γ : Type} {test : β → Bool} {change : β → β} (view : β → γ) {items : List β}
    (same : ∀ item ∈ items, test item = true → view (change item) = view item) :
    (modifyFirst test change items).map view = items.map view := by
  induction items with
  | nil => rfl
  | cons item items ih =>
    obtain ⟨here,others⟩ := List.forall_mem_cons.mp same
    rw [modifyFirst]
    split
    · rename_i passes
      rw [List.map_cons,List.map_cons,here passes]
    · rw [List.map_cons,List.map_cons,ih others]

theorem modifyFirst_map {β γ : Type} (f : β → γ) (test : γ → Bool) (change : γ → γ) {lift : β → β}
    (same : ∀ item, f (lift item) = change (f item)) (items : List β) :
    (modifyFirst (fun item => test (f item)) lift items).map f = modifyFirst test change (items.map f) := by
  induction items with
  | nil => rfl
  | cons item items ih =>
    simp only [modifyFirst,List.map_cons]
    split <;> simp [same,ih]

theorem write_first {heap : Heap α} {link : Option Nat} {cells : List (Cell α)} {test : α → Bool}
    {change : α → α} {addr : Nat} {node : Node α} (seg : Seg heap link cells none)
    (nodup : (addrs cells).Nodup)
    (found : (cells.find? fun cell => test cell.2).map Prod.fst = some addr)
    (here : heap addr = some node) :
    Seg (write heap addr {node with info := change node.info}) link
      (modifyFirst (fun cell => test cell.2) (fun cell => (cell.1,change cell.2)) cells) none := by
  induction cells generalizing link with
  | nil => cases found
  | cons cell cells ih =>
    obtain ⟨rfl,next,held,rest⟩ := seg
    obtain ⟨new,others⟩ := List.nodup_cons.mp nodup
    cases passed : test cell.2 with
    | true =>
      rw [List.find?_cons_of_pos (by simpa using passed)] at found
      obtain rfl : cell.1 = addr := Option.some.inj found
      rw [held] at here
      obtain rfl : node = ⟨cell.2,next⟩ := (Option.some.inj here).symm
      simp only [modifyFirst,passed,if_true]
      exact ⟨rfl,next,Function.update_self _ _ _,seg_write new rest⟩
    | false =>
      rw [List.find?_cons_of_neg (by simp [passed])] at found
      have different : cell.1 ≠ addr := by
        intro same
        obtain ⟨other,inside,there⟩ := Option.map_eq_some_iff.mp found
        exact new (List.mem_map.mpr ⟨other,List.mem_of_find?_eq_some inside,there.trans same.symm⟩)
      simp only [modifyFirst,passed,Bool.false_eq_true,if_false]
      exact ⟨rfl,next,by rw [write,Function.update_of_ne different,held],ih rest others found⟩

theorem modifyFirst_addrs (test : α → Bool) (change : α → α) (cells : List (Cell α)) :
    addrs (modifyFirst (fun cell => test cell.2) (fun cell => (cell.1,change cell.2)) cells) =
      addrs cells := by
  induction cells with
  | nil => rfl
  | cons cell cells ih =>
    simp only [modifyFirst]
    split
    · rfl
    · exact congrArg (List.cons cell.1) ih

theorem insert_after_head {heap : Heap α} {head addr : Nat} {cells : List (Cell α)} (info : α)
    (listed : Listed heap head cells) (new : addr ∉ head :: addrs cells)
    {headInfo : α} {first : Option Nat} (at_head : heap head = some ⟨headInfo,first⟩) :
    Listed (write (write heap addr ⟨info,first⟩) head ⟨headInfo,some addr⟩) head ((addr,info) :: cells) := by
  obtain ⟨⟨info',first',at_head',seg⟩,nodup⟩ := listed
  obtain ⟨-,rfl⟩ := Node.mk.inj (Option.some.inj (at_head.symm.trans at_head'))
  obtain ⟨head_new,cells_nodup⟩ := List.nodup_cons.mp nodup
  have apart : addr ≠ head := by rintro rfl; exact new List.mem_cons_self
  have outside : addr ∉ addrs cells := fun member => new (List.mem_cons_of_mem _ member)
  constructor
  · refine ⟨headInfo,some addr,Function.update_self _ _ _,rfl,first,?_,?_⟩
    · rw [write,Function.update_of_ne apart,write,Function.update_self]
    · exact seg_write head_new (seg_write outside seg)
  · rw [List.nodup_cons]
    refine ⟨?_,List.nodup_cons.mpr ⟨outside,cells_nodup⟩⟩
    intro member
    rcases List.mem_cons.mp member with same | inside
    · exact apart same.symm
    · exact head_new inside

end Updates

section Items

/-! Routines that look for an item from the node behind the head, and the list of items
that they work on. -/

def Finds (heap : Heap α) (head : Nat) (test : α → Bool) (result : Option Nat) : Prop :=
  ∃ node, heap head = some node ∧ Returns (findBody heap test) node.next (some result)

/-- A routine that changes the item it finds, and returns `missing` when there is none. -/
inductive Refreshes (heap : Heap α) (head : Nat) (test : α → Bool) (change : α → α) (missing : Int) :
    Heap α → Int → Prop where
  | found {addr node} : Finds heap head test (some addr) → heap addr = some node →
      Refreshes heap head test change missing (write heap addr {node with info := change node.info}) 0
  | absent : Finds heap head test none → Refreshes heap head test change missing heap missing

def Holds (heap : Heap α) (head : Nat) (items : List α) : Prop :=
  ∃ cells, Listed heap head cells ∧ cells.map Prod.snd = items

variable {heap after : Heap α} {head : Nat} {cells : List (Cell α)} {items : List α} {test : α → Bool}
  {change : α → α} {missing ret : Int}

theorem finds_cells (listed : Listed heap head cells) {result : Option Nat} :
    Finds heap head test result ↔ result = (cells.find? fun cell => test cell.2).map Prod.fst := by
  obtain ⟨⟨info,first,at_head,seg⟩,_⟩ := listed
  have found := find_cells seg test
  constructor
  · rintro ⟨node,here,returned⟩
    rw [at_head] at here
    obtain rfl := Option.some.inj here
    exact Option.some.inj (returns_unique returned found)
  · rintro rfl
    exact ⟨_,at_head,found⟩

theorem find_items (cells : List (Cell α)) (test : α → Bool) :
    (cells.map Prod.snd).find? test = (cells.find? fun cell => test cell.2).map Prod.snd := by
  rw [List.find?_map]
  rfl

theorem refreshes_holds (holds : Holds heap head items)
    (ran : Refreshes heap head test change missing after ret) :
    Holds after head (modifyFirst test change items) ∧
      ret = if (items.find? test).isSome then 0 else missing := by
  obtain ⟨cells,listed,rfl⟩ := holds
  rw [find_items]
  cases ran with
  | found finds here =>
    have named := (finds_cells listed).mp finds
    obtain ⟨⟨info,first,at_head,seg⟩,nodup⟩ := listed
    obtain ⟨head_new,cells_nodup⟩ := List.nodup_cons.mp nodup
    obtain ⟨cell,member,rfl⟩ := Option.map_eq_some_iff.mp named.symm
    have inside : cell.1 ∈ addrs cells := List.mem_map_of_mem (List.mem_of_find?_eq_some member)
    have apart : head ≠ cell.1 := by rintro rfl; exact head_new inside
    refine ⟨⟨_,⟨⟨info,first,?_,write_first seg cells_nodup named.symm here⟩,?_⟩,?_⟩,?_⟩
    · rw [write,Function.update_of_ne apart,at_head]
    · rw [modifyFirst_addrs]
      exact nodup
    · exact modifyFirst_map Prod.snd test change (fun _ => rfl) cells
    · simp [member]
  | absent finds =>
    have nowhere := Option.map_eq_none_iff.mp ((finds_cells listed).mp finds).symm
    refine ⟨⟨cells,listed,?_⟩,?_⟩
    · rw [modifyFirst_none]
      intro info member
      obtain ⟨cell,inside,rfl⟩ := List.mem_map.mp member
      simpa using List.find?_eq_none.mp nowhere cell inside
    · simp [nowhere]

variable (test change) in
theorem find_modifyFirst (keeps : ∀ item, test (change item) = test item) (items : List α) :
    (modifyFirst test change items).find? test = (items.find? test).map change := by
  induction items with
  | nil => rfl
  | cons item items ih =>
    cases passes : test item with
    | true => simp [modifyFirst,passes,keeps]
    | false => simp [modifyFirst,passes,ih]

variable (test change) in
theorem find_modifyFirst_view {β : Type} {other : α → Bool} (view : α → β)
    (keeps : ∀ item, other (change item) = other item)
    (same : ∀ item, test item = true → other item = true → view (change item) = view item)
    (items : List α) :
    ((modifyFirst test change items).find? other).map view = (items.find? other).map view := by
  induction items with
  | nil => rfl
  | cons item items ih =>
    rw [modifyFirst]
    cases passes : test item with
    | true =>
      simp only [if_true,List.find?_cons,keeps]
      cases found : other item with
      | true => exact congrArg some (same item passes found)
      | false => rfl
    | false =>
      simp only [Bool.false_eq_true,if_false,List.find?_cons]
      cases other item with
      | true => rfl
      | false => exact ih

end Items

end MoCodes.Lib.LinkedList
