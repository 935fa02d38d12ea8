import MoCodes.Lib.LinkedList
import Mathlib.Data.List.Perm.Subperm

/-! Memory that is shared out among owners: all that is allocated has one owner, and what a step of
an owner does to its own cells leaves those of the others as they are. The address of a cell that was
freed is not given out again, so that an access through a pointer to it is a fault. -/
namespace MoCodes.Lib.Owners
open LinkedList

variable {ι α : Type}

/-- From `limit` on, no address has been given out. -/
structure Memory (α : Type) where
  heap : Heap α
  limit : Nat

namespace Memory

variable (memory : Memory α) (node : Node α) (addr : Nat)

/-- The address of the new cell is the limit. -/
def malloc : Memory α := ⟨write memory.heap memory.limit node,memory.limit+1⟩

def store : Memory α := ⟨write memory.heap addr node,memory.limit⟩

def release : Memory α := ⟨free memory.heap addr,memory.limit⟩

/-- `pre->next = cur->next; free(cur);` and the pointer that `pre->next` then holds. -/
def unlink (pre cur : Nat) : Option (Memory α × Option Nat) :=
  (LinkedList.unlink memory.heap pre cur).map fun (heap,next) => (⟨heap,memory.limit⟩,next)

/-- A new node behind the head of a list. -/
def insertAfter (head : Nat) (info : α) : Option (Memory α) :=
  (memory.heap head).map fun node => (memory.malloc ⟨info,node.next⟩).store {node with next := some memory.limit} head

variable {memory node addr} {other : Nat}

theorem malloc_self : (memory.malloc node).heap memory.limit = some node := Function.update_self _ _ _

theorem malloc_other (apart : other ≠ memory.limit) : (memory.malloc node).heap other = memory.heap other :=
  Function.update_of_ne apart _ _

theorem store_self : (memory.store node addr).heap addr = some node := Function.update_self _ _ _

theorem store_other (apart : other ≠ addr) : (memory.store node addr).heap other = memory.heap other :=
  Function.update_of_ne apart _ _

theorem release_self : (memory.release addr).heap addr = none := Function.update_self _ _ _

theorem release_other (apart : other ≠ addr) : (memory.release addr).heap other = memory.heap other :=
  Function.update_of_ne apart _ _

end Memory

/-- The cells that a loop over the next pointers comes to. -/
def walk (heap : Heap α) : Nat → Option Nat → Option (List (Cell α))
  | _,none => some []
  | 0,some _ => none
  | fuel+1,some addr => (heap addr).bind fun node =>
    (walk heap fuel node.next).map fun cells => (addr,node.info)::cells

def Memory.cells (memory : Memory α) (link : Option Nat) : Option (List (Cell α)) :=
  walk memory.heap memory.limit link

theorem walk_seg {heap : Heap α} {link : Option Nat} {cells : List (Cell α)} {fuel : Nat}
    (seg : Seg heap link cells none) (enough : cells.length ≤ fuel) : walk heap fuel link = some cells := by
  induction cells generalizing link fuel with
  | nil =>
    rw [Seg] at seg
    rw [seg]
    unfold walk
    rfl
  | cons cell cells ih =>
    obtain ⟨rfl,next,node,rest⟩ := seg
    cases fuel with
    | zero => cases enough
    | succ fuel =>
      rw [walk,node,Option.bind_some,ih rest (Nat.le_of_succ_le_succ enough)]
      rfl

/-- What is allocated, and by whom it is held. -/
structure Owned (memory : Memory α) (own : ι → List Nat) : Prop where
  allocated : ∀ addr, memory.heap addr ≠ none ↔ ∃ i, addr ∈ own i
  nodup : ∀ i, (own i).Nodup
  apart : ∀ {i j addr}, addr ∈ own i → addr ∈ own j → i = j
  below : ∀ {i addr}, addr ∈ own i → addr < memory.limit

/-- A step that turns the cells `old` of an owner into `new`. -/
structure Local (memory after : Memory α) (old new : List Nat) : Prop where
  outside : ∀ addr < memory.limit, addr ∉ old → addr ∉ new → after.heap addr = memory.heap addr
  unused : ∀ addr, memory.limit ≤ addr → addr ∉ new → after.heap addr = none
  held : ∀ addr ∈ new, after.heap addr ≠ none
  freed : ∀ addr ∈ old, addr ∉ new → after.heap addr = none
  nodup : new.Nodup
  fresh : ∀ addr ∈ new, addr ∈ old ∨ memory.limit ≤ addr
  below : ∀ addr ∈ new, addr < after.limit
  grows : memory.limit ≤ after.limit

section Steps

variable {memory mid after : Memory α} {own : ι → List Nat} {i j : ι} {addr : Nat} {old new last : List Nat}

namespace Owned

variable (owned : Owned memory own)
include owned

theorem beyond (far : memory.limit ≤ addr) : memory.heap addr = none := by
  by_contra there
  obtain ⟨i,member⟩ := (owned.allocated addr).mp there
  exact absurd (owned.below member) (Nat.not_lt.mpr far)

theorem alive (member : addr ∈ own i) : memory.heap addr ≠ none := (owned.allocated addr).mpr ⟨i,member⟩

theorem at_most (i : ι) : (own i).length ≤ memory.limit := by
  have inside : own i ⊆ List.range memory.limit := fun addr member => List.mem_range.mpr (owned.below member)
  have few := (List.subperm_of_subset (owned.nodup i) inside).length_le
  rwa [List.length_range] at few

theorem not_new (moved : Local memory after (own i) new) (other : j ≠ i) (member : addr ∈ own j) :
    addr ∉ own i ∧ addr ∉ new := by
  have elsewhere : addr ∉ own i := fun inside => other (owned.apart member inside)
  refine ⟨elsewhere,fun inside => ?_⟩
  rcases moved.fresh addr inside with old | far
  · exact elsewhere old
  · exact absurd (owned.below member) (Nat.not_lt.mpr far)

/-- The other owners see nothing of the step. -/
theorem frame (moved : Local memory after (own i) new) (other : j ≠ i) (member : addr ∈ own j) :
    after.heap addr = memory.heap addr := by
  obtain ⟨before,now⟩ := owned.not_new moved other member
  exact moved.outside addr (owned.below member) before now

/-- What was freed before the step is not given out by it. -/
theorem stays_free (moved : Local memory after (own i) new) (early : addr < memory.limit)
    (free : memory.heap addr = none) : after.heap addr = none := by
  have before : addr ∉ own i := fun member => owned.alive member free
  have now : addr ∉ new := fun inside => (moved.fresh addr inside).elim before (Nat.not_le.mpr early)
  rw [moved.outside addr early before now,free]

variable [DecidableEq ι]

theorem step (moved : Local memory after (own i) new) : Owned after (Function.update own i new) where
  allocated addr := by
    constructor
    · intro there
      by_cases now : addr ∈ new
      · exact ⟨i,by rwa [Function.update_self]⟩
      · have before : addr ∉ own i := fun old => there (moved.freed addr old now)
        have early : addr < memory.limit := Nat.lt_of_not_le fun far => there (moved.unused addr far now)
        rw [moved.outside addr early before now] at there
        obtain ⟨j,member⟩ := (owned.allocated addr).mp there
        have other : j ≠ i := by
          intro same
          rw [same] at member
          exact before member
        exact ⟨j,by rwa [Function.update_of_ne other]⟩
    · intro ⟨j,member⟩
      by_cases same : j = i
      · rw [same,Function.update_self] at member
        exact moved.held addr member
      · rw [Function.update_of_ne same] at member
        rw [owned.frame moved same member]
        exact owned.alive member
  nodup j := by
    by_cases same : j = i
    · rw [same,Function.update_self]
      exact moved.nodup
    · rw [Function.update_of_ne same]
      exact owned.nodup j
  apart := by
    intro j k addr first second
    by_cases one : j = i <;> by_cases two : k = i
    · exact one.trans two.symm
    · rw [one,Function.update_self] at first
      rw [Function.update_of_ne two] at second
      exact absurd first (owned.not_new moved two second).2
    · rw [two,Function.update_self] at second
      rw [Function.update_of_ne one] at first
      exact absurd second (owned.not_new moved one first).2
    · rw [Function.update_of_ne one] at first
      rw [Function.update_of_ne two] at second
      exact owned.apart first second
  below := by
    intro j addr member
    by_cases same : j = i
    · rw [same,Function.update_self] at member
      exact moved.below addr member
    · rw [Function.update_of_ne same] at member
      exact Nat.lt_of_lt_of_le (owned.below member) moved.grows

end Owned

theorem local_trans (first : Local memory mid old new) (second : Local mid after new last) :
    Local memory after old last where
  outside addr early before now := by
    have between : addr ∉ new := fun inside =>
      (first.fresh addr inside).elim before (Nat.not_le.mpr early)
    rw [second.outside addr (Nat.lt_of_lt_of_le early first.grows) between now,first.outside addr early before between]
  unused addr far now := by
    by_cases between : addr ∈ new
    · exact second.freed addr between now
    · rcases Nat.lt_or_ge addr mid.limit with early | late
      · rw [second.outside addr early between now]
        exact first.unused addr far between
      · exact second.unused addr late now
  held := second.held
  freed addr before now := by
    by_cases between : addr ∈ new
    · exact second.freed addr between now
    · rcases Nat.lt_or_ge addr mid.limit with early | late
      · rw [second.outside addr early between now]
        exact first.freed addr before between
      · exact second.unused addr late now
  nodup := second.nodup
  fresh addr now := by
    rcases second.fresh addr now with between | far
    · exact first.fresh addr between
    · exact Or.inr (Nat.le_trans first.grows far)
  below := second.below
  grows := Nat.le_trans first.grows second.grows

theorem local_malloc (owned : Owned memory own) (i : ι) (node : Node α) :
    Local memory (memory.malloc node) (own i) (memory.limit :: own i) where
  outside addr early _ _ := Memory.malloc_other (Nat.ne_of_lt early)
  unused addr far now := by
    have other : addr ≠ memory.limit := fun same => now (same ▸ List.mem_cons_self)
    rw [Memory.malloc_other other]
    exact owned.beyond far
  held addr now := by
    rcases List.mem_cons.mp now with rfl | before
    · rw [Memory.malloc_self]
      exact Option.some_ne_none _
    · rw [Memory.malloc_other (Nat.ne_of_lt (owned.below before))]
      exact owned.alive before
  freed addr before now := absurd (List.mem_cons_of_mem _ before) now
  nodup := List.nodup_cons.mpr ⟨fun old => Nat.lt_irrefl _ (owned.below old),owned.nodup i⟩
  fresh addr now := by
    rcases List.mem_cons.mp now with rfl | before
    · exact Or.inr (Nat.le_refl _)
    · exact Or.inl before
  below addr now := by
    rcases List.mem_cons.mp now with rfl | before
    · exact Nat.lt_succ_self _
    · exact Nat.lt_succ_of_lt (owned.below before)
  grows := Nat.le_succ _

theorem local_store (owned : Owned memory own) (member : addr ∈ own i) (node : Node α) :
    Local memory (memory.store node addr) (own i) (own i) where
  outside other _ before _ := Memory.store_other fun same => before (same.symm ▸ member)
  unused other far before := by
    rw [Memory.store_other (Nat.ne_of_gt (Nat.lt_of_lt_of_le (owned.below member) far))]
    exact owned.beyond far
  held other now := by
    by_cases same : other = addr
    · rw [same,Memory.store_self]
      exact Option.some_ne_none _
    · rw [Memory.store_other same]
      exact owned.alive now
  freed _ before now := absurd before now
  nodup := owned.nodup i
  fresh _ := Or.inl
  below _ now := owned.below now
  grows := Nat.le_refl _

theorem local_release (owned : Owned memory own) (gone : (own i).Perm (addr :: new)) :
    Local memory (memory.release addr) (own i) new := by
  have member : addr ∈ own i := gone.mem_iff.mpr List.mem_cons_self
  have kept : ∀ other ∈ new, other ∈ own i := fun other now => gone.mem_iff.mpr (List.mem_cons_of_mem _ now)
  obtain ⟨absent,nodup⟩ := List.nodup_cons.mp (gone.nodup_iff.mp (owned.nodup i))
  constructor
  · intro other _ before _
    exact Memory.release_other fun same => before (same.symm ▸ member)
  · intro other far _
    rw [Memory.release_other (Nat.ne_of_gt (Nat.lt_of_lt_of_le (owned.below member) far))]
    exact owned.beyond far
  · intro other now
    have apart : other ≠ addr := fun same => absent (same ▸ now)
    rw [Memory.release_other apart]
    exact owned.alive (kept other now)
  · intro other before now
    obtain rfl := (List.mem_cons.mp (gone.mem_iff.mp before)).resolve_right now
    exact Memory.release_self
  · exact nodup
  · exact fun other now => Or.inl (kept other now)
  · exact fun other now => owned.below (kept other now)
  · exact Nat.le_refl _

theorem local_refl (owned : Owned memory own) (i : ι) : Local memory memory (own i) (own i) where
  outside _ _ _ _ := rfl
  unused _ far _ := owned.beyond far
  held _ now := owned.alive now
  freed _ before now := absurd before now
  nodup := owned.nodup i
  fresh _ := Or.inl
  below _ now := owned.below now
  grows := Nat.le_refl _

theorem local_perm (moved : Local memory after old new) (perm : new.Perm last) : Local memory after old last where
  outside addr early before now := moved.outside addr early before fun inside => now (perm.mem_iff.mp inside)
  unused addr far now := moved.unused addr far fun inside => now (perm.mem_iff.mp inside)
  held addr now := moved.held addr (perm.mem_iff.mpr now)
  freed addr before now := moved.freed addr before fun inside => now (perm.mem_iff.mp inside)
  nodup := perm.nodup_iff.mp moved.nodup
  fresh addr now := moved.fresh addr (perm.mem_iff.mpr now)
  below addr now := moved.below addr (perm.mem_iff.mpr now)
  grows := moved.grows

end Steps

section Lists

/-! The operations on a chain of cells, each as what becomes of the chain and as a step of its owner. -/

variable {memory : Memory α} {own : ι → List Nat} {i : ι} {link : Option Nat}

theorem seg_change {heap : Heap α} {last : Option Nat} {cells : List (Cell α)} {addr : Nat} {node : Node α}
    (here : heap addr = some node) (change : α → α) (seg : Seg heap link cells last) :
    Seg (write heap addr {node with info := change node.info}) link
      (cells.map fun cell => if cell.1 = addr then (cell.1,change cell.2) else cell) last := by
  induction cells generalizing link with
  | nil => exact seg
  | cons cell cells ih =>
    obtain ⟨rfl,next,held,rest⟩ := seg
    rw [List.map_cons]
    by_cases same : cell.1 = addr
    · rw [← same,held] at here
      obtain rfl := (Option.some.inj here).symm
      rw [if_pos same]
      refine ⟨rfl,next,?_,ih rest⟩
      rw [← same]
      exact Function.update_self _ _ _
    · rw [if_neg same]
      exact ⟨rfl,next,by rw [write,Function.update_of_ne same,held],ih rest⟩

theorem owned_cells (owned : Owned memory own) {cells : List (Cell α)} (here : own i = addrs cells)
    (seg : Seg memory.heap link cells none) : memory.cells link = some cells := by
  have few := owned.at_most i
  rw [here,addrs,List.length_map] at few
  exact walk_seg seg few

variable [DecidableEq ι]

theorem owned_insertAfter (owned : Owned memory own) {head : Nat} {headInfo : α} {rest : List (Cell α)}
    (here : own i = addrs ((head,headInfo) :: rest)) (seg : Seg memory.heap link ((head,headInfo) :: rest) none)
    (info : α) : ∃ after, memory.insertAfter head info = some after ∧
      Seg after.heap link ((head,headInfo) :: (memory.limit,info) :: rest) none ∧
      Local memory after (own i) (addrs ((head,headInfo) :: (memory.limit,info) :: rest)) := by
  obtain ⟨rfl,next,held,behind⟩ := seg
  change own i = head :: addrs rest at here
  have inside : head ∈ own i := here ▸ List.mem_cons_self
  have apart : memory.limit ≠ head := Nat.ne_of_gt (owned.below inside)
  have nodup := owned.nodup i
  rw [here] at nodup
  have head_new := (List.nodup_cons.mp nodup).1
  have fresh : memory.limit ∉ addrs rest := by
    intro again
    have member : memory.limit ∈ own i := here ▸ List.mem_cons_of_mem head again
    exact Nat.lt_irrefl _ (owned.below member)
  have first := local_malloc owned i ⟨info,next⟩
  have second : Local _ ((memory.malloc ⟨info,next⟩).store ⟨headInfo,some memory.limit⟩ head) _ _ :=
    local_store (owned.step first) (by rw [Function.update_self]; exact List.mem_cons_of_mem _ inside)
      ⟨headInfo,some memory.limit⟩
  rw [Function.update_self] at second
  refine ⟨_,by rw [Memory.insertAfter,held]; rfl,⟨rfl,some memory.limit,Memory.store_self,rfl,next,?_,?_⟩,?_⟩
  · rw [Memory.store_other apart]
    exact Memory.malloc_self
  · exact seg_write head_new (seg_write fresh behind)
  · refine local_perm (local_trans first second) ?_
    rw [here]
    exact List.Perm.swap _ _ _

theorem owned_unlink (owned : Owned memory own) {front back : List (Cell α)} {pre cell : Cell α}
    (here : own i = addrs (front ++ pre :: cell :: back))
    (seg : Seg memory.heap link (front ++ pre :: cell :: back) none) :
    ∃ after next, memory.unlink pre.1 cell.1 = some (after,next) ∧ Seg after.heap link (front ++ [pre]) next ∧
      Seg after.heap next back none ∧ Local memory after (own i) (addrs (front ++ pre :: back)) := by
  obtain ⟨after,next,unlinked,before,behind⟩ := seg_unlink seg (here ▸ owned.nodup i)
  have ran : memory.unlink pre.1 cell.1 = some (⟨after,memory.limit⟩,next) := by rw [Memory.unlink,unlinked]; rfl
  refine ⟨_,next,ran,before,behind,?_⟩
  have gone : (own i).Perm (cell.1 :: addrs (front ++ pre :: back)) := by
    rw [here]
    simp only [addrs,List.map_append,List.map_cons]
    exact (List.perm_append_left_iff _).mpr (List.Perm.swap _ _ _) |>.trans List.perm_middle
  have member : pre.1 ∈ own i := by
    rw [here]
    exact List.mem_map_of_mem (List.mem_append_right _ List.mem_cons_self)
  rw [LinkedList.unlink] at unlinked
  split at unlinked
  · rename_i held node _ _
    obtain ⟨rfl,_⟩ := Prod.mk.inj (Option.some.inj unlinked)
    have first := local_store owned member {held with next := node.next}
    have second := local_release (i := i) (owned.step first) (by rwa [Function.update_self])
    rw [Function.update_self] at second
    exact local_trans first second
  · cases unlinked

end Lists

end MoCodes.Lib.Owners
