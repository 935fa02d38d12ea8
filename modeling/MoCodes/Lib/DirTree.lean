import Mathlib.Algebra.Order.BigOperators.Group.List
import Mathlib.Algebra.Order.Ring.Nat
import Mathlib.Data.List.Nodup

/-! What a program sees of a directory tree: the names a directory lists, and what a path
leads to. -/
namespace MoCodes.Lib.DirTree

abbrev Path := List Char

inductive FileKind where
  | reg | dir | other
  deriving DecidableEq,Repr

structure Stat where
  kind : FileKind
  size : Int
  deriving DecidableEq,Repr

/-- The longest name a directory can hold, in bytes. -/
def nameMax : Nat := 255

/-- A directory lists each of its names once. -/
structure Dirs where
  opendir : Path → Option (List Path)
  stat : Path → Option Stat
  short : ∀ {path names}, opendir path = some names → ∀ name ∈ names, name.length ≤ nameMax
  distinct : ∀ {path names}, opendir path = some names → names.Nodup

def join (dir name : Path) : Path := dir ++ '/' :: name

/-- What is left of a string that is printed into a buffer of `bound` bytes. -/
def cut (bound : Nat) (path : Path) : Path := path.take (bound-1)

def isDot (name : Path) : Bool := name = ['.'] || name = ['.','.']

def entries (names : List Path) : List Path := names.filter (!isDot ·)

section Paths

variable (dirs : Dirs)

def isKind (kind : FileKind) (path : Path) : Bool :=
  match dirs.stat path with
  | none => false
  | some stat => stat.kind = kind

def sizeAt (path : Path) : Int :=
  match dirs.stat path with
  | none => 0
  | some stat => stat.size

variable {dirs}

theorem cut_fits {bound : Nat} {path : Path} (fits : path.length < bound) : cut bound path = path :=
  List.take_of_length_le (Nat.le_sub_one_of_lt fits)

theorem stat_of_kind {kind : FileKind} {path : Path} (is : isKind dirs kind path = true) :
    dirs.stat path = some ⟨kind,sizeAt dirs path⟩ := by
  unfold isKind at is
  unfold sizeAt
  split at is
  · cases is
  · rename_i stat here
    rw [here]
    obtain ⟨kind',size⟩ := stat
    obtain rfl : kind' = kind := by simpa using is
    rfl

end Paths

section Counting

variable {α : Type}

/-- When each part is at most as long as its counterpart and both have the same total, the
parts have the same lengths. -/
theorem lengths_of_sum {less more : α → Nat} {items : List α}
    (below : ∀ item ∈ items, less item ≤ more item)
    (total : (items.map more).sum ≤ (items.map less).sum) : ∀ item ∈ items, less item = more item := by
  induction items with
  | nil => simp
  | cons item items ih =>
    obtain ⟨here,others⟩ := List.forall_mem_cons.mp below
    have rest := List.sum_le_sum others
    simp only [List.map_cons,List.sum_cons] at total
    rw [List.forall_mem_cons]
    exact ⟨by omega,ih others (by omega)⟩

theorem filter_same {p q : α → Bool} {items : List α} (weaker : ∀ item ∈ items, p item → q item)
    (count : (items.filter q).length ≤ (items.filter p).length) : ∀ item ∈ items, q item → p item := by
  have sub : (items.filter p).Sublist (items.filter q) := by
    have both : items.filter p = (items.filter q).filter p := by
      rw [List.filter_filter]
      apply List.filter_congr
      intro item member
      cases passes : p item with
      | false => rfl
      | true => simp [weaker item member passes]
    rw [both]
    exact List.filter_sublist
  intro item member passes
  have same := sub.eq_of_length_le count
  exact (List.mem_filter.mp (same ▸ List.mem_filter.mpr ⟨member,passes⟩)).2

/-- Two lists of what is made of some of the items, from which the item can be told, are the same
up to order exactly if they are made of the same items and in the same way. -/
theorem perm_filter_map_iff {β κ : Type} {items : List α} {p q : α → Bool} {f g : α → β} (key : β → κ)
    (same : ∀ item ∈ items, key (f item) = key (g item))
    (apart : ∀ item ∈ items, ∀ other ∈ items, key (g item) = key (g other) → item = other) :
    ((items.filter p).map f).Perm ((items.filter q).map g) ↔
      ∀ item ∈ items, p item = q item ∧ (q item = true → f item = g item) := by
  constructor
  · intro perm item member
    have forth : p item = true → q item = true ∧ f item = g item := by
      intro passes
      have there := perm.mem_iff.mp (List.mem_map_of_mem (f := f) (List.mem_filter.mpr ⟨member,passes⟩))
      obtain ⟨other,kept,made⟩ := List.mem_map.mp there
      obtain ⟨inside,allowed⟩ := List.mem_filter.mp kept
      obtain rfl := apart item member other inside (by rw [← same item member,made])
      exact ⟨allowed,made.symm⟩
    have back : q item = true → p item = true ∧ f item = g item := by
      intro passes
      have there := perm.mem_iff.mpr (List.mem_map_of_mem (f := g) (List.mem_filter.mpr ⟨member,passes⟩))
      obtain ⟨other,kept,made⟩ := List.mem_map.mp there
      obtain ⟨inside,allowed⟩ := List.mem_filter.mp kept
      obtain rfl := apart item member other inside (by rw [← same other inside,made])
      exact ⟨allowed,made⟩
    exact ⟨Bool.eq_iff_iff.mpr ⟨fun passes => (forth passes).1,fun passes => (back passes).1⟩,
      fun passes => (back passes).2⟩
  · intro agree
    have filters : items.filter p = items.filter q := List.filter_congr fun item member => (agree item member).1
    rw [filters]
    refine List.Perm.of_eq (List.map_congr_left fun item member => ?_)
    obtain ⟨inside,passes⟩ := List.mem_filter.mp member
    exact (agree item inside).2 passes

end Counting

end MoCodes.Lib.DirTree
