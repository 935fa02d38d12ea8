import Mathlib.Logic.Function.Basic
import Mathlib.Tactic.Common

/-! Files under directory entries. Several entries may lead to one file, an entry without
a file gets a new one when it is opened for writing, and numbers of new files are never
in use already. -/
namespace MoCodes.Lib.FileStore

variable {ε α : Type}

structure Files (ε α : Type) where
  fileOf : ε → Option Nat
  content : Nat → List α
  next : Nat
  used : ∀ entry id, fileOf entry = some id → id < next

variable (files : Files ε α)

def Files.read (entry : ε) : Option (List α) := (files.fileOf entry).map files.content

def Files.put (id : Nat) (text : List α) : Files ε α :=
  { files with content := Function.update files.content id text }

@[simp] theorem put_fileOf (id : Nat) (text : List α) : (files.put id text).fileOf = files.fileOf := rfl

@[simp] theorem put_content (id : Nat) (text : List α) : (files.put id text).content id = text := by
  simp [Files.put]

theorem put_content_ne {id other : Nat} (apart : other ≠ id) (text : List α) :
    (files.put id text).content other = files.content other := by
  simp [Files.put,apart]

theorem put_same {id : Nat} {text : List α} (same : files.content id = text) :
    files.put id text = files := by
  rw [Files.put,← same,Function.update_eq_self]

theorem read_eq_some {entry : ε} {text : List α} :
    files.read entry = some text ↔ ∃ id, files.fileOf entry = some id ∧ files.content id = text :=
  Option.map_eq_some_iff

variable [DecidableEq ε]

def Files.create (entry : ε) : Files ε α where
  fileOf := Function.update files.fileOf entry (some files.next)
  content := files.content
  next := files.next+1
  used := by
    intro other id leads
    rcases eq_or_ne other entry with rfl | apart
    · rw [Function.update_self] at leads
      cases leads
      exact Nat.lt_succ_self _
    · rw [Function.update_of_ne apart] at leads
      exact Nat.lt_succ_of_lt (files.used other id leads)

/-- Opening for writing: the file at the entry is emptied, a missing one is made. -/
def Files.truncate (entry : ε) : Nat × Files ε α :=
  match files.fileOf entry with
  | some id => (id,files.put id [])
  | none => (files.next,(files.create entry).put files.next [])

def Files.unlink (entry : ε) : Files ε α where
  fileOf := Function.update files.fileOf entry none
  content := files.content
  next := files.next
  used := by
    intro other id leads
    rcases eq_or_ne other entry with rfl | apart
    · rw [Function.update_self] at leads
      cases leads
    · rw [Function.update_of_ne apart] at leads
      exact files.used other id leads

@[simp] theorem unlink_fileOf (entry : ε) : (files.unlink entry).fileOf entry = none := by
  simp [Files.unlink]

theorem unlink_fileOf_ne {entry other : ε} (apart : other ≠ entry) :
    (files.unlink entry).fileOf other = files.fileOf other := by
  simp [Files.unlink,apart]

@[simp] theorem unlink_content (entry : ε) : (files.unlink entry).content = files.content := rfl

theorem truncate_found {entry : ε} {id : Nat} (leads : files.fileOf entry = some id) :
    files.truncate entry = (id,files.put id []) := by
  rw [Files.truncate,leads]

@[simp] theorem truncate_fileOf (entry : ε) :
    (files.truncate entry).2.fileOf entry = some (files.truncate entry).1 := by
  cases leads : files.fileOf entry with
  | some id => simp [Files.truncate,leads]
  | none => simp [Files.truncate,leads,Files.create]

theorem truncate_fileOf_ne {entry other : ε} (apart : other ≠ entry) :
    (files.truncate entry).2.fileOf other = files.fileOf other := by
  cases leads : files.fileOf entry with
  | some id => simp [Files.truncate,leads]
  | none => simp [Files.truncate,leads,Files.create,apart]

@[simp] theorem truncate_content (entry : ε) :
    (files.truncate entry).2.content (files.truncate entry).1 = [] := by
  cases leads : files.fileOf entry with
  | some id => simp [Files.truncate,leads]
  | none => simp [Files.truncate,leads]

theorem truncate_content_ne {entry : ε} {id : Nat} (apart : id ≠ (files.truncate entry).1) :
    (files.truncate entry).2.content id = files.content id := by
  cases leads : files.fileOf entry with
  | some other =>
    simp only [Files.truncate,leads] at apart ⊢
    exact put_content_ne _ apart _
  | none =>
    simp only [Files.truncate,leads] at apart ⊢
    rw [put_content_ne _ apart]
    rfl

/-- A file that is there is opened for writing only through an entry that leads to it. -/
theorem truncate_id {entry other : ε} {id : Nat} (leads : files.fileOf other = some id) :
    (files.truncate entry).1 = id ↔ files.fileOf entry = some id := by
  cases target : files.fileOf entry with
  | some found => simp [Files.truncate,target]
  | none =>
    have old := files.used other id leads
    simp only [Files.truncate,target]
    constructor
    · intro same
      omega
    · intro same
      cases same

theorem truncate_keeps {entry other : ε} {id : Nat} (leads : files.fileOf other = some id) :
    (files.truncate entry).2.fileOf other = some id := by
  rcases eq_or_ne other entry with rfl | apart
  · rw [truncate_fileOf,(truncate_id files leads).mpr leads]
  · rw [truncate_fileOf_ne files apart,leads]

theorem truncate_put_read_same {entry other : ε} (text : List α)
    (reaches : other = entry ∨ ∃ id, files.fileOf other = some id ∧ files.fileOf entry = some id) :
    ((files.truncate entry).2.put (files.truncate entry).1 text).read other = some text := by
  have leads : (files.truncate entry).2.fileOf other = some (files.truncate entry).1 := by
    rcases reaches with rfl | ⟨id,found,target⟩
    · exact truncate_fileOf files other
    · rw [truncate_keeps files found,(truncate_id files target).mpr target]
  rw [Files.read,put_fileOf,leads,Option.map_some,put_content]

theorem truncate_content_of {entry other : ε} {id : Nat} (leads : files.fileOf other = some id) :
    (files.truncate entry).2.content id = if files.fileOf entry = some id then [] else files.content id := by
  split
  · next here =>
    have same := (truncate_id files leads).mpr here
    rw [← same,truncate_content]
  · next apart =>
    exact truncate_content_ne files fun hit => apart ((truncate_id files leads).mp hit.symm)

theorem truncate_put_content_of {entry other : ε} {id : Nat} (leads : files.fileOf other = some id) (text : List α) :
    ((files.truncate entry).2.put (files.truncate entry).1 text).content id =
      if files.fileOf entry = some id then text else files.content id := by
  split
  · next here =>
    have same := (truncate_id files leads).mpr here
    rw [same,put_content]
  · next apart =>
    have untouched : id ≠ (files.truncate entry).1 := fun hit => apart ((truncate_id files leads).mp hit.symm)
    rw [put_content_ne _ untouched,truncate_content_ne files untouched]

theorem truncate_put_read_apart {entry other : ε} (text : List α) (apart : other ≠ entry)
    (files_apart : ∀ id, files.fileOf other = some id → files.fileOf entry ≠ some id) :
    ((files.truncate entry).2.put (files.truncate entry).1 text).read other = files.read other := by
  rw [Files.read,Files.read,put_fileOf,truncate_fileOf_ne files apart]
  apply Option.map_congr
  intro id found
  have untouched : id ≠ (files.truncate entry).1 :=
    fun same => files_apart id found ((truncate_id files found).mp same.symm)
  rw [put_content_ne _ untouched,truncate_content_ne files untouched]

/-- The entry is opened for writing and gets the text. -/
def Files.write (entry : ε) (text : List α) : Files ε α :=
  (files.truncate entry).2.put (files.truncate entry).1 text

/-- No two of the entries lead to one file. -/
def Files.Separate (entries : List ε) : Prop :=
  ∀ entry ∈ entries, ∀ other ∈ entries, ∀ id,
    files.fileOf entry = some id → files.fileOf other = some id → entry = other

section Separate

variable {files} {entries : List ε} {entry other : ε} (separate : files.Separate entries) (here : entry ∈ entries)
  (text : List α)
include separate here

/-- Among separate entries a file that is written is a map that is updated. -/
theorem Files.Separate.read_write (member : other ∈ entries) :
    (files.write entry text).read other = if other = entry then some text else files.read other := by
  split_ifs with same
  · exact truncate_put_read_same files text (Or.inl same)
  · apply truncate_put_read_apart files text same
    intro id found shared
    exact same (separate other member entry here id found shared)

theorem Files.Separate.write : (files.write entry text).Separate entries := by
  -- the file that is written is new, or was the entry's own already
  have own (third : ε) (member : third ∈ entries)
      (found : (files.write entry text).fileOf third = some (files.truncate entry).1) : third = entry := by
    by_contra apart
    rw [Files.write,put_fileOf,truncate_fileOf_ne files apart] at found
    have shared := (@truncate_id _ _ files _ entry _ _ found).mp rfl
    exact apart (separate third member entry here _ found shared)
  have writes : (files.write entry text).fileOf entry = some (files.truncate entry).1 := by
    rw [Files.write,put_fileOf,truncate_fileOf]
  intro first member second member' id found found'
  by_cases start : first = entry
  · rw [start,writes] at found
    rw [start]
    exact (own second member' (found'.trans found.symm)).symm
  · by_cases finish : second = entry
    · rw [finish,writes] at found'
      exact absurd (own first member (found.trans found'.symm)) start
    · rw [Files.write,put_fileOf,truncate_fileOf_ne files start] at found
      rw [Files.write,put_fileOf,truncate_fileOf_ne files finish] at found'
      exact separate first member second member' id found found'

end Separate

end MoCodes.Lib.FileStore
