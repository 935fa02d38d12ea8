import MoCodes.Cps.Server.Readers

/-! The nodes of the file manager while files are read: the node that is found for a type and a name,
what the lists say after it has been written, and the lists given back. -/
namespace MoCodes.Cps.Server.FileMgr
open MoCodes.Lib.LinkedList MoCodes.Lib.DirTree

section Lists

def isNamed (name : Path) (info : FileInfo) : Bool := info.basicInfo.filename = name

/-- What the first cell of that name says. -/
def entryOf (cells : List (Cell FileInfo)) (name : Path) : Option FileInfo :=
  (cells.find? fun cell => isNamed name cell.2).map Prod.snd

/-- Every type has a list of its own, and every node is in the list of its type. -/
structure Kept (list : DirFileList) (cells : FileType → List (Cell FileInfo)) : Prop where
  head : ∀ type, list.pFileList type = some type.value
  listed : ∀ type, Listed list.heap type.value (cells type)
  bounds : ∀ type, ∀ addr ∈ addrs (cells type), FileType.all.length ≤ addr ∧ addr < list.used
  typed : ∀ type, ∀ cell ∈ cells type, cell.2.basicInfo.type = type

variable {list : DirFileList} {cells : FileType → List (Cell FileInfo)} {type other : FileType} {name : Path}
  {info : FileInfo}

theorem findNode_cells {heap : Heap FileInfo} {fuel : Nat} {link : Option Nat} {cells : List (Cell FileInfo)}
    (seg : Seg heap link cells none) (enough : cells.length ≤ fuel) :
    findNode heap name fuel link = some ((cells.find? fun cell => isNamed name cell.2).map Prod.fst) := by
  induction cells generalizing fuel link with
  | nil =>
    obtain rfl : link = none := seg
    rw [findNode]
    rfl
  | cons cell cells ih =>
    obtain ⟨rfl,next,node,rest⟩ := seg
    obtain ⟨fuel,rfl⟩ : ∃ less, fuel = less+1 := Nat.exists_eq_succ_of_ne_zero (by
      rw [List.length_cons] at enough
      omega)
    have later := ih rest (Nat.le_of_succ_le_succ enough)
    by_cases same : cell.2.basicInfo.filename = name
    · simp [findNode,node,same,isNamed]
    · simp [findNode,node,same,isNamed,later]

theorem Kept.length_le (kept : Kept list cells) (type : FileType) : (cells type).length ≤ list.used := by
  have nodup := (List.nodup_cons.mp (kept.listed type).nodup).2
  have inside : addrs (cells type) ⊆ List.range list.used := fun addr member =>
    List.mem_range.mpr (kept.bounds type addr member).2
  have size := (List.subperm_of_subset nodup inside).length_le
  rwa [addrs,List.length_map,List.length_range] at size

theorem Kept.findFileNode (kept : Kept list cells) : findFileNode list name type =
    some (((cells type).find? fun cell => isNamed name cell.2).map Prod.fst) := by
  obtain ⟨⟨info,first,at_head,seg⟩,_⟩ := kept.listed type
  simp only [FileMgr.findFileNode,kept.head,at_head,findNode_cells seg (kept.length_le type)]

theorem entryOf_some {cells : List (Cell FileInfo)} (there : entryOf cells name = some info) : ∃ pNode,
    (cells.find? fun cell => isNamed name cell.2) = some (pNode,info) ∧ (pNode,info) ∈ cells ∧
      info.basicInfo.filename = name := by
  obtain ⟨cell,found,rfl⟩ := Option.map_eq_some_iff.mp there
  have named := List.find?_some found
  exact ⟨cell.1,found,List.mem_of_find?_eq_some found,of_decide_eq_true named⟩

theorem Kept.missing (kept : Kept list cells) (missing : entryOf (cells type) name = none) :
    FileMgr.findFileNode list name type = some none := by
  rw [kept.findFileNode,Option.map_eq_none_iff.mp missing]
  rfl

/-- A node in two lists would have two types. -/
theorem Kept.same_type (kept : Kept list cells) {addr : Nat} (one : addr ∈ addrs (cells other))
    (two : addr ∈ addrs (cells type)) : other = type := by
  obtain ⟨cell,inside,rfl⟩ := List.mem_map.mp one
  obtain ⟨cell',inside',same⟩ := List.mem_map.mp two
  obtain ⟨⟨_,_,_,seg⟩,_⟩ := kept.listed other
  obtain ⟨⟨_,_,_,seg'⟩,_⟩ := kept.listed type
  obtain ⟨next,here⟩ := seg_cell seg inside
  obtain ⟨next',here'⟩ := seg_cell seg' inside'
  rw [same,here] at here'
  have infos : cell.2 = cell'.2 := congrArg Node.info (Option.some.inj here')
  have types := kept.typed other cell inside
  rw [infos] at types
  exact types.symm.trans (kept.typed type cell' inside')

/-- The lists after the node of a name has been written. -/
def changedCells (cells : FileType → List (Cell FileInfo)) (type : FileType) (name : Path)
    (change : FileInfo → FileInfo) : FileType → List (Cell FileInfo) :=
  Function.update cells type
    (modifyFirst (fun cell => isNamed name cell.2) (fun cell => (cell.1,change cell.2)) (cells type))

variable {change : FileInfo → FileInfo} (keeps : ∀ info, (change info).basicInfo = info.basicInfo)

theorem changedCells_addrs (type other : FileType) (name : Path) :
    addrs (changedCells cells type name change other) = addrs (cells other) := by
  by_cases equal : other = type
  · subst equal
    rw [changedCells,Function.update_self]
    exact modifyFirst_addrs (isNamed name) change _
  · rw [changedCells,Function.update_of_ne equal]

include keeps

theorem Kept.changed (kept : Kept list cells) {pNode : Nat} {node : Node FileInfo}
    (found : ((cells type).find? fun cell => isNamed name cell.2) = some (pNode,info))
    (here : list.heap pNode = some node) :
    Kept {list with heap := write list.heap pNode {node with info := change node.info}}
      (changedCells cells type name change) := by
  have member := List.mem_of_find?_eq_some found
  have inside : pNode ∈ addrs (cells type) := List.mem_map_of_mem member
  refine ⟨kept.head,fun other => ?_,fun other => ?_,fun other cell there => ?_⟩
  · obtain ⟨⟨headInfo,first,at_head,seg⟩,nodup⟩ := kept.listed other
    have apart : other.value ≠ pNode := by
      intro equal
      exact absurd (FileType.value_lt other) (Nat.not_lt_of_le (equal ▸ (kept.bounds type pNode inside).1))
    refine ⟨⟨headInfo,first,?_,?_⟩,by rwa [changedCells_addrs]⟩
    · simp only [write,Function.update_of_ne apart,at_head]
    by_cases equal : other = type
    · subst equal
      rw [changedCells,Function.update_self]
      exact write_first seg (List.nodup_cons.mp nodup).2 (by rw [found]; rfl) here
    · rw [changedCells,Function.update_of_ne equal]
      exact seg_write (fun shared => equal (kept.same_type shared inside)) seg
  · rw [changedCells_addrs]
    exact kept.bounds other
  · by_cases equal : other = type
    · subst equal
      rw [changedCells,Function.update_self] at there
      rcases mem_modifyFirst there with old | ⟨old,inside,rfl⟩
      · exact kept.typed other cell old
      · exact (congrArg BasicFileInfo.type (keeps old.2)).trans (kept.typed other old inside)
    · rw [changedCells,Function.update_of_ne equal] at there
      exact kept.typed other cell there

theorem entryOf_changed (type : FileType) (name : Path) (other : FileType) (asked : Path) :
    entryOf (changedCells cells type name change other) asked =
      if other = type ∧ asked = name then (entryOf (cells type) name).map change else entryOf (cells other) asked := by
  have named (asked : Path) (cell : Cell FileInfo) : isNamed asked (change cell.2) = isNamed asked cell.2 := by
    rw [isNamed,keeps,isNamed]
  by_cases equal : other = type
  · subst equal
    rw [changedCells,Function.update_self,entryOf]
    by_cases same : asked = name
    · subst same
      rw [if_pos ⟨rfl,rfl⟩,find_modifyFirst _ (fun cell : Cell FileInfo => (cell.1,change cell.2)) (named asked),
        entryOf,Option.map_map,Option.map_map]
      rfl
    · rw [if_neg (fun both => same both.2),entryOf]
      apply find_modifyFirst_view
      · exact named asked
      · intro cell one two
        exact absurd ((of_decide_eq_true two).symm.trans (of_decide_eq_true one)) same
  · rw [changedCells,Function.update_of_ne equal,if_neg (fun both => equal both.1)]

end Lists

section Entries

def setEntry (entry : FileType → Path → Option FileInfo) (type : FileType) (name : Path) (info : FileInfo) :
    FileType → Path → Option FileInfo :=
  fun other asked => if other = type ∧ asked = name then some info else entry other asked

/-- The lists as a table of what the nodes of each name say. -/
def Sees (list : DirFileList) (entry : FileType → Path → Option FileInfo) : Prop :=
  ∃ cells, Kept list cells ∧ ∀ type name, entryOf (cells type) name = entry type name

variable {list : DirFileList} {entry : FileType → Path → Option FileInfo} {type : FileType} {name : Path}
  {info : FileInfo}

theorem Sees.missing (sees : Sees list entry) (missing : entry type name = none) :
    findFileNode list name type = some none := by
  obtain ⟨cells,kept,same⟩ := sees
  exact kept.missing ((same type name).trans missing)

/-- The node of an entry, and what the lists say after it has been written. -/
structure NodeOf (list : DirFileList) (entry : FileType → Path → Option FileInfo) (type : FileType) (name : Path)
    (info : FileInfo) (pNode : Nat) (next : Option Nat) : Prop where
  found : findFileNode list name type = some (some pNode)
  here : list.heap pNode = some ⟨info,next⟩
  named : info.basicInfo.filename = name
  typed : info.basicInfo.type = type
  written : ∀ change : FileInfo → FileInfo, (∀ info, (change info).basicInfo = info.basicInfo) →
    Sees {list with heap := write list.heap pNode ⟨change info,next⟩} (setEntry entry type name (change info))

theorem Sees.node (sees : Sees list entry) (there : entry type name = some info) :
    ∃ pNode next, NodeOf list entry type name info pNode next := by
  obtain ⟨cells,kept,same⟩ := sees
  have held := (same type name).trans there
  obtain ⟨pNode,found,member,named⟩ := entryOf_some held
  obtain ⟨⟨_,_,_,seg⟩,_⟩ := kept.listed type
  obtain ⟨next,here⟩ := seg_cell seg member
  refine ⟨pNode,next,?_,here,named,kept.typed type _ member,fun change keeps => ?_⟩
  · rw [kept.findFileNode,found]
    rfl
  · refine ⟨_,kept.changed keeps found here,fun other asked => ?_⟩
    rw [entryOf_changed keeps,held,setEntry,same]
    rfl

end Entries

section Freeing

variable {list after : DirFileList} {cells : FileType → List (Cell FileInfo)} {type other : FileType}

/-- These addresses are given back, and no others. -/
structure Freed (addrs : List Nat) (heap after : Heap FileInfo) : Prop where
  gone : ∀ addr ∈ addrs, after addr = none
  same : ∀ addr ∉ addrs, after addr = heap addr

theorem freed_free (heap : Heap FileInfo) (addr : Nat) : Freed [addr] heap (free heap addr) where
  gone := by
    intro other member
    obtain rfl := List.mem_singleton.mp member
    exact Function.update_self _ _ _
  same := by
    intro other new
    exact Function.update_of_ne (fun same => new (List.mem_singleton.mpr same)) _ _

theorem Freed.trans {first second : List Nat} {heap mid last : Heap FileInfo} (one : Freed first heap mid)
    (two : Freed second mid last) : Freed (first++second) heap last where
  gone := by
    intro addr member
    by_cases later : addr ∈ second
    · exact two.gone addr later
    · rw [two.same addr later]
      exact one.gone addr ((List.mem_append.mp member).resolve_right later)
  same := by
    intro addr new
    rw [List.mem_append,not_or] at new
    rw [two.same addr new.2,one.same addr new.1]

theorem Freed.seg {freed : List Nat} {heap after : Heap FileInfo} {link : Option Nat}
    {cells : List (Cell FileInfo)} (given : Freed freed heap after) (apart : List.Disjoint (addrs cells) freed)
    (seg : Seg heap link cells none) : Seg after link cells none :=
  seg_frame (fun addr member => given.same addr (apart member)) seg

theorem freeNodes_cells {heap : Heap FileInfo} {fuel : Nat} {link : Option Nat} {cells : List (Cell FileInfo)}
    (seg : Seg heap link cells none) (nodup : (addrs cells).Nodup) (enough : cells.length ≤ fuel) :
    ∃ after, freeNodes fuel heap link = some after ∧ Freed (addrs cells) heap after := by
  induction cells generalizing heap fuel link with
  | nil =>
    obtain rfl : link = none := seg
    exact ⟨heap,by rw [freeNodes],fun _ member => absurd member List.not_mem_nil,fun _ _ => rfl⟩
  | cons cell cells ih =>
    obtain ⟨rfl,next,node,rest⟩ := seg
    obtain ⟨new,others⟩ := List.nodup_cons.mp nodup
    obtain ⟨fuel,rfl⟩ : ∃ less, fuel = less+1 := Nat.exists_eq_succ_of_ne_zero (by
      rw [List.length_cons] at enough
      omega)
    have here := freed_free heap cell.1
    have kept := here.seg (List.disjoint_singleton.mpr new) rest
    obtain ⟨after,freed,later⟩ := ih kept others (Nat.le_of_succ_le_succ enough)
    exact ⟨after,by simp only [freeNodes,node,freed],here.trans later⟩

/-- The nodes of a type, its head among them. -/
def nodesOf (cells : FileType → List (Cell FileInfo)) (type : FileType) : List Nat := type.value :: addrs (cells type)

theorem Kept.disjoint (kept : Kept list cells) (different : other ≠ type) :
    List.Disjoint (nodesOf cells other) (nodesOf cells type) := by
  intro addr one two
  rcases List.mem_cons.mp one with rfl | inside
  · rcases List.mem_cons.mp two with same | inside
    · exact different (FileType.value_inj same)
    · exact absurd (FileType.value_lt other) (Nat.not_lt_of_le (kept.bounds type _ inside).1)
  · rcases List.mem_cons.mp two with rfl | inside'
    · exact absurd (FileType.value_lt type) (Nat.not_lt_of_le (kept.bounds other _ inside).1)
    · exact different (kept.same_type inside inside')

theorem freeDirfileList_run (at_type : list.pFileList type = some type.value)
    (listed : Listed list.heap type.value (cells type)) (enough : (cells type).length ≤ list.used) :
    ∃ heap, freeDirfileList type list = some {list with heap := heap} ∧
      Freed (nodesOf cells type) list.heap heap := by
  obtain ⟨⟨info,first,at_head,seg⟩,nodup⟩ := listed
  obtain ⟨new,others⟩ := List.nodup_cons.mp nodup
  obtain ⟨heap,freed,given⟩ := freeNodes_cells seg others enough
  have head : heap type.value ≠ none := by
    rw [given.same _ new,at_head]
    exact Option.some_ne_none _
  have all := given.trans (freed_free heap type.value)
  refine ⟨free heap type.value,by simp only [freeDirfileList,at_type,at_head,freed,if_neg head],?_,?_⟩
  · intro addr member
    exact all.gone addr (List.mem_append.mpr ((List.mem_cons.mp member).symm.imp_right List.mem_singleton.mpr))
  · intro addr outside
    apply all.same addr
    intro member
    exact outside (List.mem_cons.mpr ((List.mem_append.mp member).symm.imp_left List.mem_singleton.mp))

theorem freeLists_run (apart : ∀ type other, other ≠ type → List.Disjoint (nodesOf cells other) (nodesOf cells type))
    {types : List FileType} (once : types.Nodup) (at_types : ∀ type, list.pFileList type = some type.value)
    (listed : ∀ type ∈ types, Listed list.heap type.value (cells type))
    (enough : ∀ type, (cells type).length ≤ list.used) :
    ∃ heap, types.foldlM (fun list type => freeDirfileList type list) list = some {list with heap := heap} ∧
      Freed (types.flatMap (nodesOf cells)) list.heap heap := by
  induction types generalizing list with
  | nil => exact ⟨list.heap,rfl,fun _ member => absurd member List.not_mem_nil,fun _ _ => rfl⟩
  | cons type types ih =>
    obtain ⟨new,others⟩ := List.nodup_cons.mp once
    obtain ⟨heap,freed,given⟩ := freeDirfileList_run (at_types type) (listed type List.mem_cons_self) (enough type)
    have kept (other : FileType) (member : other ∈ types) : Listed heap other.value (cells other) := by
      have different : other ≠ type := fun same => new (same ▸ member)
      obtain ⟨⟨info,first,at_head,seg⟩,nodup⟩ := listed other (List.mem_cons_of_mem _ member)
      have outside := apart type other different
      refine ⟨⟨info,first,?_,given.seg (fun _ inside => outside (List.mem_cons_of_mem _ inside)) seg⟩,nodup⟩
      rw [given.same _ (outside List.mem_cons_self),at_head]
    obtain ⟨last,later,rest⟩ := @ih {list with heap := heap} others at_types kept enough
    refine ⟨last,?_,given.trans rest⟩
    rw [List.foldlM_cons,freed]
    exact later

theorem Kept.unInit (kept : Kept list cells) : ∃ after, unInitDirfileList list = some after ∧
    ∀ name type, FileMgr.findFileNode after name type = none := by
  have once : FileType.all.Nodup := by decide
  obtain ⟨heap,freed,given⟩ := freeLists_run (fun _ _ different => kept.disjoint different) once
    kept.head (fun type _ => kept.listed type) kept.length_le
  refine ⟨{list with heap := heap,fileNum := fun _ => 0,dirPath := []},?_,fun name type => ?_⟩
  · rw [unInitDirfileList,freeLists,freed]
    rfl
  · have head : heap type.value = none :=
      given.gone _ (List.mem_flatMap.mpr ⟨type,FileType.mem_all type,List.mem_cons_self⟩)
    simp only [FileMgr.findFileNode,kept.head,head]

end Freeing

end MoCodes.Cps.Server.FileMgr
