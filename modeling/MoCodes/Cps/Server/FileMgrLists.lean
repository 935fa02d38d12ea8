import MoCodes.Cps.Server.FileMgr

/-! The lists of the file manager while the sub-directories are read. Every list is a chain
from its head node; reading one sub-directory puts a node for each regular file behind its
head and leaves the other lists as they are. -/
namespace MoCodes.Cps.Server.FileMgr
open MoCodes.Lib.LinkedList MoCodes.Lib.DirTree

section Reading

variable (dirs : Dirs) (subdirpath : Path) (filetype : FileType)

def fileInfoAt (name : Path) : FileInfo := ⟨⟨sizeAt dirs (join subdirpath name),name,filetype⟩,none,0⟩

/-- The names that get a node. -/
def recorded (names : List Path) : List Path := (entries names).filter (isRegFile dirs subdirpath)

/-- The routine prints no path that is too long for its buffer. -/
def Fits (names : List Path) : Prop :=
  ∀ name ∈ recorded dirs subdirpath names, (join subdirpath name).length < filepathMaxlen

variable {dirs subdirpath filetype}

theorem recorded_cons (name : Path) (names : List Path) : recorded dirs subdirpath (name::names) =
    if isDot name = false ∧ isRegFile dirs subdirpath name = true then name :: recorded dirs subdirpath names
    else recorded dirs subdirpath names := by
  cases dot : isDot name <;> cases reg : isRegFile dirs subdirpath name <;>
    simp [recorded,entries,dot,reg]

theorem getFileInfo_fits {name : Path} (fits : (join subdirpath name).length < filepathMaxlen)
    (short : name.length ≤ nameMax) (reg : isRegFile dirs subdirpath name = true) :
    getFileInfo dirs subdirpath name filetype = some (.ok (fileInfoAt dirs subdirpath filetype name)) := by
  rw [isRegFile,cut_fits fits] at reg
  have whole : name.take (filenameMaxlen-1) = name := List.take_of_length_le short
  simp only [getFileInfo,if_neg (Nat.not_le_of_lt fits),stat_of_kind reg,whole,fileInfoAt]

theorem getFileInfo_over {name : Path} (long : ¬ (join subdirpath name).length < filepathMaxlen) :
    getFileInfo dirs subdirpath name filetype = none := by
  simp only [getFileInfo,if_pos (Nat.le_of_not_lt long)]

/-- The table after nodes with these infos were put behind `pCurNode`, whose next pointer
was `next`. -/
structure Grown (list after : DirFileList) (filetype : FileType) (pCurNode : Nat) (node : Node FileInfo)
    (infos : List FileInfo) : Prop where
  dirPath : after.dirPath = list.dirPath
  pFileList : after.pFileList = list.pFileList
  used : after.used = list.used+infos.length
  fileNum : after.fileNum = Function.update list.fileNum filetype (list.fileNum filetype+infos.length)
  frame : ∀ addr < list.used, addr ≠ pCurNode → after.heap addr = list.heap addr
  chain : ∃ link, after.heap pCurNode = some ⟨node.info,link⟩ ∧
    Seg after.heap link ((List.range' list.used infos.length).zip infos)
      (if infos = [] then node.next else none)

theorem grown_refl {list : DirFileList} {pCurNode : Nat} {node : Node FileInfo}
    (at_cur : list.heap pCurNode = some node) : Grown list list filetype pCurNode node [] where
  dirPath := rfl
  pFileList := rfl
  used := rfl
  fileNum := by simp
  frame := fun _ _ _ => rfl
  chain := ⟨node.next,at_cur,rfl⟩

def appended (list : DirFileList) (filetype : FileType) (pCurNode : Nat) (node : Node FileInfo)
    (info : FileInfo) : DirFileList :=
  {list with
    heap := write (write list.heap list.used ⟨info,none⟩) pCurNode {node with next := some list.used}
    used := list.used+1
    fileNum := Function.update list.fileNum filetype (list.fileNum filetype+1)}

section Appending

variable {list after : DirFileList} {pCurNode : Nat} {node : Node FileInfo} {infos : List FileInfo}

theorem appended_heap (info : FileInfo) : (appended list filetype pCurNode node info).heap =
    write (write list.heap list.used ⟨info,none⟩) pCurNode {node with next := some list.used} := rfl

theorem appended_fileNum (info : FileInfo) : (appended list filetype pCurNode node info).fileNum =
    Function.update list.fileNum filetype (list.fileNum filetype+1) := rfl

variable (filetype) in
theorem appendNode_cur (info : FileInfo) (at_cur : list.heap pCurNode = some node) :
    appendNode list filetype pCurNode info = some (appended list filetype pCurNode node info) := by
  simp only [appendNode,at_cur,appended]

theorem appended_new (info : FileInfo) (below : pCurNode < list.used) :
    (appended list filetype pCurNode node info).heap list.used = some ⟨info,none⟩ := by
  rw [appended_heap,write,Function.update_of_ne (Nat.ne_of_gt below),write,Function.update_self]

theorem appended_grown {info : FileInfo} (below : pCurNode < list.used)
    (grown : Grown (appended list filetype pCurNode node info) after filetype list.used ⟨info,none⟩ infos) :
    Grown list after filetype pCurNode node (info::infos) := by
  obtain ⟨dirPath,pFileList,used,fileNum,frame,link,at_new,seg⟩ := grown
  refine ⟨dirPath,pFileList,?_,?_,?_,some list.used,?_,?_⟩
  · rw [used,List.length_cons]
    exact Nat.add_right_comm _ _ _
  · rw [fileNum,appended_fileNum,Function.update_idem,Function.update_self,List.length_cons]
    congr 1
    exact Nat.add_right_comm _ _ _
  · intro addr old other
    rw [frame addr (Nat.lt_succ_of_lt old) (Nat.ne_of_lt old),appended_heap,write,Function.update_of_ne other,
      write,Function.update_of_ne (Nat.ne_of_lt old)]
  · rw [frame pCurNode (Nat.lt_succ_of_lt below) (Nat.ne_of_lt below),appended_heap,write,Function.update_self]
  · -- the new node ends the chain, whether or not more are put behind it
    rw [List.length_cons,List.range'_succ,List.zip_cons_cons,if_neg (List.cons_ne_nil _ _)]
    rw [ite_self] at seg
    exact ⟨rfl,link,at_new,seg⟩

end Appending

theorem readSubDir_skip {name : Path} (names : List Path) (pCurNode : Nat) (list : DirFileList)
    (skipped : ¬ (isDot name = false ∧ isRegFile dirs subdirpath name = true)) :
    readSubDir dirs subdirpath filetype (name::names) pCurNode list =
      readSubDir dirs subdirpath filetype names pCurNode list := by
  rw [readSubDir]
  cases dot : isDot name with
  | true => rfl
  | false =>
    have reg : isRegFile dirs subdirpath name = false := by simpa [dot] using skipped
    simp [reg]

variable (filetype) in
theorem readSubDir_run {names : List Path} {list : DirFileList} {pCurNode : Nat} {node : Node FileInfo}
    (short : ∀ name ∈ names, name.length ≤ nameMax) (fits : Fits dirs subdirpath names)
    (at_cur : list.heap pCurNode = some node) (below : pCurNode < list.used) :
    ∃ after, readSubDir dirs subdirpath filetype names pCurNode list = some (after,0) ∧
      Grown list after filetype pCurNode node
        ((recorded dirs subdirpath names).map (fileInfoAt dirs subdirpath filetype)) := by
  induction names generalizing list pCurNode node with
  | nil => exact ⟨list,rfl,grown_refl at_cur⟩
  | cons name names ih =>
    obtain ⟨here,others⟩ := List.forall_mem_cons.mp short
    rw [Fits,recorded_cons] at fits
    rw [recorded_cons]
    split at fits
    · rename_i recorded
      obtain ⟨dot,reg⟩ := recorded
      obtain ⟨fit,rest⟩ := List.forall_mem_cons.mp fits
      have new := appendNode_cur filetype (fileInfoAt dirs subdirpath filetype name) at_cur
      obtain ⟨after,ran,more⟩ := ih others rest (appended_new _ below) (Nat.lt_succ_self _)
      refine ⟨after,?_,?_⟩
      · simp only [readSubDir,dot,reg,Bool.false_eq_true,if_false,if_true,getFileInfo_fits fit here reg,new]
        exact ran
      · rw [if_pos ⟨dot,reg⟩]
        exact appended_grown below more
    · rename_i skipped
      rw [if_neg skipped]
      obtain ⟨after,ran,grown⟩ := ih others fits at_cur below
      exact ⟨after,(readSubDir_skip names pCurNode list skipped).trans ran,grown⟩

theorem readSubDir_over {names : List Path} {list : DirFileList} {pCurNode : Nat} {node : Node FileInfo}
    (short : ∀ name ∈ names, name.length ≤ nameMax) (beyond : ¬ Fits dirs subdirpath names)
    (at_cur : list.heap pCurNode = some node) (below : pCurNode < list.used) :
    readSubDir dirs subdirpath filetype names pCurNode list = none := by
  induction names generalizing list pCurNode node with
  | nil => exact absurd (by simp [Fits,recorded,entries]) beyond
  | cons name names ih =>
    obtain ⟨here,others⟩ := List.forall_mem_cons.mp short
    rw [Fits,recorded_cons] at beyond
    split at beyond
    · rename_i recorded
      obtain ⟨dot,reg⟩ := recorded
      simp only [readSubDir,dot,reg,Bool.false_eq_true,if_false,if_true]
      by_cases fit : (join subdirpath name).length < filepathMaxlen
      · have new := appendNode_cur filetype (fileInfoAt dirs subdirpath filetype name) at_cur
        simp only [getFileInfo_fits fit here reg,new]
        apply ih others _ (appended_new _ below) (Nat.lt_succ_self _)
        intro rest
        exact beyond (List.forall_mem_cons.mpr ⟨fit,rest⟩)
      · rw [getFileInfo_over fit]
    · rename_i skipped
      exact (readSubDir_skip names pCurNode list skipped).trans (ih others beyond at_cur below)

end Reading

section Tables

theorem FileType.mem_all (filetype : FileType) : filetype ∈ FileType.all := by
  cases filetype <;> decide

theorem FileType.value_lt (filetype : FileType) : filetype.value < FileType.all.length := by
  cases filetype <;> decide

theorem FileType.value_inj {one two : FileType} (same : one.value = two.value) : one = two := by
  cases one <;> cases two <;> first | rfl | cases same

/-- One list of the table: the head leads through nodes with these infos. Without any, its
next pointer is what `malloc` left there. -/
structure Chain (uninit : FileType → Node FileInfo) (list : DirFileList) (filetype : FileType)
    (infos : List FileInfo) : Prop where
  head : list.pFileList filetype = some filetype.value
  count : list.fileNum filetype = infos.length
  nodes : ∃ link cells, list.heap filetype.value = some ⟨(uninit filetype).info,link⟩ ∧
    Seg list.heap link cells (if infos = [] then (uninit filetype).next else none) ∧
    cells.map Prod.snd = infos ∧ (addrs cells).Nodup ∧
    ∀ addr ∈ addrs cells, FileType.all.length ≤ addr ∧ addr < list.used

structure Table (uninit : FileType → Node FileInfo) (dirPath : Path) (list : DirFileList)
    (infos : FileType → List FileInfo) : Prop where
  dirPath : list.dirPath = dirPath
  room : FileType.all.length ≤ list.used
  chain : ∀ filetype, Chain uninit list filetype (infos filetype)

variable {dirs : Dirs} {uninit : FileType → Node FileInfo} {dirPath : Path} {list after : DirFileList}
  {filetype other : FileType} {infos : FileType → List FileInfo} {found : List FileInfo}

theorem chain_empty (chain : Chain uninit list filetype []) :
    list.heap filetype.value = some (uninit filetype) := by
  obtain ⟨_,_,link,cells,at_head,seg,none_there,_⟩ := chain
  obtain rfl := List.map_eq_nil_iff.mp none_there
  rw [if_pos rfl,Seg] at seg
  rw [at_head,seg]

variable (uninit dirPath) in
theorem mallocHeads_table : Table uninit dirPath (mallocHeads uninit dirPath) fun _ => [] where
  dirPath := rfl
  room := Nat.le_refl _
  chain filetype := by
    refine ⟨rfl,rfl,(uninit filetype).next,[],?_,rfl,rfl,List.nodup_nil,by simp [addrs]⟩
    cases filetype <;> rfl

theorem zip_addrs (start : Nat) (infos : List FileInfo) :
    addrs ((List.range' start infos.length).zip infos) = List.range' start infos.length :=
  List.map_fst_zip (by rw [List.length_range'])

theorem grown_chain (room : FileType.all.length ≤ list.used) (chain : Chain uninit list filetype [])
    (grown : Grown list after filetype filetype.value (uninit filetype) found) :
    Chain uninit after filetype found := by
  obtain ⟨_,pFileList,used,fileNum,_,link,at_head,seg⟩ := grown
  refine ⟨pFileList ▸ chain.head,?_,link,_,at_head,seg,?_,?_,?_⟩
  · rw [fileNum,Function.update_self,chain.count]
    exact Nat.zero_add _
  · exact List.map_snd_zip (by rw [List.length_range'])
  · rw [zip_addrs]
    exact List.nodup_range'
  · intro addr member
    rw [zip_addrs,List.mem_range'_1] at member
    omega

theorem grown_other (room : FileType.all.length ≤ list.used) (different : other ≠ filetype)
    {kept : List FileInfo} (chain : Chain uninit list other kept)
    (grown : Grown list after filetype filetype.value (uninit filetype) found) :
    Chain uninit after other kept := by
  obtain ⟨head,count,link,cells,at_head,seg,same,nodup,bounds⟩ := chain
  obtain ⟨_,pFileList,used,fileNum,frame,_⟩ := grown
  have heads := FileType.value_lt filetype
  refine ⟨pFileList ▸ head,?_,link,cells,?_,?_,same,nodup,?_⟩
  · rw [fileNum,Function.update_of_ne different,count]
  · rw [frame _ (Nat.lt_of_lt_of_le (FileType.value_lt other) room)
      (fun same => different (FileType.value_inj same)),at_head]
  · apply seg_frame _ seg
    intro addr member
    obtain ⟨low,high⟩ := bounds addr member
    exact frame addr high (by omega)
  · intro addr member
    obtain ⟨low,high⟩ := bounds addr member
    omega

theorem grown_table (table : Table uninit dirPath list infos) (empty : infos filetype = [])
    (grown : Grown list after filetype filetype.value (uninit filetype) found) :
    Table uninit dirPath after (Function.update infos filetype found) where
  dirPath := grown.dirPath.trans table.dirPath
  room := by
    rw [grown.used]
    exact Nat.le_add_right_of_le table.room
  chain other := by
    by_cases same : other = filetype
    · subst same
      rw [Function.update_self]
      exact grown_chain table.room (empty ▸ table.chain other) grown
    · rw [Function.update_of_ne same]
      exact grown_other table.room same (table.chain other) grown

variable (dirs dirPath filetype) in
def subNames : List Path := (dirs.opendir (getSubdirPath dirPath filetype)).getD []

variable (dirs dirPath filetype) in
def foundInfos : List FileInfo :=
  (recorded dirs (getSubdirPath dirPath filetype) (subNames dirs dirPath filetype)).map
    (fileInfoAt dirs (getSubdirPath dirPath filetype) filetype)

variable (dirs dirPath filetype) in
def SubFits : Prop := Fits dirs (getSubdirPath dirPath filetype) (subNames dirs dirPath filetype)

section Reads

variable {names : List Path} (table : Table uninit dirPath list infos) (empty : infos filetype = [])
  (opens : dirs.opendir (getSubdirPath dirPath filetype) = some names)

include table empty opens

theorem getSubDirFilelist_reads : list.heap filetype.value = some (uninit filetype) ∧
    filetype.value < list.used ∧ subNames dirs dirPath filetype = names ∧
    getSubDirFilelist dirs filetype list =
      readSubDir dirs (getSubdirPath dirPath filetype) filetype names filetype.value list := by
  refine ⟨chain_empty (empty ▸ table.chain filetype),
    Nat.lt_of_lt_of_le (FileType.value_lt filetype) table.room,?_,?_⟩
  · rw [subNames,opens,Option.getD_some]
  · simp only [getSubDirFilelist,table.dirPath,(table.chain filetype).head,opens]

theorem getSubDirFilelist_run (fits : SubFits dirs dirPath filetype) :
    ∃ after, getSubDirFilelist dirs filetype list = some (after,0) ∧
      Table uninit dirPath after (Function.update infos filetype (foundInfos dirs dirPath filetype)) := by
  obtain ⟨at_head,below,listed,reads⟩ := getSubDirFilelist_reads table empty opens
  rw [SubFits,listed] at fits
  obtain ⟨after,ran,grown⟩ := readSubDir_run filetype (dirs.short opens) fits at_head below
  refine ⟨after,reads.trans ran,?_⟩
  rw [foundInfos,listed]
  exact grown_table table empty grown

theorem getSubDirFilelist_over (beyond : ¬ SubFits dirs dirPath filetype) :
    getSubDirFilelist dirs filetype list = none := by
  obtain ⟨at_head,below,listed,reads⟩ := getSubDirFilelist_reads table empty opens
  rw [SubFits,listed] at beyond
  exact reads.trans (readSubDir_over (dirs.short opens) beyond at_head below)

end Reads

theorem createSubDir_fails (table : Table uninit dirPath list infos) :
    createSubDir filetype list = (list,-4) := by
  simp only [createSubDir,(table.chain filetype).head]

variable {state : Nat} {types : List FileType}

theorem still_empty (found : List FileInfo) {t : FileType} (new : t ∉ types)
    (empty : ∀ u ∈ types, infos u = []) : ∀ u ∈ types, Function.update infos t found u = [] := by
  intro u member
  rw [Function.update_of_ne (by rintro rfl; exact new member),empty u member]

theorem initSubDirs_run (table : Table uninit dirPath list infos) (empty : ∀ t ∈ types, infos t = [])
    (nodup : types.Nodup) (exist : ∀ t ∈ types, state.testBit t.value = true)
    (opens : ∀ t ∈ types, (dirs.opendir (getSubdirPath dirPath t)).isSome)
    (fits : ∀ t ∈ types, SubFits dirs dirPath t) :
    ∃ after, initSubDirs dirs state types list = some (after,0) ∧
      Table uninit dirPath after fun t => if t ∈ types then foundInfos dirs dirPath t else infos t := by
  induction types generalizing list infos with
  | nil => exact ⟨list,rfl,by simpa using table⟩
  | cons t types ih =>
    obtain ⟨new,rest⟩ := List.nodup_cons.mp nodup
    obtain ⟨empty,others⟩ := List.forall_mem_cons.mp empty
    obtain ⟨exist,exists_rest⟩ := List.forall_mem_cons.mp exist
    obtain ⟨fit,fits⟩ := List.forall_mem_cons.mp fits
    obtain ⟨opens,opens_rest⟩ := List.forall_mem_cons.mp opens
    obtain ⟨names,opened⟩ := Option.isSome_iff_exists.mp opens
    obtain ⟨mid,read,grown⟩ := getSubDirFilelist_run table empty opened fit
    have empty' := still_empty (foundInfos dirs dirPath t) new others
    obtain ⟨after,ran,final⟩ := ih grown empty' rest exists_rest opens_rest fits
    refine ⟨after,?_,?_⟩
    · simpa [initSubDirs,exist,read] using ran
    · convert final using 2 with u
      by_cases same : u = t
      · subst same
        simp [new]
      · simp [same]

theorem initSubDirs_stuck (table : Table uninit dirPath list infos) (empty : ∀ t ∈ types, infos t = [])
    (nodup : types.Nodup)
    (opens : ∀ t ∈ types, state.testBit t.value = true → (dirs.opendir (getSubdirPath dirPath t)).isSome)
    (ran : initSubDirs dirs state types list = some (after,0)) :
    ∀ t ∈ types, state.testBit t.value = true ∧ SubFits dirs dirPath t := by
  induction types generalizing list infos with
  | nil => simp
  | cons t types ih =>
    obtain ⟨new,rest⟩ := List.nodup_cons.mp nodup
    obtain ⟨empty,others⟩ := List.forall_mem_cons.mp empty
    obtain ⟨opens,opens_rest⟩ := List.forall_mem_cons.mp opens
    cases exist : state.testBit t.value with
    | false => simp [initSubDirs,exist,createSubDir_fails table] at ran
    | true =>
      obtain ⟨names,opened⟩ := Option.isSome_iff_exists.mp (opens exist)
      by_cases fit : SubFits dirs dirPath t
      · obtain ⟨mid,read,grown⟩ := getSubDirFilelist_run table empty opened fit
        have empty' := still_empty (foundInfos dirs dirPath t) new others
        have later : initSubDirs dirs state types mid = some (after,0) := by
          simpa [initSubDirs,exist,read] using ran
        exact List.forall_mem_cons.mpr ⟨⟨exist,fit⟩,ih grown empty' rest opens_rest later⟩
      · simp [initSubDirs,exist,getSubDirFilelist_over table empty opened fit] at ran

end Tables

end MoCodes.Cps.Server.FileMgr
