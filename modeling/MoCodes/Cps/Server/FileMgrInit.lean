import MoCodes.Cps.Server.FileMgrLists

/-! Starting the file manager. The records that are copied from the lists, and the trees
on which the start succeeds. -/
namespace MoCodes.Cps.Server.FileMgr
open MoCodes.Lib.LinkedList MoCodes.Lib.DirTree

section Existence

theorem gSubDirName_inj {one two : FileType} (same : gSubDirName one = gSubDirName two) : one = two := by
  cases one <;> cases two <;> first | rfl | cases same

theorem gSubDirName_plain (filetype : FileType) : isDot (gSubDirName filetype) = false := by
  cases filetype <;> rfl

theorem typeNamed_some {d_name : Path} {filetype : FileType} :
    typeNamed d_name = some filetype ↔ gSubDirName filetype = d_name := by
  constructor
  · intro found
    simpa using List.find?_some found
  · rintro rfl
    cases filetype <;> rfl

theorem testBit_mark (state : Nat) (filetype other : FileType) :
    (state ||| 1 <<< filetype.value).testBit other.value =
      (state.testBit other.value || decide (filetype = other)) := by
  have same : filetype.value = other.value ↔ filetype = other := ⟨FileType.value_inj,congrArg _⟩
  rw [Nat.testBit_or,Nat.one_shiftLeft,Nat.testBit_two_pow,decide_eq_decide.mpr same]

variable {dirs : Dirs} {pDirpath : Path}

/-- Every sub-directory that the names hold gets its bit. -/
theorem existState_run {names : List Path} (state : Nat)
    (isdirs : ∀ t, gSubDirName t ∈ names → isDir dirs pDirpath (gSubDirName t) = true) :
    ∃ after, existState dirs pDirpath names state = .ok after ∧
      ∀ t, after.testBit t.value = (state.testBit t.value || decide (gSubDirName t ∈ names)) := by
  induction names generalizing state with
  | nil => exact ⟨state,rfl,by simp⟩
  | cons d_name names ih =>
    have later := fun state => ih state fun t member => isdirs t (List.mem_cons_of_mem _ member)
    cases named : typeNamed d_name with
    | none =>
      obtain ⟨after,ran,bits⟩ := later state
      have other : ∀ t, gSubDirName t ≠ d_name := by
        intro t same
        rw [typeNamed_some.mpr same] at named
        cases named
      refine ⟨after,by simp only [existState,named,ite_self,ran],fun t => ?_⟩
      rw [bits t,decide_eq_decide.mpr (List.mem_cons.trans (or_iff_right (other t)))]
    | some filetype =>
      obtain rfl := typeNamed_some.mp named
      obtain ⟨after,ran,bits⟩ := later (state ||| 1 <<< filetype.value)
      refine ⟨after,?_,fun t => ?_⟩
      · simp only [existState,gSubDirName_plain,named,isdirs filetype List.mem_cons_self,if_true,
          Bool.false_eq_true,if_false,ran]
      · have same : gSubDirName t = gSubDirName filetype ↔ filetype = t :=
          ⟨fun same => (gSubDirName_inj same).symm,fun same => same ▸ rfl⟩
        rw [bits t,testBit_mark,Bool.or_assoc,← Bool.decide_or]
        simp only [List.mem_cons,same]

end Existence

section Copies

theorem toInt_small {value : Int} (low : 0 ≤ value) (high : value < 2^31) : toInt value = value := by
  rw [toInt,Int.bmod_def]
  omega

theorem toInt_le {value : Int} (low : 0 ≤ value) : toInt value ≤ value := by
  rw [toInt,Int.bmod_def]
  omega

theorem toInt_spare (value : Int) (grows : toInt value ≤ toInt (toInt value+fmMemIncSize)) :
    toInt value+fmMemIncSize < 2^31 := by
  unfold fmMemIncSize at *
  rw [toInt,toInt,Int.bmod_def,Int.bmod_def] at *
  omega

theorem copyList_cells {heap : Heap FileInfo} {pCurNode : Nat} {info : FileInfo} {link last : Option Nat}
    {cells : List (Cell FileInfo)} (at_cur : heap pCurNode = some ⟨info,link⟩) (seg : Seg heap link cells last)
    (done : List BasicFileInfo) {rest : List BasicFileInfo} (room : cells.length ≤ rest.length) :
    copyList heap cells.length (some pCurNode) done.length (done ++ rest) =
      some (done ++ cells.map (·.2.basicInfo) ++ rest.drop cells.length) := by
  induction cells generalizing pCurNode info link done rest with
  | nil => simp [copyList]
  | cons cell cells ih =>
    obtain ⟨rfl,next,here,more⟩ := seg
    cases rest with
    | nil => cases room
    | cons slot rest =>
      have inside : done.length < (done ++ slot::rest).length := by simp
      have stored : (done ++ slot::rest).set done.length cell.2.basicInfo =
          (done ++ [cell.2.basicInfo]) ++ rest := by simp
      have step := ih here more (done ++ [cell.2.basicInfo]) (Nat.le_of_succ_le_succ room)
      rw [List.length_append,List.length_singleton] at step
      simp only [List.length_cons,copyList,Option.bind_some,at_cur,here,if_pos inside,stored,step]
      simp

theorem take_value {front back : List FileType} {filetype : FileType}
    (order : front ++ filetype :: back = FileType.all) : FileType.all.take filetype.value = front := by
  have index : ∀ (i : Nat) (t : FileType), FileType.all[i]? = some t → t.value = i := by
    intro i t there
    match i with
    | 0 | 1 | 2 | 3 => cases there; rfl
    | i+4 => cases there
  have here := index front.length filetype (by rw [← order]; simp)
  rw [here,← order,List.take_left]

variable {uninit : FileType → Node FileInfo} {dirPath : Path} {list : DirFileList}
  {infos : FileType → List FileInfo}

def recordsOf (infos : FileType → List FileInfo) (filetype : FileType) : List BasicFileInfo :=
  (infos filetype).map (·.basicInfo)

def allRecords (infos : FileType → List FileInfo) : List BasicFileInfo := FileType.all.flatMap (recordsOf infos)

theorem counted (table : Table uninit dirPath list infos) (types : List FileType) :
    (types.map list.fileNum).sum = (types.flatMap (recordsOf infos)).length := by
  rw [List.length_flatMap]
  congr 1
  apply List.map_congr_left
  intro filetype _
  rw [(table.chain filetype).count,recordsOf,List.length_map]

theorem copyLists_run (table : Table uninit dirPath list infos) {front back : List FileType}
    (order : front ++ back = FileType.all) {rest : List BasicFileInfo}
    (room : (back.flatMap (recordsOf infos)).length ≤ rest.length) :
    copyLists list back (front.flatMap (recordsOf infos) ++ rest) =
      some (FileType.all.flatMap (recordsOf infos) ++ rest.drop (back.flatMap (recordsOf infos)).length) := by
  induction back generalizing front rest with
  | nil =>
    rw [List.append_nil] at order
    simp [copyLists,order]
  | cons filetype back ih =>
    obtain ⟨head,count,link,cells,at_head,seg,same,_⟩ := table.chain filetype
    have start : startSlot list filetype = (front.flatMap (recordsOf infos)).length := by
      rw [startSlot,take_value order,counted table]
    have size : list.fileNum filetype = cells.length := by rw [count,← same,List.length_map]
    have copied : cells.map (·.2.basicInfo) = recordsOf infos filetype := by
      rw [recordsOf,← same,List.map_map]
      rfl
    have mine : cells.length = (recordsOf infos filetype).length := by rw [← copied,List.length_map]
    rw [List.flatMap_cons,List.length_append] at room ⊢
    have fits : cells.length ≤ rest.length := by omega
    have step := copyList_cells at_head seg (front.flatMap (recordsOf infos)) fits
    have order' : (front ++ [filetype]) ++ back = FileType.all := by rw [← order]; simp
    have left : (back.flatMap (recordsOf infos)).length ≤ (rest.drop cells.length).length := by
      rw [List.length_drop]
      omega
    have later := ih order' left
    rw [List.flatMap_append,List.flatMap_singleton,List.drop_drop] at later
    simp only [copyLists,size,head,start,step,copied]
    rw [later,mine]

end Copies

section Starts

variable {dirs : Dirs} {uninit : FileType → Node FileInfo} {dirPath : Path} {list : DirFileList}
  {infos : FileType → List FileInfo}

/-- A table of `total` records that can be held, in the sums that the code makes. -/
theorem lengths_held {total : Nat} (bound : basicFileInfoSize*total+fmMemIncSize < 2^31) :
    ∃ len mem : Int, toInt (total*basicFileInfoSize) = len ∧ toInt (len+fmMemIncSize) = mem ∧
      len ≤ mem ∧ 0 ≤ len ∧ len.toNat/basicFileInfoSize = total ∧
      total ≤ mem.toNat/basicFileInfoSize := by
  unfold basicFileInfoSize fmMemIncSize at *
  refine ⟨total*272,total*272+1048576,toInt_small ?_ ?_,toInt_small ?_ ?_,?_,?_,?_,?_⟩ <;> omega

theorem initDirfileInfo_run (table : Table uninit dirPath list infos)
    (bound : basicFileInfoSize*(allRecords infos).length+fmMemIncSize < 2^31) :
    ∃ info, initDirfileInfo list = some (.ok info) ∧ 0 ≤ info.fileInfoLen ∧
      info.pFileInfo.take (info.fileInfoLen.toNat/basicFileInfoSize) = allRecords infos := by
  have total : (FileType.all.map list.fileNum).sum = (allRecords infos).length := counted table _
  obtain ⟨len,mem,len_eq,mem_eq,grows,positive,slots,room⟩ := lengths_held bound
  rw [← List.length_replicate (a := noRecord) (n := mem.toNat/basicFileInfoSize)] at room
  obtain ⟨spare,copied⟩ : ∃ spare, copyLists list FileType.all
      (List.replicate (mem.toNat/basicFileInfoSize) noRecord) = some (allRecords infos ++ spare) :=
    ⟨_,copyLists_run table (List.nil_append FileType.all) room⟩
  refine ⟨⟨list.dirPath,(allRecords infos).length,len,mem,allRecords infos ++ spare⟩,?_,positive,?_⟩
  · simp only [initDirfileInfo,total,len_eq,mem_eq,if_neg (Int.not_lt.mpr grows),
      if_neg (Int.not_lt.mpr (positive.trans grows)),copied,Option.map_some]
  · rw [slots,List.take_left]

theorem initDirfileInfo_bound {info : DirFileInfo} (ok : initDirfileInfo list = some (.ok info)) :
    info.fileInfoLen ≤ basicFileInfoSize*(FileType.all.map list.fileNum).sum ∧
      info.fileInfoLen+fmMemIncSize < 2^31 := by
  unfold initDirfileInfo at ok
  generalize (FileType.all.map list.fileNum).sum = total at ok ⊢
  dsimp only at ok
  split at ok
  · cases ok
  rename_i grows
  split at ok
  · cases ok
  obtain ⟨buffer,_,same⟩ := Option.map_eq_some_iff.mp ok
  have len : toInt (total*basicFileInfoSize) = info.fileInfoLen :=
     congrArg DirFileInfo.fileInfoLen (Except.ok.inj same)
  have below := toInt_le (Int.mul_nonneg (Int.natCast_nonneg total) (Int.natCast_nonneg basicFileInfoSize))
  have spare := toInt_spare _ (Int.not_lt.mp grows)
  rw [len] at below spare
  exact ⟨below.trans_eq (Int.mul_comm _ _),spare⟩

theorem initDirfileList_ok : initDirfileList dirs uninit dirPath = some (.ok list) ↔
    ∃ state, getSubdirExistState dirs dirPath = .ok state ∧
      initSubDirs dirs state FileType.all (mallocHeads uninit dirPath) = some (list,0) := by
  simp only [initDirfileList]
  cases exist : getSubdirExistState dirs dirPath with
  | error ret => cases freeLists (mallocHeads uninit dirPath) <;> simp
  | ok state =>
    cases ran : initSubDirs dirs state FileType.all (mallocHeads uninit dirPath) with
    | none => simp [ran]
    | some result =>
      obtain ⟨after,ret⟩ := result
      by_cases ok : ret = 0
      · simp [ok,ran]
      · cases freed : unInitDirfileList after <;> simp [ok,ran,freed]

theorem fmStart_ok {copied : Option (Except Int DirFileInfo)} {fm : Fm} :
    fmStart list copied = some (.ok fm) ↔
      list = fm.gDirFileList ∧ copied = some (.ok fm.gDirFileInfo) ∧ fm.gIsInited = true := by
  obtain ⟨list',info,inited⟩ := fm
  unfold fmStart
  split
  · simp
  · cases unInitDirfileList list <;> simp
  · simp only [Option.some.injEq,Except.ok.injEq,Fm.mk.injEq,Bool.true_eq]

theorem fmInit_ok {fm : Fm} : fmInit dirs uninit dirPath = some (.ok fm) ↔
    dirPath.length < dirpathMaxlen ∧ initDirfileList dirs uninit dirPath = some (.ok fm.gDirFileList) ∧
      initDirfileInfo fm.gDirFileList = some (.ok fm.gDirFileInfo) ∧ fm.gIsInited = true := by
  by_cases short : dirPath.length < dirpathMaxlen
  · simp only [fmInit,if_neg (Nat.not_le_of_lt short),short,true_and]
    cases read : initDirfileList dirs uninit dirPath with
    | none => simp
    | some result =>
      cases result with
      | error ret => simp
      | ok got =>
        simp only [fmStart_ok,Option.some.injEq,Except.ok.injEq]
        exact and_congr_right fun same => by rw [same]
  · simp [fmInit,Nat.le_of_not_lt short,short]

end Starts

section Trees

/-- A directory in which each of the four sub-directories is a directory or absent. New
directories and memory can be had; what `malloc` leaves in the head nodes is part of it. -/
structure ServedTree where
  dirs : Dirs
  uninit : FileType → Node FileInfo
  dirPath : Path
  top : List Path
  listed : dirs.opendir dirPath = some top
  subdirs : ∀ t, gSubDirName t ∈ top → isKind dirs .dir (getSubdirPath dirPath t) = true ∧
    (dirs.opendir (getSubdirPath dirPath t)).isSome

variable (tree : ServedTree) (filetype : FileType)

def subEntries : List Path :=
  if gSubDirName filetype ∈ tree.top then entries (subNames tree.dirs tree.dirPath filetype) else []

def regularNames : List Path :=
  (subEntries tree filetype).filter fun name =>
    isKind tree.dirs .reg (join (getSubdirPath tree.dirPath filetype) name)

def subFiles : List BasicFileInfo :=
  (regularNames tree filetype).map fun name =>
    ⟨sizeAt tree.dirs (join (getSubdirPath tree.dirPath filetype) name),name,filetype⟩

/-- The start succeeds, the records that are handed out are those of the regular files, one
type after the other, and every list ends and is as long as its count. -/
def FmRight : Prop :=
  ∃ fm len, fmInit tree.dirs tree.uninit tree.dirPath = some (.ok fm) ∧ fmGetFileinfoLength fm = some len ∧
    fmGetFileinfo fm len = some (0,FileType.all.flatMap (subFiles tree)) ∧
    ∀ t, ∃ head cells, fm.gDirFileList.pFileList t = some head ∧ Listed fm.gDirFileList.heap head cells ∧
      cells.length = fm.gDirFileList.fileNum t

/-- The path fits, every sub-directory is there, a path that is cut leads to no file and is no
file uncut, a list without files ends by chance, and the records can be counted in bytes. -/
structure Startable : Prop where
  short : tree.dirPath.length < dirpathMaxlen
  complete : ∀ t, gSubDirName t ∈ tree.top
  named : ∀ t, ∀ name ∈ subEntries tree t,
    filepathMaxlen ≤ (join (getSubdirPath tree.dirPath t) name).length →
      isKind tree.dirs .reg (join (getSubdirPath tree.dirPath t) name) = false ∧
        isRegFile tree.dirs (getSubdirPath tree.dirPath t) name = false
  ended : ∀ t, regularNames tree t = [] → (tree.uninit t).next = none
  held : basicFileInfoSize*(FileType.all.flatMap (subFiles tree)).length+fmMemIncSize < 2^31

variable {tree filetype}

theorem subEntries_complete (complete : ∀ t, gSubDirName t ∈ tree.top) (t : FileType) :
    subEntries tree t = entries (subNames tree.dirs tree.dirPath t) := if_pos (complete t)

variable (tree) in
/-- A record is the only one with its type and name. -/
theorem files_once :
    ((FileType.all.flatMap (subFiles tree)).map fun record => (record.type,record.filename)).Nodup := by
  have pairs : ∀ t, (subFiles tree t).map (fun record => (record.type,record.filename)) =
      (regularNames tree t).map fun name => (t,name) := fun t => List.map_map
  rw [List.map_flatMap,List.nodup_flatMap]
  simp only [pairs]
  constructor
  · intro t _
    apply List.Nodup.map (fun _ _ same => (Prod.mk.inj same).2)
    apply List.Nodup.filter
    unfold subEntries
    split
    · rename_i there
      obtain ⟨names,opened⟩ := Option.isSome_iff_exists.mp (tree.subdirs t there).2
      rw [subNames,opened,Option.getD_some]
      exact (tree.dirs.distinct opened).filter _
    · exact List.nodup_nil
  · have types : FileType.all.Nodup := by decide
    refine types.imp fun different => List.disjoint_left.mpr ?_
    intro pair one two
    obtain ⟨_,_,rfl⟩ := List.mem_map.mp one
    obtain ⟨_,_,same⟩ := List.mem_map.mp two
    exact different (Prod.mk.inj same).1.symm

theorem tree_exist (short : tree.dirPath.length < dirpathMaxlen) :
    ∃ state, getSubdirExistState tree.dirs tree.dirPath = .ok state ∧
      ∀ t, state.testBit t.value = decide (gSubDirName t ∈ tree.top) := by
  have isdirs : ∀ t, gSubDirName t ∈ tree.top → isDir tree.dirs tree.dirPath (gSubDirName t) = true := by
    intro t there
    have fits : (join tree.dirPath (gSubDirName t)).length < filepathMaxlen := by
      unfold dirpathMaxlen at short
      cases t <;> simp [join,gSubDirName,filepathMaxlen,dirpathMaxlen,filenameMaxlen] <;> omega
    rw [isDir,cut_fits fits]
    exact (tree.subdirs t there).1
  obtain ⟨state,ran,bits⟩ := existState_run 0 isdirs
  refine ⟨state,by simp only [getSubdirExistState,tree.listed,ran],fun t => ?_⟩
  rw [bits t,Nat.zero_testBit,Bool.false_or]

theorem start_read (short : tree.dirPath.length < dirpathMaxlen) (complete : ∀ t, gSubDirName t ∈ tree.top)
    (fits : ∀ t, SubFits tree.dirs tree.dirPath t) :
    ∃ list, initDirfileList tree.dirs tree.uninit tree.dirPath = some (.ok list) ∧
      Table tree.uninit tree.dirPath list (foundInfos tree.dirs tree.dirPath) := by
  obtain ⟨state,exist,bits⟩ := tree_exist short
  have exist_all : ∀ t ∈ FileType.all, state.testBit t.value = true := by
    intro t _
    rw [bits t,decide_eq_true (complete t)]
  obtain ⟨list,read,table⟩ := initSubDirs_run (mallocHeads_table tree.uninit tree.dirPath) (fun _ _ => rfl)
    (by decide) exist_all (fun t _ => (tree.subdirs t (complete t)).2) (fun t _ => fits t)
  exact ⟨list,initDirfileList_ok.mpr ⟨state,exist,read⟩,by simpa [FileType.mem_all] using table⟩

theorem start_table {fm : Fm} (ran : fmInit tree.dirs tree.uninit tree.dirPath = some (.ok fm)) :
    (∀ t, gSubDirName t ∈ tree.top) ∧ (∀ t, SubFits tree.dirs tree.dirPath t) ∧
      Table tree.uninit tree.dirPath fm.gDirFileList (foundInfos tree.dirs tree.dirPath) := by
  obtain ⟨short,lists,_⟩ := fmInit_ok.mp ran
  obtain ⟨state,exist,bits⟩ := tree_exist short
  obtain ⟨state',exist',read⟩ := initDirfileList_ok.mp lists
  obtain rfl := Except.ok.inj (exist.symm.trans exist')
  have there : ∀ t, state.testBit t.value = true → gSubDirName t ∈ tree.top := by
    intro t bit
    rw [bits t] at bit
    exact of_decide_eq_true bit
  have all := initSubDirs_stuck (mallocHeads_table tree.uninit tree.dirPath) (fun _ _ => rfl) (by decide)
    (fun t _ bit => (tree.subdirs t (there t bit)).2) read
  have complete : ∀ t, gSubDirName t ∈ tree.top := fun t => there t (all t (FileType.mem_all t)).1
  have fits : ∀ t, SubFits tree.dirs tree.dirPath t := fun t => (all t (FileType.mem_all t)).2
  obtain ⟨list,reread,table⟩ := start_read short complete fits
  obtain rfl := Except.ok.inj (Option.some.inj (reread.symm.trans lists))
  exact ⟨complete,fits,table⟩

theorem recorded_regular (fits : SubFits tree.dirs tree.dirPath filetype) {name : Path}
    (member : name ∈ entries (subNames tree.dirs tree.dirPath filetype))
    (reg : isRegFile tree.dirs (getSubdirPath tree.dirPath filetype) name = true) :
    isKind tree.dirs .reg (join (getSubdirPath tree.dirPath filetype) name) = true := by
  have fit := fits name (List.mem_filter.mpr ⟨member,reg⟩)
  rwa [isRegFile,cut_fits fit] at reg

theorem found_le_regular (complete : ∀ t, gSubDirName t ∈ tree.top)
    (fits : SubFits tree.dirs tree.dirPath filetype) :
    (foundInfos tree.dirs tree.dirPath filetype).length ≤ (regularNames tree filetype).length := by
  rw [foundInfos,List.length_map,recorded,regularNames,subEntries_complete complete,
    ← List.countP_eq_length_filter,← List.countP_eq_length_filter]
  exact List.countP_mono_left fun name member => recorded_regular fits member

/-- Where as many nodes as regular files were made, no path was cut to make one or to miss one. -/
theorem named_of_found (complete : ∀ t, gSubDirName t ∈ tree.top)
    (fits : SubFits tree.dirs tree.dirPath filetype)
    (count : (foundInfos tree.dirs tree.dirPath filetype).length = (regularNames tree filetype).length)
    {name : Path} (member : name ∈ subEntries tree filetype)
    (long : filepathMaxlen ≤ (join (getSubdirPath tree.dirPath filetype) name).length) :
    isKind tree.dirs .reg (join (getSubdirPath tree.dirPath filetype) name) = false ∧
      isRegFile tree.dirs (getSubdirPath tree.dirPath filetype) name = false := by
  rw [foundInfos,List.length_map,recorded,regularNames,subEntries_complete complete] at count
  rw [subEntries_complete complete] at member
  have unread : isRegFile tree.dirs (getSubdirPath tree.dirPath filetype) name = false := by
    by_contra reg
    have fit := fits name (List.mem_filter.mpr ⟨member,by simpa using reg⟩)
    exact absurd fit (Nat.not_lt_of_le long)
  refine ⟨?_,unread⟩
  by_contra reg
  have read := filter_same (fun name member => recorded_regular fits member) count.ge name member
    (by simpa using reg)
  rw [unread] at read
  cases read

theorem records_found (startable : Startable tree) : SubFits tree.dirs tree.dirPath filetype ∧
    recordsOf (foundInfos tree.dirs tree.dirPath) filetype = subFiles tree filetype := by
  have named := startable.named filetype
  rw [subEntries_complete startable.complete] at named
  constructor
  · intro name member
    obtain ⟨inside,reg⟩ := List.mem_filter.mp member
    by_contra long
    rw [(named name inside (Nat.le_of_not_lt long)).2] at reg
    cases reg
  · have same : recorded tree.dirs (getSubdirPath tree.dirPath filetype)
        (subNames tree.dirs tree.dirPath filetype) = regularNames tree filetype := by
      rw [recorded,regularNames,subEntries_complete startable.complete]
      apply List.filter_congr
      intro name inside
      by_cases fit : (join (getSubdirPath tree.dirPath filetype) name).length < filepathMaxlen
      · rw [isRegFile,cut_fits fit]
      · obtain ⟨whole,cut⟩ := named name inside (Nat.le_of_not_lt fit)
        rw [whole,cut]
    rw [recordsOf,foundInfos,same,List.map_map]
    rfl

theorem chain_listed {list : DirFileList} {infos : List FileInfo} (chain : Chain tree.uninit list filetype infos)
    (ended : infos = [] → (tree.uninit filetype).next = none) :
    ∃ cells, Listed list.heap filetype.value cells ∧ cells.length = list.fileNum filetype := by
  obtain ⟨_,count,link,cells,at_head,seg,same,nodup,bounds⟩ := chain
  have last : (if infos = [] then (tree.uninit filetype).next else none) = none := by
    split
    · rename_i nothing
      exact ended nothing
    · rfl
  rw [last] at seg
  refine ⟨cells,⟨⟨_,link,at_head,seg⟩,List.nodup_cons.mpr ⟨?_,nodup⟩⟩,?_⟩
  rotate_left
  · rw [count,← same,List.length_map]
  intro member
  exact absurd (FileType.value_lt filetype) (Nat.not_lt_of_le (bounds _ member).1)

theorem listed_ended {list : DirFileList} (chain : Chain tree.uninit list filetype []) {head : Nat}
    {cells : List (Cell FileInfo)} (at_type : list.pFileList filetype = some head)
    (listed : Listed list.heap head cells) (size : cells.length = list.fileNum filetype) :
    (tree.uninit filetype).next = none := by
  obtain ⟨⟨info,first,here,seg⟩,_⟩ := listed
  have empty : cells = [] := List.length_eq_zero_iff.mp (size.trans chain.count)
  obtain rfl := Option.some.inj (chain.head.symm.trans at_type)
  rw [chain_empty chain] at here
  rw [empty,Seg] at seg
  rw [Option.some.inj here,seg]

theorem fmGetFileinfo_ok {fm : Fm} {records : List BasicFileInfo} (inited : fm.gIsInited = true) :
    fmGetFileinfo fm fm.gDirFileInfo.fileInfoLen = some (0,records) ↔ 0 ≤ fm.gDirFileInfo.fileInfoLen ∧
      fm.gDirFileInfo.pFileInfo.take (fm.gDirFileInfo.fileInfoLen.toNat/basicFileInfoSize) = records := by
  by_cases negative : fm.gDirFileInfo.fileInfoLen < 0
  · simp [fmGetFileinfo,inited,negative,Int.not_le.mpr negative]
  · simp [fmGetFileinfo,inited,negative,Int.not_lt.mp negative]

theorem startable_of_right (right : FmRight tree) : Startable tree := by
  obtain ⟨fm,len,ran,length,got,lists⟩ := right
  obtain ⟨short,_,copied,inited⟩ := fmInit_ok.mp ran
  obtain ⟨complete,fits,table⟩ := start_table ran
  obtain ⟨most,spare⟩ := initDirfileInfo_bound copied
  obtain rfl : fm.gDirFileInfo.fileInfoLen = len := by simpa [fmGetFileinfoLength,inited] using length
  obtain ⟨positive,taken⟩ := (fmGetFileinfo_ok inited).mp got
  -- the array holds no more records than nodes were made
  have size := congrArg List.length taken
  rw [List.length_take] at size
  rw [counted table] at most
  have enough : (FileType.all.flatMap (subFiles tree)).length ≤
      (FileType.all.flatMap (recordsOf (foundInfos tree.dirs tree.dirPath))).length := by
    unfold basicFileInfoSize at *
    omega
  simp only [List.length_flatMap,subFiles,recordsOf,List.length_map] at enough
  have counts := lengths_of_sum (fun t _ => found_le_regular complete (fits t)) enough
  refine ⟨short,complete,?_,?_,?_⟩
  · intro t name member long
    exact named_of_found complete (fits t) (counts t (FileType.mem_all t)) member long
  · intro t nothing
    obtain ⟨head,cells,at_type,listed,size⟩ := lists t
    have chain := table.chain t
    have empty : foundInfos tree.dirs tree.dirPath t = [] := by
      rw [← List.length_eq_zero_iff,counts t (FileType.mem_all t),nothing,List.length_nil]
    rw [empty] at chain
    exact listed_ended chain at_type listed size
  · unfold basicFileInfoSize fmMemIncSize at *
    omega

theorem right_of_startable (startable : Startable tree) : FmRight tree := by
  have found : ∀ t, SubFits tree.dirs tree.dirPath t ∧
      recordsOf (foundInfos tree.dirs tree.dirPath) t = subFiles tree t := fun t => records_found startable
  have records : allRecords (foundInfos tree.dirs tree.dirPath) = FileType.all.flatMap (subFiles tree) := by
    rw [allRecords,funext fun t => (found t).2]
  obtain ⟨list,read,table⟩ := start_read startable.short startable.complete fun t => (found t).1
  obtain ⟨info,copied,positive,taken⟩ := initDirfileInfo_run table (by rw [records]; exact startable.held)
  have ran : fmInit tree.dirs tree.uninit tree.dirPath = some (.ok ⟨list,info,true⟩) :=
    fmInit_ok.mpr ⟨startable.short,read,copied,rfl⟩
  refine ⟨_,_,ran,rfl,(fmGetFileinfo_ok rfl).mpr ⟨positive,taken.trans records⟩,fun t => ?_⟩
  have ended : foundInfos tree.dirs tree.dirPath t = [] → (tree.uninit t).next = none := by
    intro nothing
    have none_left := (found t).2
    rw [recordsOf,nothing,List.map_nil] at none_left
    exact startable.ended t (List.map_eq_nil_iff.mp none_left.symm)
  obtain ⟨cells,listed,size⟩ := chain_listed (table.chain t) ended
  exact ⟨_,cells,(table.chain t).head,listed,size⟩

theorem fmRight_iff (tree : ServedTree) : FmRight tree ↔ Startable tree :=
  ⟨startable_of_right,right_of_startable⟩

/-- All four sub-directories with the same names in each, which are regular files. -/
def sampleDirs (names : List Path) (short : ∀ name ∈ names, name.length ≤ nameMax) (distinct : names.Nodup) :
    Dirs where
  opendir path :=
    if path = ['d'] then some (FileType.all.map gSubDirName)
    else if path ∈ FileType.all.map (getSubdirPath ['d']) then some names else none
  stat path := if path ∈ FileType.all.map (getSubdirPath ['d']) then some ⟨.dir,0⟩ else some ⟨.reg,5⟩
  short := by
    intro path listed opened
    split at opened
    · obtain rfl := Option.some.inj opened
      decide
    · split at opened
      · obtain rfl := Option.some.inj opened
        exact short
      · cases opened
  distinct := by
    intro path listed opened
    split at opened
    · obtain rfl := Option.some.inj opened
      decide
    · split at opened
      · obtain rfl := Option.some.inj opened
        exact distinct
      · cases opened

def blankNode (next : Option Nat) : Node FileInfo := ⟨⟨noRecord,none,0⟩,next⟩

def sampleTree (names : List Path) (short : ∀ name ∈ names, name.length ≤ nameMax) (distinct : names.Nodup) :
    ServedTree where
  dirs := sampleDirs names short distinct
  uninit := fun _ => blankNode (some 99)
  dirPath := ['d']
  top := FileType.all.map gSubDirName
  listed := rfl
  subdirs t _ := by cases t <;> exact ⟨rfl,rfl⟩

def oneFileTree : ServedTree := sampleTree [['a']] (by decide) (by decide)

def emptyTree : ServedTree := sampleTree [] (by decide) (by decide)

/-- The directory is there and holds nothing. -/
def freshTree : ServedTree where
  dirs :=
    { opendir := fun path => if path = ['d'] then some [] else none
      stat := fun _ => none
      short := by simp
      distinct := by simp }
  uninit := fun _ => blankNode none
  dirPath := ['d']
  top := []
  listed := rfl
  subdirs := by simp

theorem fresh_and_empty_wrong : fmInit freshTree.dirs freshTree.uninit freshTree.dirPath = some (.error (-2)) ∧
    ¬ FmRight freshTree ∧ ¬ FmRight emptyTree := by
  refine ⟨rfl,?_,?_⟩
  · intro right
    cases (startable_of_right right).complete .video
  · intro right
    cases (startable_of_right right).ended .video rfl

theorem fmRight_iff_oneFile : FmRight oneFileTree := by
  refine (fmRight_iff oneFileTree).mpr ⟨by decide,?_,?_,?_,by decide⟩
  · intro t
    cases t <;> decide
  · intro t
    cases t <;> decide
  · intro t
    cases t <;> exact fun nothing => by cases nothing

end Trees

end MoCodes.Cps.Server.FileMgr
