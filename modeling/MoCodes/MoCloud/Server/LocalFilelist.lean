import MoCodes.Lib.DirTree
import MoCodes.MoCloud.Client.DwldSlots
import MoCodes.MoCloud.Server.CliData

/-! `FileMgr::getLocalFilelistMap`: the records of the files in the sub-directories of the server,
one sub-directory for each type. -/
namespace MoCodes.MoCloud.Server.LocalFilelist
open Lib.DirTree (FileKind Stat nameMax perm_filter_map_iff)

/-- `lstat` of a path: whether it is a regular file or a link, and its size. -/
structure LinkStat where
  isFile : Bool
  size : Int

/-- What the server sees of the directories: `readdir` gives each name once. -/
structure Tree where
  opendir : Text → Option (List Text)
  stat : Text → Option Stat
  lstat : Text → Option LinkStat
  mkdir : Text → Int
  short : ∀ {path names}, opendir path = some names → ∀ name ∈ names, name.length ≤ nameMax

def fileStateNormal : Int := 0

def moUtils_File_getSize (lstat : Text → Option LinkStat) (pFilepath : Text) : Int :=
  match lstat pFilepath with
  | none => -11003
  | some curStat => if curStat.isFile then toInt curStat.size else -11003

/-- The sub-directory of a type; `none` is the return value -1. -/
def getSubDirpath (mDirpath : Text) (type : Int) : Option Text :=
  if type = filetypeVideo then some (mDirpath ++ text "/Video")
  else if type = filetypeAudio then some (mDirpath ++ text "/Audio")
  else if type = filetypePic then some (mDirpath ++ text "/Picture")
  else if type = filetypeOthers then some (mDirpath ++ text "/Other")
  else none

def isDot (name : Text) : Bool := name = text "." || name = text ".."

def subFilepath (subDirpath name : Text) : Text := subDirpath ++ text "/" ++ name

section Listing

variable (tree : Tree) (mDirpath : Text)

def isReg (path : Text) : Bool :=
  match tree.stat path with
  | none => false
  | some curStat => curStat.kind = .reg

/-- The path is printed into a buffer of MOCLOUD_FILEPATH_MAXLEN bytes. -/
def isRegFile (pDirpath pSubFileName : Text) : Bool :=
  isReg tree ((subFilepath pDirpath pSubFileName).take (Client.DwldSlots.filepathMaxLen-1))

def getBasicFileinfo (subDirpath pName : Text) (type : Int) (fileinfo : BasicFileinfo) : Except Int BasicFileinfo :=
  let fileinfo :=
    { fileinfo with filesize := toSize (moUtils_File_getSize tree.lstat (subFilepath subDirpath pName)) }
  -- the size is unsigned, so this is never true
  if fileinfo.filesize < 0 then .error (-2)
  else
    let zero : BasicFileinfo := ⟨⟨0,[]⟩,0,[],0⟩ -- `memset` after the size was set
    .ok { zero with key := ⟨type,pName.take (filenameMaxLen-1)⟩, ownerName := [], state := fileStateNormal }

/-- The `readdir` loop over the names that are left; `fileinfo` is on the stack and not set. -/
def readFiles (subDirPath : Text) (type : Int) (fileinfo : BasicFileinfo) : List Text → List BasicFileinfo
  | [] => []
  | d_name :: names =>
    let rest := readFiles subDirPath type fileinfo names
    if isDot d_name then rest
    else if isRegFile tree subDirPath d_name then
      match getBasicFileinfo tree subDirPath d_name type fileinfo with
      | .error _ => rest
      | .ok info => info :: rest
    else rest

/-- The loop over the types that are left. -/
def listTypes (fileinfo : BasicFileinfo) (filelistMap : List (Int × List BasicFileinfo)) :
    List Int → Int × List (Int × List BasicFileinfo)
  | [] => (0,filelistMap)
  | type :: types =>
    match getSubDirpath mDirpath type with
    | none => (-1,[])
    | some subDirPath =>
      if tree.stat subDirPath = none then
        if tree.mkdir subDirPath ≠ 0 then (-2,[])
        else listTypes fileinfo (filelistMap ++ [(type,[])]) types
      else
        match tree.opendir subDirPath with
        | none => (-1,filelistMap)
        | some names =>
          listTypes fileinfo (filelistMap ++ [(type,readFiles tree subDirPath type fileinfo names)]) types

/-- `type *= 2` from MOCLOUD_FILETYPE_VIDEO on, below MOCLOUD_FILETYPE_ALL. -/
def getLocalFilelistMap (fileinfo : BasicFileinfo) : Int × List (Int × List BasicFileinfo) :=
  listTypes tree mDirpath fileinfo [] filetypeBits

/-- Each sub-directory can be read, or is not there and can be made. -/
def Usable : Prop :=
  ∀ type ∈ filetypeBits, ∀ subDirPath ∈ getSubDirpath mDirpath type,
    if tree.stat subDirPath = none then tree.mkdir subDirPath = 0 else (tree.opendir subDirPath).isSome

/-- What a directory lists; one that is not there lists nothing. -/
def listed (path : Text) : List Text :=
  if tree.stat path = none then [] else ((tree.opendir path).getD []).filter (!isDot ·)

def sizeAt (path : Text) : Nat :=
  match tree.stat path with
  | none => 0
  | some curStat => curStat.size.toNat

/-- The record that a file ought to have. -/
def trueRecord (subDirPath : Text) (type : Int) (name : Text) : BasicFileinfo where
  key := ⟨type,name.take nameMax⟩
  filesize := sizeAt tree (subFilepath subDirPath name)
  ownerName := []
  state := fileStateNormal

/-- For each type there is one record for each regular file of its sub-directory, and it is true. -/
def Complete (filelistMap : List (Int × List BasicFileinfo)) : Prop :=
  List.Forall₂ (fun type (entry : Int × List BasicFileinfo) => entry.1 = type ∧
    ∀ subDirPath ∈ getSubDirpath mDirpath type,
      entry.2.Perm (((listed tree subDirPath).filter fun name => isReg tree (subFilepath subDirPath name)).map
        (trueRecord tree subDirPath type))) filetypeBits filelistMap

/-- No regular file has bytes in it, and a path that is cut is that of a regular file exactly if
the whole one is. -/
def AllEmpty : Prop :=
  ∀ type ∈ filetypeBits, ∀ subDirPath ∈ getSubDirpath mDirpath type, ∀ name ∈ listed tree subDirPath,
    isRegFile tree subDirPath name = isReg tree (subFilepath subDirPath name) ∧
      (isReg tree (subFilepath subDirPath name) = true → sizeAt tree (subFilepath subDirPath name) = 0)

/-- What becomes of a file: the size is cleared with the rest. -/
def clearedRecord (type : Int) (name : Text) : BasicFileinfo where
  key := ⟨type,name.take nameMax⟩
  filesize := 0
  ownerName := []
  state := fileStateNormal

variable {tree} {mDirpath} {subDirPath : Text} {type : Int} {fileinfo : BasicFileinfo}

theorem getBasicFileinfo_cleared (pName : Text) :
    getBasicFileinfo tree subDirPath pName type fileinfo = .ok (clearedRecord type pName) := rfl

theorem readFiles_cleared (names : List Text) :
    readFiles tree subDirPath type fileinfo names =
      ((names.filter (!isDot ·)).filter (isRegFile tree subDirPath)).map (clearedRecord type) := by
  induction names with
  | nil => rfl
  | cons d_name names ih =>
    rw [readFiles,getBasicFileinfo_cleared]
    split_ifs with dot regular
    · simp [dot,ih]
    · simp [dot,regular,ih]
    · simp [dot,regular,ih]

/-- What the loop puts into the map for a type. -/
def recordsOf (tree : Tree) (mDirpath : Text) (type : Int) : List BasicFileinfo :=
  match getSubDirpath mDirpath type with
  | none => []
  | some subDirPath => ((listed tree subDirPath).filter (isRegFile tree subDirPath)).map (clearedRecord type)

theorem getSubDirpath_isSome (mDirpath : Text) (known : type ∈ filetypeBits) : (getSubDirpath mDirpath type).isSome := by
  simp only [filetypeBits,List.mem_cons,List.not_mem_nil,or_false] at known
  rcases known with rfl | rfl | rfl | rfl <;> rfl

theorem listTypes_usable (usable : Usable tree mDirpath) {types : List Int} (known : types ⊆ filetypeBits)
    (filelistMap : List (Int × List BasicFileinfo)) :
    listTypes tree mDirpath fileinfo filelistMap types =
      (0,filelistMap ++ types.map fun type => (type,recordsOf tree mDirpath type)) := by
  induction types generalizing filelistMap with
  | nil => simp [listTypes]
  | cons type types ih =>
    obtain ⟨here,others⟩ := List.cons_subset.mp known
    obtain ⟨subDirPath,named⟩ := Option.isSome_iff_exists.mp (getSubDirpath_isSome mDirpath here)
    have able := usable type here subDirPath named
    rw [listTypes,named]
    dsimp only
    split_ifs at able ⊢ with absent refused
    · exact absurd able refused
    · rw [ih others]
      simp [recordsOf,named,listed,absent]
    · obtain ⟨names,opened⟩ := Option.isSome_iff_exists.mp able
      rw [opened]
      dsimp only
      rw [ih others,readFiles_cleared]
      simp [recordsOf,named,listed,absent,opened]

theorem listed_short {path name : Text} (member : name ∈ listed tree path) : name.length ≤ nameMax := by
  unfold listed at member
  split_ifs at member
  · cases member
  · have inside := (List.mem_filter.mp member).1
    cases opened : tree.opendir path with
    | none => simp [opened] at inside
    | some names =>
      rw [opened] at inside
      exact tree.short opened name inside

/-- No path of a sub-directory whose own path is short enough is cut. -/
theorem isRegFile_short {name : Text} (member : name ∈ listed tree subDirPath)
    (short : subDirPath.length+1+nameMax < Client.DwldSlots.filepathMaxLen) :
    isRegFile tree subDirPath name = isReg tree (subFilepath subDirPath name) := by
  have fits := listed_short member
  rw [isRegFile,List.take_of_length_le]
  have length : (subFilepath subDirPath name).length = subDirPath.length+1+name.length := by
    simp only [subFilepath,List.length_append]
    rfl
  omega

/-- The records of a type are the true ones exactly if no file that is listed has bytes in it. -/
theorem records_perm_iff :
    (((listed tree subDirPath).filter (isRegFile tree subDirPath)).map (clearedRecord type)).Perm
      (((listed tree subDirPath).filter fun name => isReg tree (subFilepath subDirPath name)).map
        (trueRecord tree subDirPath type)) ↔
    ∀ name ∈ listed tree subDirPath,
      isRegFile tree subDirPath name = isReg tree (subFilepath subDirPath name) ∧
        (isReg tree (subFilepath subDirPath name) = true → sizeAt tree (subFilepath subDirPath name) = 0) := by
  rw [perm_filter_map_iff fun info : BasicFileinfo => info.key.filename]
  · refine forall₂_congr fun name _ => and_congr_right fun _ => imp_congr_right fun _ => ?_
    simp [clearedRecord,trueRecord,eq_comm]
  · intro name _
    rfl
  · intro name member other inside same
    have whole {name : Text} (member : name ∈ listed tree subDirPath) : name.take nameMax = name :=
      List.take_of_length_le (listed_short member)
    simpa [trueRecord,whole member,whole inside] using same

theorem getLocalFilelistMap_usable (fileinfo : BasicFileinfo) (usable : Usable tree mDirpath) :
    getLocalFilelistMap tree mDirpath fileinfo =
      (0,filetypeBits.map fun type => (type,recordsOf tree mDirpath type)) := by
  rw [getLocalFilelistMap,listTypes_usable usable (List.Subset.refl _)]
  rfl

theorem complete_records_iff :
    Complete tree mDirpath (filetypeBits.map fun type => (type,recordsOf tree mDirpath type)) ↔
      AllEmpty tree mDirpath := by
  simp only [Complete,List.forall₂_map_right_iff,List.forall₂_same,true_and]
  refine forall₂_congr fun type known => ?_
  obtain ⟨subDirPath,named⟩ := Option.isSome_iff_exists.mp (getSubDirpath_isSome mDirpath known)
  simp only [named,recordsOf,Option.mem_def,Option.some.injEq,forall_eq']
  exact records_perm_iff

/-- Where the sub-directories can be read or made, the map is complete exactly if all their files
are empty and no path is cut to that of something else. -/
theorem filelistMap_complete_iff (fileinfo : BasicFileinfo) (usable : Usable tree mDirpath) :
    (∃ filelistMap, getLocalFilelistMap tree mDirpath fileinfo = (0,filelistMap) ∧
      Complete tree mDirpath filelistMap) ↔ AllEmpty tree mDirpath := by
  rw [getLocalFilelistMap_usable fileinfo usable,← complete_records_iff]
  simp only [Prod.mk.injEq,true_and,exists_eq_left']

end Listing

/-- A server whose directory of pictures has one file; the other directories are made. -/
def onePicture (size : Int) : Tree where
  opendir := fun path => if path = text "/files/Picture" then some [text ".",text "..",text "a.jpg"] else none
  stat := fun path =>
    if path = text "/files/Picture" then some ⟨.dir,4096⟩
    else if path = text "/files/Picture/a.jpg" then some ⟨.reg,size⟩
    else none
  lstat := fun path => if path = text "/files/Picture/a.jpg" then some ⟨true,size⟩ else none
  mkdir := fun _ => 0
  short := by
    intro path names opened
    split_ifs at opened
    obtain rfl := Option.some.inj opened
    decide

instance (tree : Tree) (mDirpath : Text) : Decidable (Usable tree mDirpath) :=
  inferInstanceAs (Decidable (∀ type ∈ filetypeBits, ∀ subDirPath ∈ getSubDirpath mDirpath type,
    if tree.stat subDirPath = none then tree.mkdir subDirPath = 0 else (tree.opendir subDirPath).isSome))

instance (tree : Tree) (mDirpath : Text) : Decidable (AllEmpty tree mDirpath) :=
  inferInstanceAs (Decidable (∀ type ∈ filetypeBits, ∀ subDirPath ∈ getSubDirpath mDirpath type,
    ∀ name ∈ listed tree subDirPath,
      isRegFile tree subDirPath name = isReg tree (subFilepath subDirPath name) ∧ (_ → _)))

theorem filelistMap_complete_empty :
    ∃ filelistMap, getLocalFilelistMap (onePicture 0) (text "/files") ⟨⟨0,[]⟩,0,[],0⟩ = (0,filelistMap) ∧
      Complete (onePicture 0) (text "/files") filelistMap :=
  (filelistMap_complete_iff _ (by decide)).mpr (by decide)

/-- A picture of 5 bytes is listed with none. -/
theorem filelistMap_size_lost :
    Usable (onePicture 5) (text "/files") ∧
      ¬ ∃ filelistMap, getLocalFilelistMap (onePicture 5) (text "/files") ⟨⟨0,[]⟩,0,[],0⟩ = (0,filelistMap) ∧
        Complete (onePicture 5) (text "/files") filelistMap := by
  have usable : Usable (onePicture 5) (text "/files") := by decide
  refine ⟨usable,?_⟩
  rintro ⟨filelistMap,listing,complete⟩
  rw [getLocalFilelistMap_usable _ usable] at listing
  obtain rfl := (Prod.mk.inj listing).2
  exact absurd (complete_records_iff.mp complete) (by decide)

end MoCodes.MoCloud.Server.LocalFilelist
