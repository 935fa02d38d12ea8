import MoCodes.MoCloud.Isolation
import MoCodes.MoCloud.Server.SendFile

/-! The body of a request of doStartDwld, and what the server reads from it. -/
namespace MoCodes.MoCloud
open Server Server.SendFile

section Symbols

variable {char : UInt8} {tail front rest : Text}

theorem findText_skip (absent : char ∉ front) :
    findText (char :: tail) (front ++ rest) = (findText (char :: tail) rest).map (· + front.length) := by
  induction front with
  | nil => simp
  | cons first front ih =>
    obtain ⟨other,absent⟩ := not_or.mp (mt List.mem_cons.mpr absent)
    have apart : ¬ (char :: tail).isPrefixOf (first :: (front ++ rest)) = true := by
      simp [List.isPrefixOf,other]
    rw [List.cons_append,findText,if_neg apart,ih absent,Option.map_map]
    rfl

/-- A symbol whose first character is not in it again does not reach from before a place
with that character to behind it. -/
theorem findText_upto (fresh : char ∉ tail) (absent : ¬ char :: tail <:+: front) :
    findText (char :: tail) (front ++ char :: rest) = (findText (char :: tail) (char :: rest)).map (· + front.length) := by
  induction front with
  | nil => simp
  | cons first front ih =>
    have apart : ¬ (char :: tail).isPrefixOf (first :: (front ++ char :: rest)) = true := by
      intro matched
      have starts := List.isPrefixOf_iff_prefix.mp matched
      rw [← List.cons_append] at starts
      rcases Nat.le_total (char :: tail).length (first :: front).length with fits | more
      · have inside : char :: tail <+: first :: front :=
          List.prefix_of_prefix_length_le starts (List.prefix_append _ _) fits
        exact absent inside.isInfix
      · obtain ⟨behind,split⟩ := List.prefix_of_prefix_length_le (List.prefix_append _ _) starts more
        have follows : behind <+: char :: rest := by
          rw [← split] at starts
          exact (List.prefix_append_right_inj _).mp starts
        cases behind with
        | nil =>
          rw [List.append_nil] at split
          exact absent (split ▸ List.infix_rfl)
        | cons next behind =>
          obtain rfl : next = char := (List.cons_prefix_cons.mp follows).1
          have later : tail = front ++ next :: behind := (List.cons.inj split).2.symm
          exact fresh (later ▸ List.mem_append_right _ List.mem_cons_self)
    rw [List.cons_append,findText,if_neg apart,ih fun within => absent (within.trans (List.infix_cons List.infix_rfl)),
      Option.map_map]
    rfl

theorem findText_other {other : Text} (absent : char ∉ other)
    (differ : (char :: tail).isPrefixOf (char :: other ++ rest) = false) :
    findText (char :: tail) (char :: other ++ rest) = (findText (char :: tail) rest).map (· + (char :: other).length) := by
  rw [List.cons_append] at differ ⊢
  rw [findText,if_neg (by simp [differ]),findText_skip absent,Option.map_map]
  rfl

theorem findText_here (symbol rest : Text) : findText symbol (symbol ++ rest) = some 0 := by
  obtain ⟨i,bound,found⟩ := findText_le symbol [] rest
  rw [List.nil_append] at found
  rw [found,Nat.le_zero.mp bound]

theorem findText_none {symbol body : Text} : findText symbol body = none ↔ ¬ symbol <:+: body := by
  induction body with
  | nil =>
    rw [findText,List.infix_nil]
    split
    · exact iff_of_false (Option.some_ne_none 0) (not_not_intro ‹_›)
    · exact iff_of_true rfl ‹_›
  | cons char body ih =>
    rw [findText,List.infix_cons_iff,← List.isPrefixOf_iff_prefix]
    split
    · exact iff_of_false (Option.some_ne_none 0) (not_not_intro (.inl ‹_›))
    · rename_i apart
      rw [Option.map_eq_none_iff,ih,or_iff_right apart]

theorem findText_fits {symbol body : Text} {i : Nat} (found : findText symbol body = some i) :
    i+symbol.length ≤ body.length := by
  induction body generalizing i with
  | nil =>
    rw [findText] at found
    split at found
    · rename_i empty
      cases found
      rw [empty]
      exact Nat.le_refl 0
    · cases found
  | cons char body ih =>
    rw [findText] at found
    split at found
    · rename_i here
      cases found
      rw [Nat.zero_add]
      exact (List.isPrefixOf_iff_prefix.mp here).length_le
    · obtain ⟨i,later,rfl⟩ := Option.map_eq_some_iff.mp found
      have fits := ih later
      rw [List.length_cons]
      omega

theorem findText_append {symbol body : Text} {i : Nat} (found : findText symbol body = some i) (rest : Text) :
    findText symbol (body ++ rest) = some i := by
  induction body generalizing i with
  | nil =>
    rw [findText] at found
    split at found
    · rename_i empty
      cases found
      rw [empty]
      exact findText_here [] _
    · cases found
  | cons char body ih =>
    have fits := findText_fits found
    rw [findText] at found
    rw [List.cons_append,findText]
    split at found
    · rename_i here
      cases found
      exact if_pos (List.isPrefixOf_iff_prefix.mpr
        ((List.isPrefixOf_iff_prefix.mp here).trans (List.prefix_append _ rest)))
    · rename_i apart
      obtain ⟨i,later,rfl⟩ := Option.map_eq_some_iff.mp found
      have still : ¬ symbol.isPrefixOf (char :: (body ++ rest)) = true := fun here =>
        apart (List.isPrefixOf_iff_prefix.mpr (List.prefix_of_prefix_length_le
          (List.isPrefixOf_iff_prefix.mp here) (List.prefix_append (char :: body) rest) (by omega)))
      rw [if_neg still,ih later]
      rfl

/-- In front of the symbol, or before that. -/
theorem findText_getD (fresh : char ∉ tail) (front rest : Text) :
    findText (char :: tail) (front ++ (char :: tail ++ rest)) =
      some ((findText (char :: tail) front).getD front.length) := by
  cases inside : findText (char :: tail) front with
  | some i => exact findText_append inside _
  | none =>
    have here := findText_here (char :: tail) rest
    rw [List.cons_append] at here
    rw [List.cons_append,findText_upto fresh (findText_none.mp inside),here]
    exact congrArg some (Nat.zero_add _)

theorem position_found {body symbol : Text} {i : Nat} (found : findText symbol body = some i) (small : i < 2^32) :
    position body symbol = i := by
  rw [position,found]
  exact Nat.mod_eq_of_lt small

theorem position_ne_npos (body symbol : Text) : position body symbol ≠ npos := by
  have small : position body symbol < 2^32 := Nat.mod_lt _ (by decide)
  have large : 2^32 < npos := by decide
  omega

end Symbols

section Reading

/-- What `char filename[MOCLOUD_FILENAME_MAXLEN]` can hold. -/
def IsName (name : Text) : Prop := 0 ∉ name ∧ name.length < filenameMaxLen

instance (name : Text) : Decidable (IsName name) := inferInstanceAs (Decidable (_ ∧ _))

variable {key : FileinfoKey} {startOffset fileId : Int}

/-- What stands before the file name. -/
def typeText (key : FileinfoKey) : Text := text "filetype=" ++ printInt key.filetype

def behindName (startOffset fileId : Int) : Text :=
  text ", startOffset=" ++ (printInt startOffset ++ (text ", fileId=" ++ printInt fileId))

theorem typeText_plain : 44 ∉ typeText key := by
  intro member
  rcases List.mem_append.mp member with literal | number
  · exact absurd literal (by decide)
  · exact printInt_plain (by decide) (by decide) number

theorem symbols_length : (text "filetype=").length = 9 ∧ (text ", filename=").length = 11 ∧
    (text ", startOffset=").length = 14 ∧ (text ", fileId=").length = 9 := by
  decide

theorem symbols_split : ∃ filename startOffset fileId : Text,
    (text ", filename=" = 44 :: filename ∧ text ", startOffset=" = 44 :: startOffset ∧ text ", fileId=" = 44 :: fileId) ∧
      44 ∉ filename ∧ 44 ∉ startOffset ∧ 44 ∉ fileId :=
  ⟨(text ", filename=").tail,(text ", startOffset=").tail,(text ", fileId=").tail,by decide,by decide⟩

theorem findText_name {tail : Text} (differ : ∀ rest, (44 :: tail).isPrefixOf (text ", filename=" ++ rest) = false)
    (rest : Text) : findText (44 :: tail) (typeText key ++ (text ", filename=" ++ rest)) =
      (findText (44 :: tail) rest).map (· + ((typeText key).length+11)) := by
  obtain ⟨_,_,_,⟨first,_,_⟩,fresh,_,_⟩ := symbols_split
  have passed : findText (44 :: tail) (text ", filename=" ++ rest) = (findText (44 :: tail) rest).map (· + 11) := by
    have differ := differ rest
    rw [← symbols_length.2.1]
    rw [first] at differ ⊢
    exact findText_other fresh differ
  rw [findText_skip typeText_plain,passed,Option.map_map]
  congr 1
  funext i
  change i+11+_ = _
  omega

theorem offset_found (rest : Text) :
    findText (text ", startOffset=") (typeText key ++ (text ", filename=" ++ (key.filename ++ (text ", startOffset=" ++ rest)))) =
      some ((findText (text ", startOffset=") key.filename).getD key.filename.length + ((typeText key).length+11)) := by
  obtain ⟨_,_,_,⟨_,second,_⟩,_,fresh,_⟩ := symbols_split
  have differ : ∀ rest, (text ", startOffset=").isPrefixOf (text ", filename=" ++ rest) = false := fun _ => rfl
  rw [second] at differ ⊢
  rw [findText_name differ,findText_getD fresh]
  rfl

/-- In the name, if it is there, and behind the offset otherwise. -/
theorem fileId_found (rest : Text) :
    findText (text ", fileId=") (typeText key ++ (text ", filename=" ++ (key.filename ++ (text ", startOffset=" ++
      (printInt startOffset ++ (text ", fileId=" ++ rest)))))) =
        some ((findText (text ", fileId=") key.filename).getD (key.filename.length+14+(printInt startOffset).length) +
          ((typeText key).length+11)) := by
  obtain ⟨_,_,_,⟨_,second,third⟩,_,plainOffset,fresh⟩ := symbols_split
  have differ : ∀ rest, (text ", fileId=").isPrefixOf (text ", filename=" ++ rest) = false := fun _ => rfl
  have differOffset : ∀ rest, (text ", fileId=").isPrefixOf (text ", startOffset=" ++ rest) = false := fun _ => rfl
  cases inName : findText (text ", fileId=") key.filename with
  | some i =>
    have found := findText_append inName (text ", startOffset=" ++ (printInt startOffset ++ (text ", fileId=" ++ rest)))
    rw [third] at differ found ⊢
    rw [findText_name differ,found]
    rfl
  | none =>
    have plain := findText_none.mp inName
    have here := findText_here (text ", fileId=") rest
    have number : (44 : UInt8) ∉ printInt startOffset := printInt_plain (by decide) (by decide)
    have differOffset := differOffset (printInt startOffset ++ (text ", fileId=" ++ rest))
    have fourteen := symbols_length.2.2.1
    rw [second] at fourteen
    rw [second,third] at differOffset
    rw [third] at differ plain here ⊢
    rw [findText_name differ,second,List.cons_append,findText_upto fresh plain,← List.cons_append,
      findText_other plainOffset differOffset,findText_skip number,here,fourteen]
    change some (0+(printInt startOffset).length+14+key.filename.length+((typeText key).length+11)) =
      some (key.filename.length+14+(printInt startOffset).length+((typeText key).length+11))
    congr 1
    omega

theorem fileId_places :
    let place := (findText (text ", fileId=") key.filename).getD (key.filename.length+14+(printInt startOffset).length)
    place = key.filename.length+14+(printInt startOffset).length ∨ place < key.filename.length := by
  cases inName : findText (text ", fileId=") key.filename with
  | none => exact .inl rfl
  | some i =>
    have inside := findText_fits inName
    rw [symbols_length.2.2.2] at inside
    exact .inr (Nat.lt_of_lt_of_le (Nat.lt_add_of_pos_right (by decide)) inside)

theorem substr_some {body : Text} {pos n : Nat} (inside : pos ≤ body.length) :
    substr body pos n = some ((body.drop pos).take n) :=
  if_neg (Nat.not_lt_of_le inside)

variable (name : IsName key.filename) (filetype : IsInt key.filetype) (offset : IsInt startOffset) (id : IsInt fileId)
include name filetype offset id

theorem dwldTaskInfo_length :
    (typeText key ++ (text ", filename=" ++ (key.filename ++ behindName startOffset fileId))).length < 384 := by
  obtain ⟨a,b,c,d⟩ := symbols_length
  have first := printInt_length filetype
  have second := printInt_length offset
  have third := printInt_length id
  have short : key.filename.length < 256 := name.2
  simp only [typeText,behindName,List.length_append,a,b,c,d]
  omega

theorem dwldTaskInfo_parts : dwldTaskInfo key startOffset fileId =
    typeText key ++ (text ", filename=" ++ (key.filename ++ behindName startOffset fileId)) := by
  have whole := dwldTaskInfo_length name filetype offset id
  rw [dwldTaskInfo,List.take_of_length_le]
  · simp only [typeText,behindName,List.append_assoc]
  · have same : dwldTaskInfoMaxLen-1 = 383 := by decide
    simp only [typeText,behindName,List.append_assoc] at whole ⊢
    omega

theorem dwldTaskInfo_name : (dwldTaskInfo key startOffset fileId).drop ((typeText key).length+11) =
    key.filename ++ behindName startOffset fileId := by
  rw [dwldTaskInfo_parts name filetype offset id,← symbols_length.2.1,← List.length_append,← List.append_assoc,
    List.drop_left]

theorem dwldTaskInfo_cString : cString (dwldTaskInfo key startOffset fileId) = dwldTaskInfo key startOffset fileId := by
  have number : ∀ value : Int, (0 : UInt8) ∉ printInt value := fun value => printInt_plain (by decide) (by decide)
  have literals : (0 : UInt8) ∉ text "filetype=" ∧ (0 : UInt8) ∉ text ", filename=" ∧ (0 : UInt8) ∉ text ", startOffset=" ∧
      (0 : UInt8) ∉ text ", fileId=" := by decide
  have absent : (0 : UInt8) ∉ dwldTaskInfo key startOffset fileId := by
    rw [dwldTaskInfo_parts name filetype offset id]
    simp only [typeText,behindName,List.mem_append,number,literals,name.1,or_self,not_false_eq_true]
  refine List.takeWhile_eq_self_iff.mpr fun char member => bne_iff_ne.mpr ?_
  rintro rfl
  exact absent member

theorem position_filetype : position (dwldTaskInfo key startOffset fileId) (text "filetype=") = 0 := by
  refine position_found ?_ (by decide)
  rw [dwldTaskInfo_parts name filetype offset id,typeText,List.append_assoc]
  exact findText_here _ _

theorem position_filename : position (dwldTaskInfo key startOffset fileId) (text ", filename=") = (typeText key).length := by
  have size := dwldTaskInfo_length name filetype offset id
  refine position_found ?_ (by simp only [List.length_append] at size; omega)
  obtain ⟨_,_,_,⟨first,_,_⟩,_⟩ := symbols_split
  have here := findText_here (text ", filename=") (key.filename ++ behindName startOffset fileId)
  rw [dwldTaskInfo_parts name filetype offset id]
  rw [first] at here ⊢
  rw [findText_skip typeText_plain,here]
  exact congrArg some (Nat.zero_add _)

theorem position_startOffset : position (dwldTaskInfo key startOffset fileId) (text ", startOffset=") =
    (findText (text ", startOffset=") key.filename).getD key.filename.length + ((typeText key).length+11) := by
  have size := dwldTaskInfo_length name filetype offset id
  refine position_found ?_ ?_
  · rw [dwldTaskInfo_parts name filetype offset id,behindName]
    exact offset_found _
  · simp only [List.length_append,symbols_length.2.1] at size
    cases inName : findText (text ", startOffset=") key.filename with
    | none =>
      rw [Option.getD_none]
      omega
    | some i =>
      have inside := findText_fits inName
      rw [Option.getD_some]
      omega

/-- What is read, by the places of the other two symbols. -/
theorem read_places {pos3 pos4 : Nat}
    (third : position (dwldTaskInfo key startOffset fileId) (text ", startOffset=") = pos3)
    (fourth : position (dwldTaskInfo key startOffset fileId) (text ", fileId=") = pos4) :
    getDwldReqInfo (some (dwldTaskInfo key startOffset fileId)) =
      (substr (dwldTaskInfo key startOffset fileId) ((typeText key).length+11)
        (toSize (pos3-((typeText key).length+11 : Nat)))).bind fun filenameStr =>
      (substr (dwldTaskInfo key startOffset fileId) (pos3+14) (toSize (pos4-(pos3+14 : Nat)))).bind fun startOffsetStr =>
      (substr (dwldTaskInfo key startOffset fileId) (pos4+9) (dwldTaskInfo key startOffset fileId).length).bind fun fileIdStr =>
        some (.ok ⟨⟨key.filetype,filenameStr.take filenameMaxLen⟩,atoi startOffsetStr,atoi fileIdStr⟩) := by
  have whole := dwldTaskInfo_cString name filetype offset id
  have first := position_filetype name filetype offset id
  have second := position_filename name filetype offset id
  have parts := dwldTaskInfo_parts name filetype offset id
  obtain ⟨nine,eleven,fourteen,nine'⟩ := symbols_length
  have long : (typeText key).length = 9+(printInt key.filetype).length := by
    rw [typeText,List.length_append,nine]
  have typed : substr (dwldTaskInfo key startOffset fileId) 9 (toSize ((typeText key).length-(9 : Nat))) =
      some (printInt key.filetype) := by
    have count : toSize ((typeText key).length-(9 : Nat)) = (printInt key.filetype).length := by
      have bound := printInt_length filetype
      rw [toSize,long]
      omega
    have inside : 9 ≤ (dwldTaskInfo key startOffset fileId).length := by
      rw [parts,List.length_append]
      omega
    rw [substr_some inside,count,parts,typeText,List.append_assoc,← nine,List.drop_left,List.take_left]
  have number : atoi (printInt key.filetype) = key.filetype := by
    have read : atoi (printInt key.filetype ++ []) = key.filetype := atoi_printInt filetype fun _ none => by cases none
    rwa [List.append_nil] at read
  simp only [getDwldReqInfo,whole,if_neg (position_ne_npos _ _),nine,eleven,fourteen,nine']
  rw [first,second,third,fourth,if_neg (not_not.mpr rfl),typed,Option.bind_some,number]

theorem position_fileId : position (dwldTaskInfo key startOffset fileId) (text ", fileId=") =
    (findText (text ", fileId=") key.filename).getD (key.filename.length+14+(printInt startOffset).length) +
      ((typeText key).length+11) := by
  have size := dwldTaskInfo_length name filetype offset id
  obtain ⟨-,eleven,fourteen,nine⟩ := symbols_length
  refine position_found ?_ ?_
  · rw [dwldTaskInfo_parts name filetype offset id,behindName]
    exact fileId_found _
  · simp only [behindName,List.length_append,eleven,fourteen,nine] at size
    cases inName : findText (text ", fileId=") key.filename with
    | none =>
      rw [Option.getD_none]
      omega
    | some i =>
      have inside := findText_fits inName
      rw [Option.getD_some]
      omega

theorem dwldTaskInfo_offset : (dwldTaskInfo key startOffset fileId).drop ((typeText key).length+11+key.filename.length+14) =
    printInt startOffset ++ (text ", fileId=" ++ printInt fileId) := by
  rw [← List.drop_drop,← List.drop_drop,dwldTaskInfo_name name filetype offset id,List.drop_left,behindName,
    ← symbols_length.2.2.1,List.drop_left]

theorem dwldTaskInfo_whole : (dwldTaskInfo key startOffset fileId).length =
    (typeText key).length+11+key.filename.length+14+(printInt startOffset).length+9+(printInt fileId).length := by
  obtain ⟨-,eleven,fourteen,nine⟩ := symbols_length
  rw [dwldTaskInfo_parts name filetype offset id,behindName]
  simp only [List.length_append,eleven,fourteen,nine]
  omega

/-- Up to the symbol behind it, or up to the end when that is found in the name and the count wraps. -/
theorem startOffset_read {i : Nat}
    (places : i = key.filename.length+14+(printInt startOffset).length ∨ i < key.filename.length) :
    ∃ digits, substr (dwldTaskInfo key startOffset fileId) (key.filename.length+((typeText key).length+11)+14)
      (toSize ((i+((typeText key).length+11) : Nat)-(key.filename.length+((typeText key).length+11)+14 : Nat))) =
        some digits ∧ atoi digits = startOffset := by
  have whole := dwldTaskInfo_whole name filetype offset id
  have atOffset := dwldTaskInfo_offset name filetype offset id
  rw [Nat.add_comm ((typeText key).length+11)] at atOffset
  refine ⟨_,substr_some (by omega),?_⟩
  rw [atOffset]
  rcases places with behind | inside
  · have count : toSize ((i+((typeText key).length+11) : Nat)-(key.filename.length+((typeText key).length+11)+14 : Nat)) =
        (printInt startOffset).length := by
      have bound := printInt_length offset
      rw [toSize,behind]
      omega
    have read : atoi (printInt startOffset ++ []) = startOffset := atoi_printInt offset fun _ none => by cases none
    rw [List.append_nil] at read
    rw [count,List.take_left,read]
  · have size := dwldTaskInfo_length name filetype offset id
    rw [← dwldTaskInfo_parts name filetype offset id] at size
    have count : (dwldTaskInfo key startOffset fileId).length ≤
        toSize ((i+((typeText key).length+11) : Nat)-(key.filename.length+((typeText key).length+11)+14 : Nat)) := by
      rw [toSize]
      omega
    have all := congrArg List.length atOffset
    rw [List.length_drop] at all
    rw [List.take_of_length_le (by omega)]
    exact atoi_printInt offset fun char first => by
      obtain rfl : (44 : UInt8) = char := Option.some.inj first
      rfl

/-- The server reads back the key and the offset the client asked for. -/
theorem read_dwldTaskInfo (plain : ¬ text ", startOffset=" <:+: key.filename) : ∃ number,
    getDwldReqInfo (some (dwldTaskInfo key startOffset fileId)) = some (.ok ⟨key,startOffset,number⟩) := by
  have whole := dwldTaskInfo_whole name filetype offset id
  have short : key.filename.length < filenameMaxLen := name.2
  have places := @fileId_places key startOffset
  have fourth := position_fileId name filetype offset id
  have third : position (dwldTaskInfo key startOffset fileId) (text ", startOffset=") =
      key.filename.length+((typeText key).length+11) := by
    rw [position_startOffset name filetype offset id,findText_none.mpr plain,Option.getD_none]
  have nameRead : substr (dwldTaskInfo key startOffset fileId) ((typeText key).length+11)
      (toSize ((key.filename.length+((typeText key).length+11) : Nat)-((typeText key).length+11 : Nat))) =
        some key.filename := by
    have room : filenameMaxLen = 256 := rfl
    have count : toSize ((key.filename.length+((typeText key).length+11) : Nat)-((typeText key).length+11 : Nat)) =
        key.filename.length := by
      rw [toSize]
      omega
    rw [substr_some (by omega),count,dwldTaskInfo_name name filetype offset id,List.take_left]
  obtain ⟨digits,digitsRead,number⟩ := startOffset_read name filetype offset id places
  have read := read_places name filetype offset id third fourth
  rw [nameRead,Option.bind_some,digitsRead,Option.bind_some,substr_some (by omega),Option.bind_some,number,
    List.take_of_length_le (Nat.le_of_lt short)] at read
  exact ⟨_,read⟩

theorem fileId_read {info : DwldReqInfo}
    (read : getDwldReqInfo (some (dwldTaskInfo key startOffset fileId)) = some (.ok info)) :
    info.fileId = atoi ((dwldTaskInfo key startOffset fileId).drop
      (position (dwldTaskInfo key startOffset fileId) (text ", fileId=")+9)) := by
  rw [read_places name filetype offset id rfl rfl] at read
  obtain ⟨_,_,read⟩ := Option.bind_eq_some_iff.mp read
  obtain ⟨_,_,read⟩ := Option.bind_eq_some_iff.mp read
  obtain ⟨fileIdStr,cut,read⟩ := Option.bind_eq_some_iff.mp read
  have value : info.fileId = atoi fileIdStr :=
    congrArg DwldReqInfo.fileId (Except.ok.inj (Option.some.inj read)).symm
  rw [value]
  rw [substr] at cut
  split at cut
  · cases cut
  · rw [← Option.some.inj cut,List.take_of_length_le (List.length_drop ▸ Nat.sub_le _ _)]

/-- Behind a symbol in the name the rest of the name is read as the number. -/
theorem fileId_number : atoi ((dwldTaskInfo key startOffset fileId).drop
    (position (dwldTaskInfo key startOffset fileId) (text ", fileId=")+9)) =
      match findText (text ", fileId=") key.filename with
      | none => fileId
      | some pos => atoi (key.filename.drop (pos+9)) := by
  have atName := dwldTaskInfo_name name filetype offset id
  obtain ⟨-,-,fourteen,nine⟩ := symbols_length
  rw [position_fileId name filetype offset id]
  cases found : findText (text ", fileId=") key.filename with
  | none =>
    have place : (typeText key).length+11+(key.filename.length+(14+((printInt startOffset).length+9))) =
        key.filename.length+14+(printInt startOffset).length+((typeText key).length+11)+9 := by omega
    have read : atoi (printInt fileId ++ []) = fileId := atoi_printInt id fun _ none => by cases none
    rw [Option.getD_none,← place,← List.drop_drop,← List.drop_drop,← List.drop_drop,← List.drop_drop,atName,
      List.drop_left,behindName,← fourteen,List.drop_left,List.drop_left,← nine,List.drop_left]
    rwa [List.append_nil] at read
  | some pos =>
    have inside := findText_fits found
    rw [nine] at inside
    have place : (typeText key).length+11+(pos+9) = pos+((typeText key).length+11)+9 := by omega
    rw [Option.getD_some,← place,← List.drop_drop,atName,List.drop_append_of_le_length inside]
    exact atoi_comma _ _

/-- A name with the separator in it is cut there. -/
theorem misread {info : DwldReqInfo} (within : text ", startOffset=" <:+: key.filename)
    (read : getDwldReqInfo (some (dwldTaskInfo key startOffset fileId)) = some (.ok info)) :
    info.key.filename ≠ key.filename := by
  have third := position_startOffset name filetype offset id
  cases found : findText (text ", startOffset=") key.filename with
  | none => exact absurd within (findText_none.mp found)
  | some i =>
    have inside := findText_fits found
    have fourteen := symbols_length.2.2.1
    have room : key.filename.length < 256 := name.2
    rw [found,Option.getD_some] at third
    rw [read_places name filetype offset id third rfl] at read
    obtain ⟨filenameStr,filenameRead,read⟩ := Option.bind_eq_some_iff.mp read
    obtain ⟨_,_,read⟩ := Option.bind_eq_some_iff.mp read
    obtain ⟨_,_,read⟩ := Option.bind_eq_some_iff.mp read
    obtain rfl := Except.ok.inj (Option.some.inj read)
    have count : toSize ((i+((typeText key).length+11) : Nat)-((typeText key).length+11 : Nat)) = i := by
      rw [toSize]
      omega
    have short : filenameStr.length ≤ i := by
      rw [substr,count] at filenameRead
      split at filenameRead
      · cases filenameRead
      · rw [← Option.some.inj filenameRead]
        exact List.length_take_le _ _
    intro same
    have equal := congrArg List.length same
    rw [List.length_take] at equal
    omega

end Reading

end MoCodes.MoCloud
