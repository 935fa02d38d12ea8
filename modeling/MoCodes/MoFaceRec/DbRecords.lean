import MoCodes.MoFaceRec.CaptureRequest
import MoCodes.MoFaceRec.StrictEngine

/-! The records of faces in db.cpp: the commands that `login`, `insert` and `query` put together in their
buffers, and the items that are read from the rows. Once a byte outside a buffer is written, there is no
result. -/
namespace MoCodes.MoFaceRec.Records
open MoCloud MoCloud.Server CaptureRequest

/-- `time_t` is a long. -/
structure DbItem where
  mTimestamp : Int64
  mCameraIp : UInt64
  mCameraName : Text
  mPeopleNameVector : List Text
  deriving DecidableEq

def sqlCmdMaxLen : Nat := 512

section Buffers

def snprintf (size : Nat) (printed : Text) : Text := printed.take (size-1)

def sprintf (size : Nat) (printed : Text) : Option Text := if printed.length < size then some printed else none

def strcat (size : Nat) (dest src : Text) : Option Text :=
  if (dest ++ src).length < size then some (dest ++ src) else none

/-- A loop that prints each piece to `tmp` and appends it to a command. -/
def appendEach (tmpSize : Nat) (command : Text) : List Text → Option Text
  | [] => some command
  | piece :: pieces =>
    match sprintf tmpSize piece with
    | none => none
    | some tmp =>
      match strcat sqlCmdMaxLen command tmp with
      | none => none
      | some command => appendEach tmpSize command pieces

end Buffers

section Commands

def createCmd : Option Text :=
  let createCmd := snprintf sqlCmdMaxLen (text "create table if not exists " ++ mysqlFacerecTabname ++ text "(" ++
    attrTimestamp ++ text " bigint, " ++ attrCameraip ++ text " bigint, " ++ attrCameraname ++ text " char(" ++
    printInt maxCameraNameLen ++ text ")")
  let people := (List.range Db.maxFaceNum).map fun (i : Nat) =>
    text ", " ++ attrPeoplename ++ printInt i ++ text " char(" ++ printInt maxPeopleNameLen ++ text ")"
  (appendEach 32 createCmd people).bind fun createCmd => strcat sqlCmdMaxLen createCmd (text ");")

/-- `tmp` of `query` and `insert`. -/
def tmpSize : Nat := maxPeopleNameLen*2

def insertCmd (item : DbItem) : Option Text :=
  let insertCmd := snprintf sqlCmdMaxLen (text "insert into " ++ mysqlFacerecTabname ++ text " values(" ++
    printInt item.mTimestamp.toInt ++ text ", " ++ printInt item.mCameraIp.toInt64.toInt ++ text ", \"" ++
    cString item.mCameraName ++ text "\"")
  let people := item.mPeopleNameVector.map fun name => text ", \"" ++ cString name ++ text "\""
  let empties := List.replicate (Db.maxFaceNum-item.mPeopleNameVector.length) (text ", \"\"")
  (appendEach tmpSize insertCmd people).bind fun insertCmd =>
    (appendEach tmpSize insertCmd empties).bind fun insertCmd => strcat sqlCmdMaxLen insertCmd (text ");")

def queryCmd (startTime endTime : Int64) (peopleName : Text) : Option Text :=
  let queryCmd := snprintf sqlCmdMaxLen (text "select * from " ++ mysqlFacerecTabname ++ text " where " ++
    attrTimestamp ++ text ">=" ++ printInt startTime.toInt ++ text " and " ++ attrTimestamp ++ text "<=" ++
    printInt endTime.toInt ++ text " and (")
  let choices := (List.range (Db.maxFaceNum-1)).map fun (i : Nat) =>
    attrPeoplename ++ printInt i ++ text "=\"" ++ cString peopleName ++ text "\" or "
  let last := attrPeoplename ++ printInt (Db.maxFaceNum-1 : Nat) ++ text "=\"" ++ cString peopleName ++ text "\");"
  appendEach tmpSize queryCmd (choices ++ [last])

end Commands

def atol (string : Text) : Int :=
  match scanNumber string with
  | some (value,_) => strtol value
  | none => 0

/-- One turn of the loop of `query` over the rows. -/
def readItem (row : List Text) : Option DbItem :=
  match row with
  | timestamp :: cameraIp :: cameraName :: people =>
    if people.length < Db.maxFaceNum then none
    else some {
      mTimestamp := Int64.ofInt (atol timestamp)
      mCameraIp := (Int64.ofInt (atol cameraIp)).toUInt64
      mCameraName := cString cameraName
      mPeopleNameVector := ((people.take Db.maxFaceNum).map cString).filter fun name => name.length ≠ 0 }
  | _ => none

namespace Engine

variable (engine : Engine) (db : Option Table)

/-- `login` behind the connection. -/
def login : Option (Int × Option Table) :=
  createCmd.map fun command =>
    match engine.exec db command with
    | none => (-5,db)
    | some (after,_) => (0,after)

/-- `insert` of a caller that has the connection. -/
def insertItem (item : DbItem) : Option (Int × Option Table) :=
  if Db.maxFaceNum < item.mPeopleNameVector.length then some (-1,db)
  else (insertCmd item).map fun command =>
    match engine.exec db command with
    | none => (-3,db)
    | some (after,_) => (0,after)

/-- `query` of a caller that has the connection. -/
def query (startTime endTime : Int64) (peopleName : Text) (dbItemList : List DbItem) : Option (Int × List DbItem) :=
  match queryCmd startTime endTime peopleName with
  | none => none
  | some command =>
    match engine.exec db command with
    | none => some (-2,dbItemList)
    | some (_,rows) => (rows.mapM readItem).map fun items => (0,items)

/-- The table is one that `login` makes, whatever rows it has by now. -/
def Made : Prop := ∃ made table, engine.login none = some (0,some made) ∧ db = some table ∧ table.columns = made.columns

/-- Every command is inside its buffers, and a query for a name of the item returns it. -/
def RoundTrips (item : DbItem) : Prop :=
  ∃ ret after, engine.insertItem db item = some (ret,after) ∧
    ∀ peopleName ∈ item.mPeopleNameVector, ∀ startTime endTime : Int64, startTime ≤ item.mTimestamp →
      item.mTimestamp ≤ endTime → ∀ dbItemList, ∃ items,
        engine.query after startTime endTime peopleName dbItemList = some (0,items) ∧ item ∈ items

end Engine

/-- The name of the camera, where `captureHdl` reads one from the data of a request. -/
def readCameraName (reqData : Text) : Option Text :=
  match getFilename reqData with
  | some (.ok (filename,_)) =>
    if 0 ∉ filename then none
    else match getParamFromFilename (cString filename) with
      | some (.ok params) => some params.cameraName
      | _ => none
  | _ => none

def Accepted (cameraName : Text) : Prop := ∃ req : CaptureRequest.Request, readCameraName req.reqData = some cameraName

/-- An item of a capture, with the names of known faces. -/
structure Record where
  item : DbItem
  accepted : Accepted item.mCameraName
  noBackslash : 92 ∉ item.mCameraName
  atMost : item.mPeopleNameVector.length ≤ Db.maxFaceNum
  named : ∀ name ∈ item.mPeopleNameVector, name ≠ [] ∧ name.length < maxPeopleNameLen ∧ Literal name ∧
    name.getLast? ≠ some 32

section Buffers

variable {tmpSize : Nat} {command : Text} {pieces : List Text}

theorem length_front {front rest : Text} {size : Nat} (whole : (front ++ rest).length < size) : front.length < size := by
  rw [List.length_append] at whole
  exact Nat.lt_of_le_of_lt (Nat.le_add_right _ _) whole

theorem appendEach_fits (each : ∀ piece ∈ pieces, piece.length < tmpSize)
    (all : (command ++ pieces.flatten).length < sqlCmdMaxLen) :
    appendEach tmpSize command pieces = some (command ++ pieces.flatten) := by
  induction pieces generalizing command with
  | nil => rw [appendEach,List.flatten_nil,List.append_nil]
  | cons piece pieces ih =>
    rw [List.flatten_cons,← List.append_assoc] at all ⊢
    rw [appendEach,sprintf,if_pos (each piece List.mem_cons_self)]
    dsimp only
    rw [strcat,if_pos (length_front all)]
    exact ih (fun other among => each other (List.mem_cons_of_mem _ among)) all

theorem strcat_some {size : Nat} {dest src after : Text} (appended : strcat size dest src = some after) :
    after = dest ++ src := by
  rw [strcat] at appended
  split at appended
  · exact (Option.some.inj appended).symm
  · cases appended

theorem appendEach_some {after : Text} (appended : appendEach tmpSize command pieces = some after) :
    after = command ++ pieces.flatten := by
  induction pieces generalizing command with
  | nil =>
    rw [List.flatten_nil,List.append_nil]
    exact (Option.some.inj appended).symm
  | cons piece pieces ih =>
    rw [appendEach] at appended
    split at appended
    · cases appended
    · rename_i tmp printed
      split at appended
      · cases appended
      · rename_i longer put
        have whole : tmp = piece := by
          rw [sprintf] at printed
          split at printed
          · exact (Option.some.inj printed).symm
          · cases printed
        rw [ih appended,strcat_some put,whole,List.flatten_cons,List.append_assoc]

theorem snprintf_fits {size : Nat} {printed : Text} (fits : printed.length < size) : snprintf size printed = printed :=
  List.take_of_length_le (Nat.le_sub_one_of_lt fits)

end Buffers

theorem createCmd_text : createCmd = some (createText faceColumns) := by
  decide +kernel

section Accepted

theorem getParamFromFilename_cameraName {filename : Text} {params : Params}
    (read : getParamFromFilename filename = some (.ok params)) :
    params.cameraName <:+: filename ∧ ∀ char ∈ params.cameraName, isSpace char = false := by
  have word := @sscanf_word filename reqFilenameFormat 4
  rw [getParamFromFilename] at read
  split at read
  rename_i cnt values scanned
  rw [scanned] at word
  dsimp only at read word
  split at read
  · cases read
  split at read
  · cases read
  split at read
  · cases Option.some.inj read
  · obtain rfl := Except.ok.inj (Option.some.inj read)
    exact ⟨(List.take_prefix _ _).isInfix.trans word.1,fun char among => word.2 char (List.mem_of_mem_take among)⟩

theorem getFilename_plain {reqData filename : Text} {binStartPos : Int}
    (read : getFilename reqData = some (.ok (filename,binStartPos))) :
    (cString filename).length ≤ maxFilenameLen ∧ 34 ∉ cString filename ∧ 0 ∉ cString filename := by
  have ends : 0 ∉ cString filename := by
    intro zero
    have passed := List.mem_takeWhile_imp zero
    exact of_decide_eq_true passed rfl
  rw [getFilename] at read
  split at read
  · cases read
  dsimp only at read
  split at read
  · cases read
  · cases read
  rename_i pFilenameEnd closed
  split at read
  · cases read
  obtain ⟨cnt,_,same⟩ := Option.map_eq_some_iff.mp read
  obtain ⟨rfl,_⟩ := Prod.mk.inj (Except.ok.inj same)
  refine ⟨?_,fun quoted => ?_,ends⟩
  · refine (List.takeWhile_prefix _).length_le.trans ?_
    rw [Lib.Layout.padded,List.length_take]
    exact Nat.min_le_left _ _
  · have among := (List.takeWhile_prefix _).subset quoted
    rw [Lib.Layout.padded] at among
    rcases List.mem_append.mp (List.mem_of_mem_take among) with name | zero
    · exact ((strchr_closed closed).2.1 34 name).1 rfl
    · exact absurd (List.eq_of_mem_replicate zero) (by decide)

variable {cameraName : Text}

theorem Accepted.plain (accepted : Accepted cameraName) :
    cameraName.length ≤ maxFilenameLen ∧ 34 ∉ cameraName ∧ 0 ∉ cameraName ∧ cameraName.getLast? ≠ some 32 := by
  obtain ⟨req,given⟩ := accepted
  rw [readCameraName] at given
  split at given
  case h_2 => cases given
  rename_i filename binStartPos named
  split at given
  · cases given
  split at given
  case h_2 => cases given
  rename_i params read
  obtain rfl := Option.some.inj given
  obtain ⟨short,quoted,ends⟩ := getFilename_plain named
  obtain ⟨part,visible⟩ := getParamFromFilename_cameraName read
  refine ⟨part.length_le.trans short,fun among => quoted (part.subset among),fun among => ends (part.subset among),?_⟩
  intro blank
  exact absurd (visible 32 (List.mem_of_getLast? blank)) (by decide)

end Accepted

section Assembled

theorem printLong_length (value : Int64) : (printInt value.toInt).length ≤ 20 := by
  have low := value.le_toInt
  have high := value.toInt_lt
  exact printInt_length_le (by decide) (by omega)

theorem flatten_length_le {pieces : List Text} {most : Nat} (each : ∀ piece ∈ pieces, piece.length ≤ most) :
    pieces.flatten.length ≤ pieces.length*most := by
  induction pieces with
  | nil => exact Nat.zero_le _
  | cons piece pieces ih =>
    have first := each piece List.mem_cons_self
    have rest := ih fun other among => each other (List.mem_cons_of_mem _ among)
    rw [List.flatten_cons,List.length_append,List.length_cons,Nat.succ_mul]
    omega

namespace Record

variable (record : Record)

/-- The strings of a row: the camera's name, the people, and the slots that are left. -/
def strings : List Text :=
  record.item.mCameraName :: (record.item.mPeopleNameVector ++
    List.replicate (Db.maxFaceNum-record.item.mPeopleNameVector.length) [])

def insertText : Text :=
  Records.insertText record.item.mTimestamp.toInt record.item.mCameraIp.toInt64.toInt record.strings

theorem literal : ∀ string ∈ record.strings, Literal string := by
  obtain ⟨_,quoted,ends,_⟩ := record.accepted.plain
  intro string among
  rcases List.mem_cons.mp among with rfl | among
  · exact ⟨quoted,record.noBackslash,ends⟩
  rcases List.mem_append.mp among with named | empty
  · exact (record.named string named).2.2.1
  · rw [List.eq_of_mem_replicate empty]
    decide

def insertFront : Text :=
  text "insert into " ++ mysqlFacerecTabname ++ text " values(" ++ printInt record.item.mTimestamp.toInt ++
    text ", " ++ printInt record.item.mCameraIp.toInt64.toInt ++ quotedText record.item.mCameraName

theorem insertFront_length : record.insertFront.length ≤ 81+record.item.mCameraName.length := by
  have front : (text "insert into " ++ mysqlFacerecTabname ++ text " values(").length = 35 := by decide
  have comma : (text ", ").length = 2 := by decide
  have quotes : (text ", \"").length = 3 ∧ (text "\"").length = 1 := by decide
  have timestamp := printLong_length record.item.mTimestamp
  have cameraIp := printLong_length record.item.mCameraIp.toInt64
  rw [insertFront,quotedText]
  simp only [List.length_append,comma,quotes] at front ⊢
  omega

theorem insertCmd_parts : insertCmd record.item =
    (appendEach tmpSize record.insertFront (record.item.mPeopleNameVector.map quotedText)).bind fun insertCmd =>
      (appendEach tmpSize insertCmd (List.replicate (Db.maxFaceNum-record.item.mPeopleNameVector.length)
        (quotedText []))).bind fun insertCmd => strcat sqlCmdMaxLen insertCmd (text ");") := by
  obtain ⟨short,_,ends,_⟩ := record.accepted.plain
  have people : (record.item.mPeopleNameVector.map fun name => text ", \"" ++ cString name ++ text "\"") =
      record.item.mPeopleNameVector.map quotedText := by
    apply List.map_congr_left
    intro name among
    rw [cString_plain (record.named name among).2.2.1.2.2,quotedText]
  have empty : text ", \"\"" = quotedText [] := by decide
  have front : text "insert into " ++ mysqlFacerecTabname ++ text " values(" ++
      printInt record.item.mTimestamp.toInt ++ text ", " ++ printInt record.item.mCameraIp.toInt64.toInt ++
      text ", \"" ++ cString record.item.mCameraName ++ text "\"" = record.insertFront := by
    rw [cString_plain ends,insertFront,quotedText]
    simp only [List.append_assoc]
  have fits : record.insertFront.length < sqlCmdMaxLen := by
    have length := record.insertFront_length
    rw [maxFilenameLen] at short
    rw [sqlCmdMaxLen]
    omega
  rw [insertCmd,people,empty,front,snprintf_fits fits]

theorem insertText_parts : record.insertText =
    record.insertFront ++ (record.item.mPeopleNameVector.map quotedText).flatten ++
      (List.replicate (Db.maxFaceNum-record.item.mPeopleNameVector.length) (quotedText [])).flatten ++ text ");" := by
  simp [insertText,Records.insertText,insertFront,strings,List.flatMap_def]

theorem insertCmd_text {command : Text} (assembled : insertCmd record.item = some command) :
    command = record.insertText := by
  rw [insertCmd_parts] at assembled
  obtain ⟨named,people,assembled⟩ := Option.bind_eq_some_iff.mp assembled
  obtain ⟨full,empties,assembled⟩ := Option.bind_eq_some_iff.mp assembled
  rw [strcat_some assembled,appendEach_some empties,appendEach_some people,insertText_parts]

theorem quotedText_length (string : Text) : (quotedText string).length = string.length+4 := by
  simp [quotedText,text]

theorem insertCmd_fits (room : record.item.mCameraName.length+record.item.mPeopleNameVector.length*31 ≤ 312) :
    insertCmd record.item = some record.insertText := by
  have front := record.insertFront_length
  have names : ∀ name ∈ record.item.mPeopleNameVector, name.length ≤ 31 := fun name among =>
    Nat.le_of_lt_succ (record.named name among).2.1
  have each : ∀ piece ∈ record.item.mPeopleNameVector.map quotedText, piece.length ≤ 35 := by
    intro piece among
    obtain ⟨name,member,rfl⟩ := List.mem_map.mp among
    rw [quotedText_length]
    exact Nat.add_le_add_right (names name member) 4
  have slots : ∀ piece ∈ List.replicate (Db.maxFaceNum-record.item.mPeopleNameVector.length) (quotedText []),
      piece.length ≤ 4 := by
    intro piece among
    rw [List.eq_of_mem_replicate among,quotedText_length]
    rfl
  have people := flatten_length_le each
  have empties := flatten_length_le slots
  have most := record.atMost
  have tail : (text ");").length = 2 := by decide
  rw [List.length_map] at people
  rw [List.length_replicate] at empties
  have whole : (record.insertFront ++ (record.item.mPeopleNameVector.map quotedText).flatten ++
      (List.replicate (Db.maxFaceNum-record.item.mPeopleNameVector.length) (quotedText [])).flatten ++
      text ");").length < sqlCmdMaxLen := by
    rw [Db.maxFaceNum] at most empties ⊢
    rw [sqlCmdMaxLen,List.length_append,List.length_append,List.length_append,tail]
    omega
  have before := length_front whole
  have first := length_front before
  rw [insertCmd_parts,appendEach_fits (fun piece among => Nat.lt_of_le_of_lt (each piece among) (by decide)) first,
    Option.bind_some,appendEach_fits (fun piece among => Nat.lt_of_le_of_lt (slots piece among) (by decide)) before,
    Option.bind_some,strcat,if_pos whole,insertText_parts]

end Record

theorem intercalate_concat (sep last : Text) (pieces : List Text) :
    sep.intercalate (pieces ++ [last]) = (pieces.map (· ++ sep)).flatten ++ last := by
  induction pieces with
  | nil => simp [List.intercalate]
  | cons piece pieces ih =>
    cases pieces with
    | nil => simp [List.intercalate]
    | cons next pieces =>
      rw [List.map_cons,List.flatten_cons,List.append_assoc,List.append_assoc,← ih]
      simp [List.intercalate]

section Query

variable (startTime endTime : Int64) (peopleName : Text)

def queryFront : Text :=
  text "select * from " ++ mysqlFacerecTabname ++ text " where " ++ attrTimestamp ++ text ">=" ++
    printInt startTime.toInt ++ text " and " ++ attrTimestamp ++ text "<=" ++ printInt endTime.toInt ++ text " and ("

/-- What is printed to `tmp`. -/
def queryPieces : List Text :=
  ((List.range (Db.maxFaceNum-1)).map fun (i : Nat) => choiceText (peopleAttr i,peopleName) ++ text " or ") ++
    [choiceText (peopleAttr (Db.maxFaceNum-1),peopleName) ++ text ");"]

theorem selectText_parts : selectText (peopleWhere startTime.toInt endTime.toInt peopleName) =
    queryFront startTime endTime ++ (queryPieces peopleName).flatten := by
  have slots : List.range Db.maxFaceNum = List.range (Db.maxFaceNum-1) ++ [Db.maxFaceNum-1] := List.range_succ
  have close : text ");" = text ")" ++ text ";" := by decide
  have chosen : (peopleWhere startTime.toInt endTime.toInt peopleName).choices.map choiceText =
      ((List.range (Db.maxFaceNum-1)).map fun (i : Nat) => choiceText (peopleAttr i,peopleName)) ++
        [choiceText (peopleAttr (Db.maxFaceNum-1),peopleName)] := by
    rw [peopleWhere,List.map_map,slots,List.map_append]
    rfl
  rw [selectText,Where.text,chosen,intercalate_concat,List.map_map,queryPieces,List.flatten_append,
    List.flatten_singleton,close]
  simp only [queryFront,peopleWhere,List.append_assoc]
  rfl

variable {peopleName}

theorem queryPieces_length (short : peopleName.length < maxPeopleNameLen) :
    ∀ piece ∈ queryPieces peopleName, piece.length ≤ 49 := by
  have attr : ∀ i ∈ List.range Db.maxFaceNum, (peopleAttr i).length = 11 := by decide
  have quotes : (text "=\"").length = 2 ∧ (text "\"").length = 1 := by decide
  have ends : (text " or ").length = 4 ∧ (text ");").length = 2 := by decide
  have choice : ∀ i ∈ List.range Db.maxFaceNum, (choiceText (peopleAttr i,peopleName)).length ≤ 45 := by
    intro i inside
    rw [maxPeopleNameLen] at short
    simp only [choiceText,List.length_append,attr i inside,quotes]
    omega
  intro piece among
  rcases List.mem_append.mp among with before | last
  · obtain ⟨i,inside,rfl⟩ := List.mem_map.mp before
    have size := choice i (List.mem_range.mpr (Nat.lt_of_lt_of_le (List.mem_range.mp inside) (Nat.sub_le _ _)))
    rw [List.length_append,ends.1]
    omega
  · have size := choice (Db.maxFaceNum-1) (by decide)
    rw [List.mem_singleton.mp last,List.length_append,ends.2]
    omega

theorem queryFront_length : (queryFront startTime endTime).length ≤ 109 := by
  have start := printLong_length startTime
  have stop := printLong_length endTime
  have fixed : (text "select * from " ++ mysqlFacerecTabname ++ text " where " ++ attrTimestamp ++
    text ">=").length = 47 := by decide
  have middle : (text " and " ++ attrTimestamp ++ text "<=").length = 16 := by decide
  have last : (text " and (").length = 6 := by decide
  simp only [queryFront,List.length_append] at fixed middle ⊢
  omega

theorem queryCmd_text (literal : Literal peopleName) (short : peopleName.length < maxPeopleNameLen) :
    queryCmd startTime endTime peopleName =
      some (selectText (peopleWhere startTime.toInt endTime.toInt peopleName)) := by
  have front := queryFront_length startTime endTime
  have each := queryPieces_length short
  have all := flatten_length_le each
  have count : (queryPieces peopleName).length = 8 := by simp [queryPieces,Db.maxFaceNum]
  have ors : text "\" or " = text "\"" ++ text " or " := by decide
  have close : text "\");" = text "\"" ++ text ");" := by decide
  have assembled : queryCmd startTime endTime peopleName =
      appendEach tmpSize (snprintf sqlCmdMaxLen (queryFront startTime endTime)) (queryPieces peopleName) := by
    rw [queryCmd,cString_plain literal.2.2,ors,close]
    simp only [queryPieces,choiceText,peopleAttr,← List.append_assoc]
    rfl
  rw [count] at all
  have whole : (queryFront startTime endTime ++ (queryPieces peopleName).flatten).length < sqlCmdMaxLen := by
    rw [List.length_append,sqlCmdMaxLen]
    omega
  rw [assembled,snprintf_fits (length_front whole),selectText_parts,
    appendEach_fits (fun piece among => Nat.lt_of_le_of_lt (each piece among) (by decide)) whole]

end Query

end Assembled

section Read

theorem atol_printInt {value : Int} (low : -2^63 ≤ value) (high : value < 2^63) : atol (printInt value) = value := by
  have scanned := @scanNumber_printInt value [] fun _ none => by cases none
  rw [List.append_nil] at scanned
  rw [atol,scanned]
  dsimp only
  rw [strtol]
  omega

theorem readItem_values (record : Record) :
    readItem ((insertValues record.item.mTimestamp.toInt record.item.mCameraIp.toInt64.toInt record.strings).map shown) =
      some record.item := by
  obtain ⟨_,_,ends,_⟩ := record.accepted.plain
  have most := record.atMost
  have strings : (record.strings.map SqlValue.string).map shown = record.strings := by
    rw [List.map_map]
    exact List.map_id _
  have count : (record.item.mPeopleNameVector ++
      List.replicate (Db.maxFaceNum-record.item.mPeopleNameVector.length) []).length = Db.maxFaceNum := by
    rw [List.length_append,List.length_replicate]
    omega
  have names : record.item.mPeopleNameVector.map cString = record.item.mPeopleNameVector := by
    refine (List.map_congr_left fun name among => ?_).trans (List.map_id _)
    exact cString_plain (record.named name among).2.2.1.2.2
  have kept : record.item.mPeopleNameVector.filter (fun name => decide (name.length ≠ 0)) =
      record.item.mPeopleNameVector :=
    List.filter_eq_self.mpr fun name among => by simpa using (record.named name among).1
  have timestamp := atol_printInt record.item.mTimestamp.le_toInt record.item.mTimestamp.toInt_lt
  have cameraIp := atol_printInt record.item.mCameraIp.toInt64.le_toInt record.item.mCameraIp.toInt64.toInt_lt
  rw [insertValues,List.map_cons,List.map_cons,strings,Record.strings,readItem,
    if_neg (Nat.not_lt.mpr (Nat.le_of_eq count.symm)),shown,shown,timestamp,cameraIp,Int64.ofInt_toInt,
    Int64.ofInt_toInt,cString_plain ends,List.take_of_length_le (Nat.le_of_eq count),List.map_append,names,
    List.filter_append,kept]
  simp [cString]

variable {row : List SqlValue}

theorem readItem_typed (typed : List.Forall₂ (fun column value => column.type.Holds value) faceColumns row) :
    ∃ item, readItem (row.map shown) = some item ∧ item.mCameraName.length ≤ maxCameraNameLen := by
  cases typed with
  | cons _ typed => cases typed with
    | cons _ typed => cases typed with
      | @cons _ cameraName _ people camera others =>
        have count : (people.map shown).length = Db.maxFaceNum := by
          rw [List.length_map,← others.length_eq]
          rfl
        rw [List.map_cons,List.map_cons,List.map_cons,readItem,if_neg (Nat.not_lt.mpr (Nat.le_of_eq count.symm))]
        refine ⟨_,rfl,?_⟩
        cases cameraName with
        | number value => cases camera
        | string string => exact (List.takeWhile_prefix _).length_le.trans camera

theorem mapM_readItem {rows : List (List SqlValue)}
    (typed : ∀ row ∈ rows, List.Forall₂ (fun column value => column.type.Holds value) faceColumns row) :
    ∃ items, (rows.map fun row => row.map shown).mapM readItem = some items ∧
      (∀ item ∈ items, item.mCameraName.length ≤ maxCameraNameLen) ∧
      ∀ row ∈ rows, ∀ item, readItem (row.map shown) = some item → item ∈ items := by
  induction rows with
  | nil => exact ⟨[],rfl,List.forall_mem_nil _,List.forall_mem_nil _⟩
  | cons row rows ih =>
    obtain ⟨first,read,short⟩ := readItem_typed (typed row List.mem_cons_self)
    obtain ⟨items,rest,shorts,all⟩ := ih fun other among => typed other (List.mem_cons_of_mem _ among)
    refine ⟨first :: items,?_,List.forall_mem_cons.mpr ⟨short,shorts⟩,?_⟩
    · rw [List.map_cons,List.mapM_cons,read,rest]
      rfl
    · intro other among item same
      rcases List.mem_cons.mp among with rfl | among
      · obtain rfl := Option.some.inj (read.symm.trans same)
        exact List.mem_cons_self
      · exact List.mem_cons_of_mem _ (all other among item same)

end Read

section Found

variable (record : Record)

def Record.values : List SqlValue :=
  insertValues record.item.mTimestamp.toInt record.item.mCameraIp.toInt64.toInt record.strings

theorem strings_length : record.strings.length = Db.maxFaceNum+1 := by
  have most := record.atMost
  rw [Record.strings,List.length_cons,List.length_append,List.length_replicate]
  omega

theorem values_fit (short : record.item.mCameraName.length ≤ maxCameraNameLen) :
    List.Forall₂ (fun column value => column.type.Holds value ∧ Trimmed value) faceColumns record.values := by
  obtain ⟨_,_,_,trimmed⟩ := record.accepted.plain
  refine .cons ⟨⟨Int64.le_toInt _,Int64.toInt_lt _⟩,trivial⟩ (.cons ⟨⟨Int64.le_toInt _,Int64.toInt_lt _⟩,trivial⟩
    (.cons ⟨short,trimmed⟩ ?_))
  refine List.forall₂_iff_zip.mpr ⟨?_,fun {column value} both => ?_⟩
  · have length := strings_length record
    rw [Record.strings,List.length_cons] at length
    rw [List.length_map,Nat.succ.inj length]
    rfl
  · obtain ⟨among,member⟩ := List.of_mem_zip both
    obtain ⟨i,_,rfl⟩ := List.mem_map.mp among
    obtain ⟨string,named,rfl⟩ := List.mem_map.mp member
    rcases List.mem_append.mp named with name | empty
    · obtain ⟨_,less,_,ends⟩ := record.named string name
      exact ⟨Nat.le_of_lt less,ends⟩
    · rw [List.eq_of_mem_replicate empty]
      exact ⟨Nat.zero_le _,fun none => by cases none⟩

theorem peopleWhere_holds {equal : Text → Text → Bool} (equal_refl : ∀ string, equal string string = true)
    {startTime endTime : Int64} {peopleName : Text} (named : peopleName ∈ record.item.mPeopleNameVector)
    (start : startTime ≤ record.item.mTimestamp) (stop : record.item.mTimestamp ≤ endTime) :
    (peopleWhere startTime.toInt endTime.toInt peopleName).holds equal faceColumns record.values = true := by
  have timestamp : valueOf faceColumns attrTimestamp record.values = some (.number record.item.mTimestamp.toInt) :=
    @valueOf_column faceColumns record.values ⟨attrTimestamp,.bigint⟩ _ 0 faceColumns_names rfl rfl
  obtain ⟨i,inside,here⟩ := List.getElem_of_mem named
  have slot : i < Db.maxFaceNum := Nat.lt_of_lt_of_le inside record.atMost
  have people : valueOf faceColumns (peopleAttr i) record.values = some (.string peopleName) := by
    refine @valueOf_column faceColumns record.values ⟨peopleAttr i,.char maxPeopleNameLen⟩ _ (i+3) faceColumns_names ?_ ?_
    · change ((List.range Db.maxFaceNum).map fun i => (⟨peopleAttr i,.char maxPeopleNameLen⟩ : Column))[i]? = _
      rw [List.getElem?_map,List.getElem?_range slot,Option.map_some]
    · change ((record.item.mPeopleNameVector ++
        List.replicate (Db.maxFaceNum-record.item.mPeopleNameVector.length) []).map SqlValue.string)[i]? = _
      rw [List.getElem?_map,List.getElem?_append_left inside,List.getElem?_eq_getElem inside,here,Option.map_some]
  rw [Where.holds,Bool.and_eq_true]
  constructor
  · change Where.inRange _ (valueOf faceColumns attrTimestamp record.values) = true
    rw [timestamp]
    exact decide_eq_true ⟨Int64.le_iff_toInt_le.mp start,Int64.le_iff_toInt_le.mp stop⟩
  · rw [List.any_eq_true]
    refine ⟨(peopleAttr i,peopleName),List.mem_map_of_mem (List.mem_range.mpr slot),?_⟩
    dsimp only
    rw [people]
    exact equal_refl peopleName

end Found

variable {engine : Engine} {db : Option Table}

theorem Engine.Made.columns (made : engine.Made db) : ∃ table, db = some table ∧ table.columns = faceColumns := by
  obtain ⟨first,table,logged,rfl,same⟩ := made
  rw [Engine.login,createCmd_text,Option.map_some,engine.create] at logged
  obtain rfl := Option.some.inj (Prod.mk.inj (Option.some.inj logged)).2
  exact ⟨table,rfl,same⟩

theorem Record.exec_insert (record : Record) (table : Table) : engine.exec (some table) record.insertText =
    (table.insert engine.storage record.values).map fun after => (some after,[]) :=
  engine.insert table _ _ record.strings record.literal

section Query

variable {table : Table} {startTime endTime : Int64} {peopleName : Text} (dbItemList : List DbItem)

/-- What a query reads are the rows it selects, and none has a longer camera name than its column. -/
theorem Engine.query_reads (columns : table.columns = faceColumns) (literal : Literal peopleName)
    (short : peopleName.length < maxPeopleNameLen) :
    ∃ items, engine.query (some table) startTime endTime peopleName dbItemList = some (0,items) ∧
      (∀ item ∈ items, item.mCameraName.length ≤ maxCameraNameLen) ∧
      ∀ row ∈ table.rows,
        (peopleWhere startTime.toInt endTime.toInt peopleName).holds engine.equal faceColumns row = true →
        ∀ item, readItem (row.map shown) = some item → item ∈ items := by
  have typed : ∀ row ∈ table.select engine.equal (peopleWhere startTime.toInt endTime.toInt peopleName),
      List.Forall₂ (fun column value => column.type.Holds value) faceColumns row := by
    intro row among
    exact columns ▸ table.typed row (List.mem_of_mem_filter among)
  obtain ⟨items,read,shorts,all⟩ := mapM_readItem typed
  refine ⟨items,?_,shorts,fun row among holds => all row (List.mem_filter.mpr ⟨among,?_⟩)⟩
  · rw [Engine.query,queryCmd_text startTime endTime literal short]
    dsimp only
    rw [engine.select _ _ _ _ literal]
    dsimp only
    rw [read,Option.map_some]
  · rw [columns]
    exact holds

end Query

theorem roundTrips_of_short (made : engine.Made db) (record : Record)
    (short : record.item.mCameraName.length ≤ maxCameraNameLen) : engine.RoundTrips db record.item := by
  obtain ⟨table,rfl,columns⟩ := made.columns
  have most := record.atMost
  have assembled : insertCmd record.item = some record.insertText := by
    refine record.insertCmd_fits ?_
    rw [maxCameraNameLen] at short
    rw [Db.maxFaceNum] at most
    omega
  obtain ⟨after,inserted,among⟩ := @Table.insert_keeps engine.storage table record.values (columns ▸ values_fit record short)
  have kept := (Table.insert_columns inserted).trans columns
  refine ⟨0,some after,?_,fun peopleName named startTime endTime start stop dbItemList => ?_⟩
  · rw [Engine.insertItem,if_neg (Nat.not_lt.mpr most),assembled,Option.map_some,record.exec_insert,inserted]
    rfl
  · obtain ⟨_,less,literal,_⟩ := record.named peopleName named
    obtain ⟨items,read,_,all⟩ := engine.query_reads dbItemList kept literal less
    exact ⟨items,read,all _ among (peopleWhere_holds record engine.equal_refl named start stop) _ (readItem_values record)⟩

theorem insertItem_columns (made : engine.Made db) (record : Record) {ret : Int} {after : Option Table}
    (inserted : engine.insertItem db record.item = some (ret,after)) :
    ∃ table, after = some table ∧ table.columns = faceColumns := by
  obtain ⟨table,rfl,columns⟩ := made.columns
  rw [Engine.insertItem,if_neg (Nat.not_lt.mpr record.atMost)] at inserted
  obtain ⟨command,assembled,result⟩ := Option.map_eq_some_iff.mp inserted
  rw [record.insertCmd_text assembled,record.exec_insert] at result
  cases put : table.insert engine.storage record.values with
  | none =>
    rw [put] at result
    obtain ⟨_,rfl⟩ := Prod.mk.inj result
    exact ⟨table,rfl,columns⟩
  | some other =>
    rw [put] at result
    obtain ⟨_,rfl⟩ := Prod.mk.inj result
    exact ⟨other,rfl,(Table.insert_columns put).trans columns⟩

theorem roundTrips_unnamed (record : Record) (unnamed : record.item.mPeopleNameVector = []) :
    engine.RoundTrips db record.item := by
  have short := record.accepted.plain.1
  have assembled : insertCmd record.item = some record.insertText := by
    refine record.insertCmd_fits ?_
    rw [maxFilenameLen] at short
    rw [unnamed,List.length_nil]
    omega
  have inserted : ∃ result, engine.insertItem db record.item = some result := by
    rw [Engine.insertItem,if_neg (Nat.not_lt.mpr record.atMost),assembled]
    exact ⟨_,rfl⟩
  obtain ⟨⟨ret,after⟩,inserted⟩ := inserted
  refine ⟨ret,after,inserted,fun peopleName named => ?_⟩
  rw [unnamed] at named
  cases named

/-- What a query returns has a camera name that its column holds. -/
theorem short_of_roundTrips (made : engine.Made db) (record : Record) (named : record.item.mPeopleNameVector ≠ [])
    (roundTrips : engine.RoundTrips db record.item) : record.item.mCameraName.length ≤ maxCameraNameLen := by
  obtain ⟨ret,after,inserted,found⟩ := roundTrips
  obtain ⟨table,rfl,columns⟩ := insertItem_columns made record inserted
  obtain ⟨peopleName,among⟩ := List.exists_mem_of_ne_nil _ named
  obtain ⟨_,less,literal,_⟩ := record.named peopleName among
  obtain ⟨items,read,member⟩ := found peopleName among record.item.mTimestamp record.item.mTimestamp
    (Int64.le_refl _) (Int64.le_refl _) []
  obtain ⟨_,same,shorts,_⟩ := engine.query_reads [] columns literal less
  rw [read] at same
  obtain ⟨_,rfl⟩ := Prod.mk.inj (Option.some.inj same)
  exact shorts _ member

/-- The column of the camera's name has to be wide enough, unless there is no name to ask for. -/
theorem roundTrips_iff (made : engine.Made db) (record : Record) : engine.RoundTrips db record.item ↔
    record.item.mPeopleNameVector = [] ∨ record.item.mCameraName.length ≤ maxCameraNameLen := by
  constructor
  · intro roundTrips
    by_cases unnamed : record.item.mPeopleNameVector = []
    · exact Or.inl unnamed
    · exact Or.inr (short_of_roundTrips made record unnamed roundTrips)
  · rintro (unnamed | short)
    · exact roundTrips_unnamed record unnamed
    · exact roundTrips_of_short made record short

section Cameras

/-- The body of a request with the name of a camera. -/
def bodyOf (cameraName : Text) : Text := text "filename=\"0_w0_h0_l0_n" ++ cameraName ++ text ".jpg\""

theorem made_empty (engine : Engine) : engine.Made (some (.empty faceColumns)) := by
  refine ⟨.empty faceColumns,.empty faceColumns,?_,rfl,rfl⟩
  rw [Engine.login,createCmd_text,Option.map_some,engine.create]
  rfl

def door : Record where
  item := ⟨1500,16777343,text "door",[text "eric"]⟩
  accepted := ⟨⟨bodyOf (text "door"),by decide⟩,by decide +kernel⟩
  noBackslash := by decide
  atMost := by decide
  named := by decide

theorem roundTrips_door : strictEngine.RoundTrips (some (.empty faceColumns)) door.item :=
  (roundTrips_iff (made_empty strictEngine) door).mpr (Or.inr (by decide))

/-- One character more than the column has. -/
def longCamera : Record where
  item := ⟨1500,16777343,List.replicate 65 99,[text "eric"]⟩
  accepted := ⟨⟨bodyOf (List.replicate 65 99),by decide⟩,by decide +kernel⟩
  noBackslash := by decide
  atMost := by decide
  named := by decide

/-- A command of 525 characters. -/
def crowded : Record where
  item := ⟨1,1,List.replicate 200 99,List.replicate 8 (List.replicate 31 110)⟩
  accepted := ⟨⟨bodyOf (List.replicate 200 99),by decide +kernel⟩,by decide +kernel⟩
  noBackslash := by decide
  atMost := by decide
  named := by decide

/-- The row of the first is not there, and the command of the second does not fit. -/
theorem longCamera_lost : ¬strictEngine.RoundTrips (some (.empty faceColumns)) longCamera.item ∧
    insertCmd crowded.item = none := by
  refine ⟨fun roundTrips => ?_,by decide +kernel⟩
  have short := short_of_roundTrips (made_empty strictEngine) longCamera (by decide) roundTrips
  exact absurd short (by decide)

end Cameras

end MoCodes.MoFaceRec.Records
