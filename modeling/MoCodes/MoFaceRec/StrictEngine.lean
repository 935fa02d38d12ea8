import MoCodes.MoFaceRec.SqlTable
import Mathlib.Data.List.DropRight

/-! An engine in strict mode: it reads the commands of db.cpp back from their text, and refuses a string
that is longer than its column. -/
namespace MoCodes.MoFaceRec.Records
open MoCloud MoCloud.Server

def strictStore : ColumnType → SqlValue → Option SqlValue
  | .bigint,.number value => if -2^63 ≤ value ∧ value < 2^63 then some (.number value) else none
  | .char width,.string string =>
    -- a CHAR column drops the spaces at the end
    let string := string.rdropWhile (· = 32)
    if string.length ≤ width then some (.string string) else none
  | _,_ => none

def strict : Storage where
  store := strictStore
  keeps := by
    intro type value fits trimmed
    match type,value with
    | .bigint,.number value => exact if_pos fits
    | .bigint,.string _ => exact fits.elim
    | .char _,.number _ => exact fits.elim
    | .char width,.string string =>
      have kept : string.rdropWhile (· = 32) = string := by
        rw [List.rdropWhile_eq_self_iff]
        intro some blank
        exact trimmed (List.getLast?_eq_some_getLast some ▸ congrArg Option.some (of_decide_eq_true blank))
      rw [strictStore,kept]
      exact if_pos fits
  holds := by
    intro type value stored put
    match type,value with
    | .bigint,.number value =>
      rw [strictStore] at put
      split at put
      · rename_i range
        obtain rfl := Option.some.inj put
        exact range
      · cases put
    | .bigint,.string _ => cases put
    | .char _,.number _ => cases put
    | .char width,.string string =>
      rw [strictStore] at put
      split at put
      · rename_i short
        obtain rfl := Option.some.inj put
        exact short
      · cases put

section Read

/-- The strings between quotes, each behind a comma. -/
def readStrings : Nat → Text → List Text
  | 0,_ => []
  | fuel+1,command =>
    match quoted (text ", \"") command with
    | none => []
    | some (string,rest) => string :: readStrings fuel (rest.drop 1)

theorem readStrings_all {strings : List Text} {fuel : Nat} (plain : ∀ string ∈ strings, 34 ∉ string)
    (enough : strings.length < fuel) : readStrings fuel (strings.flatMap quotedText ++ text ");") = strings := by
  induction strings generalizing fuel with
  | nil =>
    cases fuel with
    | zero => rfl
    | succ fuel => rfl
  | cons string strings ih =>
    cases fuel with
    | zero => exact absurd enough (Nat.not_lt_zero _)
    | succ fuel =>
      have split : (string :: strings).flatMap quotedText ++ text ");" =
          text ", \"" ++ string ++ 34 :: (strings.flatMap quotedText ++ text ");") := by
        rw [List.flatMap_cons,quotedText]
        simp only [List.append_assoc]
        rfl
      rw [split,readStrings,quoted_literal (plain string List.mem_cons_self)]
      dsimp only
      rw [List.drop_one,List.tail_cons,
        ih (fun other among => plain other (List.mem_cons_of_mem _ among)) (Nat.lt_of_succ_lt_succ enough)]

def readNumber (front command : Text) : Option (Int × Text) := (command.dropPrefix? front).bind scanNumber

theorem readNumber_printInt {front rest : Text} {value : Int} (ends : NoDigit rest) :
    readNumber front (front ++ (printInt value ++ rest)) = some (value,rest) := by
  rw [readNumber,List.dropPrefix?_append_of_beq _ (beq_self_eq_true front),Option.bind_some]
  exact scanNumber_printInt value ends

theorem noDigit_cons {char : UInt8} {rest : Text} (other : isDigit char = false) : NoDigit (char :: rest) := by
  intro first among
  obtain rfl := Option.some.inj among
  exact other

def insertHead : Text := text "insert into faceRecordTable values("

def readInsert (command : Text) : Option (Int × Int × List Text) :=
  (readNumber insertHead command).bind fun (timestamp,rest) =>
    (readNumber (text ", ") rest).bind fun (cameraIp,rest) =>
      let strings := readStrings rest.length rest
      if insertText timestamp cameraIp strings = command then some (timestamp,cameraIp,strings) else none

theorem quotedTexts_length (strings : List Text) : strings.length ≤ (strings.flatMap quotedText).length := by
  induction strings with
  | nil => exact Nat.zero_le _
  | cons string strings ih =>
    have some : 0 < (quotedText string).length := Nat.succ_pos _
    rw [List.flatMap_cons,List.length_append,List.length_cons]
    omega

theorem readInsert_text {timestamp cameraIp : Int} {strings : List Text} (plain : ∀ string ∈ strings, Literal string) :
    readInsert (insertText timestamp cameraIp strings) = some (timestamp,cameraIp,strings) := by
  let tail := strings.flatMap quotedText ++ text ");"
  have split : insertText timestamp cameraIp strings =
      insertHead ++ (printInt timestamp ++ (text ", " ++ (printInt cameraIp ++ tail))) := by
    have head : text "insert into " ++ mysqlFacerecTabname ++ text " values(" = insertHead := by decide
    rw [insertText,head]
    simp only [tail,List.append_assoc]
  have ends : NoDigit tail := by
    cases strings with
    | nil => exact noDigit_cons rfl
    | cons string strings => exact noDigit_cons rfl
  have first := @readNumber_printInt insertHead _ timestamp (@noDigit_cons 44 (32 :: (printInt cameraIp ++ tail)) rfl)
  have second := @readNumber_printInt (text ", ") _ cameraIp ends
  have comma : text ", " ++ (printInt cameraIp ++ tail) = 44 :: 32 :: (printInt cameraIp ++ tail) := rfl
  have enough : strings.length < tail.length := by
    have size : tail.length = (strings.flatMap quotedText).length+2 := List.length_append
    have most := quotedTexts_length strings
    omega
  have read := readStrings_all (fun string among => (plain string among).1) enough
  rw [readInsert,split,comma,first,Option.bind_some]
  dsimp only
  rw [← comma,second,Option.bind_some]
  dsimp only
  rw [read,← split,if_pos rfl]

def selectHead : Text := text "select * from faceRecordTable where timestamp>="

/-- The choices all have the string of the first. -/
def readSelect (command : Text) : Option Where :=
  (readNumber selectHead command).bind fun (startTime,rest) =>
    (readNumber (text " and timestamp<=") rest).bind fun (endTime,rest) =>
      (quoted (text " and (peopleName0=\"") rest).bind fun (peopleName,_) =>
        let clause := peopleWhere startTime endTime peopleName
        if selectText clause = command then some clause else none

theorem choices_front (startTime endTime : Int) (peopleName : Text) : ∃ more,
    (text " or ").intercalate ((peopleWhere startTime endTime peopleName).choices.map choiceText) =
      text "peopleName0=\"" ++ peopleName ++ 34 :: more := by
  have attr : peopleAttr 0 ++ text "=\"" = text "peopleName0=\"" := by decide
  have first : ∃ next others, (peopleWhere startTime endTime peopleName).choices.map choiceText =
      choiceText (peopleAttr 0,peopleName) :: next :: others := ⟨_,_,rfl⟩
  obtain ⟨next,others,first⟩ := first
  refine ⟨text " or " ++ (text " or ").intercalate (next :: others),?_⟩
  rw [first,choiceText,attr]
  simp [List.intercalate,text]

theorem readSelect_text {startTime endTime : Int} {peopleName : Text} (literal : Literal peopleName) :
    readSelect (selectText (peopleWhere startTime endTime peopleName)) =
      some (peopleWhere startTime endTime peopleName) := by
  obtain ⟨more,choices⟩ := choices_front startTime endTime peopleName
  let people := text " and (peopleName0=\"" ++ peopleName ++ 34 :: (more ++ text ");")
  let stop := text " and timestamp<=" ++ (printInt endTime ++ people)
  have split : selectText (peopleWhere startTime endTime peopleName) = selectHead ++ (printInt startTime ++ stop) := by
    have head : selectHead = text "select * from " ++ mysqlFacerecTabname ++ text " where " ++ attrTimestamp ++
      text ">=" := by decide
    have middle : text " and timestamp<=" = text " and " ++ attrTimestamp ++ text "<=" := by decide
    have opening : text " and (peopleName0=\"" = text " and (" ++ text "peopleName0=\"" := by decide
    have close : text ");" = text ")" ++ text ";" := by decide
    rw [selectText,Where.text,choices]
    simp only [stop,people,head,middle,opening,close,peopleWhere,List.append_assoc,List.cons_append]
  have first := @readNumber_printInt selectHead stop startTime (noDigit_cons rfl)
  have second := @readNumber_printInt (text " and timestamp<=") people endTime (noDigit_cons rfl)
  have third : quoted (text " and (peopleName0=\"") people = some (peopleName,34 :: (more ++ text ");")) :=
    quoted_literal literal.1
  rw [readSelect,split,first,Option.bind_some]
  dsimp only
  rw [second,Option.bind_some]
  dsimp only
  rw [third,Option.bind_some]
  dsimp only
  rw [← split,if_pos rfl]

end Read

/-- Any other command is an error, and so is one without a table. -/
def strictExec (db : Option Table) (command : Text) : Option (Option Table × List (List Text)) :=
  if command = createText faceColumns then some (some (db.getD (.empty faceColumns)),[])
  else
    match db with
    | none => none
    | some table =>
      match readInsert command with
      | some (timestamp,cameraIp,strings) =>
        (table.insert strict (insertValues timestamp cameraIp strings)).map fun after => (some after,[])
      | none =>
        (readSelect command).map fun clause =>
          (some table,(table.select (· == ·) clause).map fun row => row.map shown)

def strictEngine : Engine where
  storage := strict
  equal := (· == ·)
  equal_refl := fun string => beq_self_eq_true string
  exec := strictExec
  create := fun _ => if_pos rfl
  insert := by
    intro table timestamp cameraIp strings plain
    have other : insertText timestamp cameraIp strings ≠ createText faceColumns := fun same =>
      absurd (Option.some.inj (congrArg List.head? same)) (by decide)
    rw [strictExec,if_neg other,readInsert_text plain]
  select := by
    intro table startTime endTime peopleName literal
    have other : selectText (peopleWhere startTime endTime peopleName) ≠ createText faceColumns := fun same =>
      absurd (Option.some.inj (congrArg List.head? same)) (by decide)
    have noInsert : readInsert (selectText (peopleWhere startTime endTime peopleName)) = none := rfl
    rw [strictExec,if_neg other,noInsert,readSelect_text literal]
    rfl

end MoCodes.MoFaceRec.Records
