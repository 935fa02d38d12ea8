import MoCodes.MoCloud.Server.FileTable
import MoCodes.MoFaceRec.CaptScan
import MoCodes.MoFaceRec.DbGuard

/-! The table that db.cpp keeps its records in, as an engine has it: columns of a type, rows that are put
in by position, and a search by the names of columns. -/
namespace MoCodes.MoFaceRec.Records
open MoCloud MoCloud.Server

inductive ColumnType where
  | bigint
  | char (width : Nat)

/-- One byte is one character. -/
def ColumnType.Holds : ColumnType → SqlValue → Prop
  | .bigint,.number value => -2^63 ≤ value ∧ value < 2^63
  | .char width,.string string => string.length ≤ width
  | _,_ => False

structure Column where
  name : Text
  type : ColumnType

structure Table where
  columns : List Column
  rows : List (List SqlValue)
  typed : ∀ row ∈ rows, List.Forall₂ (fun column value => column.type.Holds value) columns row

def Trimmed : SqlValue → Prop
  | .number _ => True
  | .string string => string.getLast? ≠ some 32

/-- What a column makes of a value. One that does not fit is refused or made to fit. -/
structure Storage where
  store : ColumnType → SqlValue → Option SqlValue
  keeps : ∀ type value, type.Holds value → Trimmed value → store type value = some value
  holds : ∀ type value stored, store type value = some stored → type.Holds stored

namespace Storage

variable (storage : Storage)

def row : List Column → List SqlValue → Option (List SqlValue)
  | [],[] => some []
  | column :: columns,value :: values =>
    match storage.store column.type value,row columns values with
    | some stored,some rest => some (stored :: rest)
    | _,_ => none
  | _,_ => none

variable {storage} {columns : List Column} {values stored : List SqlValue}

theorem row_typed (made : storage.row columns values = some stored) :
    List.Forall₂ (fun column value => column.type.Holds value) columns stored := by
  induction columns generalizing values stored with
  | nil =>
    cases values with
    | nil =>
      cases made
      exact .nil
    | cons value values => cases made
  | cons column columns ih =>
    cases values with
    | nil => cases made
    | cons value values =>
      rw [row] at made
      split at made
      · rename_i first rest put more
        obtain rfl := Option.some.inj made
        exact .cons (storage.holds _ _ _ put) (ih more)
      · cases made

theorem row_keeps (fits : List.Forall₂ (fun column value => column.type.Holds value ∧ Trimmed value) columns values) :
    storage.row columns values = some values := by
  induction fits with
  | nil => rfl
  | cons first _ ih => rw [row,storage.keeps _ _ first.1 first.2,ih]

end Storage

namespace Table

def empty (columns : List Column) : Table := ⟨columns,[],List.forall_mem_nil _⟩

def insert (storage : Storage) (table : Table) (values : List SqlValue) : Option Table :=
  match made : storage.row table.columns values with
  | none => none
  | some row => some {
      columns := table.columns
      rows := table.rows ++ [row]
      typed := fun other among => by
        rcases List.mem_append.mp among with old | new
        · exact table.typed other old
        · obtain rfl := List.mem_singleton.mp new
          exact Storage.row_typed made }

variable {storage : Storage} {table after : Table} {values : List SqlValue}

theorem insert_columns (inserted : table.insert storage values = some after) : after.columns = table.columns := by
  rw [insert] at inserted
  split at inserted
  · cases inserted
  · obtain rfl := Option.some.inj inserted
    rfl

theorem insert_keeps
    (fits : List.Forall₂ (fun column value => column.type.Holds value ∧ Trimmed value) table.columns values) :
    ∃ after, table.insert storage values = some after ∧ values ∈ after.rows := by
  rw [insert]
  split
  · rename_i refused
    rw [Storage.row_keeps fits] at refused
    cases refused
  · rename_i row made
    rw [Storage.row_keeps fits] at made
    obtain rfl := Option.some.inj made
    exact ⟨_,rfl,List.mem_append_right _ (List.mem_singleton_self _)⟩

end Table

/-- What `attr` of a row is. -/
def valueOf (columns : List Column) (attr : Text) (row : List SqlValue) : Option SqlValue :=
  ((columns.zip row).find? fun (column,_) => column.name = attr).map Prod.snd

theorem valueOf_column {columns : List Column} {row : List SqlValue} {column : Column} {value : SqlValue} {i : Nat}
    (names : (columns.map Column.name).Nodup) (named : columns[i]? = some column) (here : row[i]? = some value) :
    valueOf columns column.name row = some value := by
  induction columns generalizing row i with
  | nil => cases named
  | cons first columns ih =>
    cases row with
    | nil => cases here
    | cons front row =>
      rw [List.map_cons,List.nodup_cons] at names
      cases i with
      | zero =>
        obtain rfl := Option.some.inj named
        obtain rfl := Option.some.inj here
        rw [valueOf,List.zip_cons_cons,List.find?_cons_of_pos (by simp)]
        rfl
      | succ i =>
        have other : first.name ≠ column.name := by
          intro same
          exact names.1 (same ▸ List.mem_map_of_mem (List.mem_of_getElem? named))
        rw [valueOf,List.zip_cons_cons,List.find?_cons_of_neg (by simpa using other)]
        exact ih names.2 named here

/-- A range of numbers, and columns of which one has its string. -/
structure Where where
  attr : Text
  least : Int
  most : Int
  choices : List (Text × Text)

def Where.inRange (clause : Where) : Option SqlValue → Bool
  | some (.number value) => clause.least ≤ value ∧ value ≤ clause.most
  | _ => false

def isString (equal : Text → Text → Bool) (string : Text) : Option SqlValue → Bool
  | some (.string value) => equal value string
  | _ => false

def Where.holds (equal : Text → Text → Bool) (columns : List Column) (clause : Where) (row : List SqlValue) : Bool :=
  clause.inRange (valueOf columns clause.attr row) &&
    clause.choices.any fun (attr,string) => isString equal string (valueOf columns attr row)

def Table.select (equal : Text → Text → Bool) (table : Table) (clause : Where) : List (List SqlValue) :=
  table.rows.filter (clause.holds equal table.columns)

/-- A value as a row of a result shows it. -/
def shown : SqlValue → Text
  | .number value => printInt value
  | .string string => string

section Commands

def mysqlFacerecTabname : Text := text "faceRecordTable"

def Column.text (column : Column) : Text :=
  column.name ++ match column.type with
    | .bigint => MoCloud.text " bigint"
    | .char width => MoCloud.text " char(" ++ printInt width ++ MoCloud.text ")"

def createText (columns : List Column) : Text :=
  text "create table if not exists " ++ mysqlFacerecTabname ++ text "(" ++
    (text ", ").intercalate (columns.map Column.text) ++ text ");"

def quotedText (string : Text) : Text := text ", \"" ++ string ++ text "\""

def insertText (timestamp cameraIp : Int) (strings : List Text) : Text :=
  text "insert into " ++ mysqlFacerecTabname ++ text " values(" ++ printInt timestamp ++ text ", " ++
    printInt cameraIp ++ strings.flatMap quotedText ++ text ");"

def insertValues (timestamp cameraIp : Int) (strings : List Text) : List SqlValue :=
  .number timestamp :: .number cameraIp :: strings.map .string

def choiceText : Text × Text → Text
  | (attr,string) => attr ++ text "=\"" ++ string ++ text "\""

def Where.text (clause : Where) : Text :=
  clause.attr ++ MoCloud.text ">=" ++ printInt clause.least ++ MoCloud.text " and " ++ clause.attr ++
    MoCloud.text "<=" ++ printInt clause.most ++ MoCloud.text " and (" ++
    (MoCloud.text " or ").intercalate (clause.choices.map choiceText) ++ MoCloud.text ")"

def selectText (clause : Where) : Text :=
  text "select * from " ++ mysqlFacerecTabname ++ text " where " ++ clause.text ++ text ";"

end Commands

section Attributes

def attrPeoplename : Text := text "peopleName"

def attrTimestamp : Text := text "timestamp"

def attrCameraip : Text := text "cameraIp"

def attrCameraname : Text := text "cameraName"

def maxPeopleNameLen : Nat := 32

/-- FACEREC_TABLE_ATTR_PEOPLENAME with its number. -/
def peopleAttr (i : Nat) : Text := attrPeoplename ++ printInt i

def faceColumns : List Column :=
  [⟨attrTimestamp,.bigint⟩,⟨attrCameraip,.bigint⟩,⟨attrCameraname,.char maxCameraNameLen⟩] ++
    (List.range Db.maxFaceNum).map fun i => ⟨peopleAttr i,.char maxPeopleNameLen⟩

def peopleWhere (startTime endTime : Int) (peopleName : Text) : Where :=
  ⟨attrTimestamp,startTime,endTime,(List.range Db.maxFaceNum).map fun i => (peopleAttr i,peopleName)⟩

theorem faceColumns_names : (faceColumns.map Column.name).Nodup := by
  decide +kernel

end Attributes

/-- An engine that does what the commands of db.cpp say, with strings that stand for themselves. Which
strings it takes as equal is its collation. -/
structure Engine where
  storage : Storage
  equal : Text → Text → Bool
  equal_refl : ∀ string, equal string string = true
  exec : Option Table → Text → Option (Option Table × List (List Text))
  create : ∀ db, exec db (createText faceColumns) = some (some (db.getD (.empty faceColumns)),[])
  insert : ∀ (table : Table) timestamp cameraIp strings, (∀ string ∈ strings, Literal string) →
    exec (some table) (insertText timestamp cameraIp strings) =
      (table.insert storage (insertValues timestamp cameraIp strings)).map fun after => (some after,[])
  select : ∀ (table : Table) startTime endTime peopleName, Literal peopleName →
    exec (some table) (selectText (peopleWhere startTime endTime peopleName)) =
      some (some table,(table.select equal (peopleWhere startTime endTime peopleName)).map fun row => row.map shown)

end MoCodes.MoFaceRec.Records
