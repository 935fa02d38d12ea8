import MoCodes.Lib.MarkSweep
import MoCodes.MoCloud.Server.Credentials

/-! `refreshFileinfo` of both database layers: the table of files is brought up to date with the
files that are there, by commands of at most `sqlCmdMaxLen` bytes. -/
namespace MoCodes.MoCloud.Server
open SendFile

/-- A row of FileinfoTable, whose other columns the commands do not look at. -/
structure FileRow where
  isInited : Int
  key : FileinfoKey
  filesize : Int
  deriving DecidableEq

section Commands

variable (key : FileinfoKey) (info : BasicFileinfo)

def markCmd : Text := text "update FileinfoTable set isInited = 0;"

def deleteCmd : Text := sqlCmd (text "delete from FileinfoTable where isInited = 0;")

def fileExistFront : Text :=
  text "select count(*) from FileinfoTable where filetype=" ++ printInt key.filetype ++ text " and filename=\""

/-- `%d` takes the low half of a `size_t`. -/
def updateFileFront : Text :=
  text "update FileinfoTable set isInited=1, filesize=" ++ printInt (toInt info.filesize) ++
    text " where filetype=" ++ printInt info.key.filetype ++ text " and filename=\""

def updateFileText : Text := updateFileFront info ++ info.key.filename ++ text "\";"

def updateFileCmd : Text := sqlCmd (updateFileText info)

/-- A value of an insert. -/
inductive SqlValue where
  | number (value : Int)
  | string (value : Text)

def SqlValue.text : SqlValue → Text
  | .number value => printInt value
  | .string value => [34] ++ value ++ [34]

def SqlValue.Plain : SqlValue → Prop
  | .number _ => True
  | .string value => Literal value

def insertFileFront : Text := text "insert into FileinfoTable values("

def insertFileText (values : List SqlValue) : Text :=
  insertFileFront ++ (text ", ").intercalate (values.map SqlValue.text) ++ text ");"

/-- `char owner[MOCLOUD_USERNAME_MAXLEN]`. -/
def owner : Text :=
  if info.ownerName = [] then text "EricJinleiWu" else info.ownerName.take (usernameMaxLen-1)

def insertFileValues : List SqlValue :=
  [.number 1,.number info.key.filetype,.string info.key.filename,.number (toInt info.filesize),
    .string (owner info),.number info.state,.number 0,.number (-1),.number 0]

def insertFileCmd : Text := sqlCmd (insertFileText (insertFileValues info))

end Commands

/-- FileinfoTable is made with 7 columns. -/
def fileColumns : Nat := 7

/-- An engine that does what the commands say. One that is cut inside its string is an error, and
an insert is one, cut or whole, when it has not as many values as there are columns. -/
structure FileEngine where
  exec : SqlExec (List FileRow)
  mark : ∀ table, exec table markCmd = some (table.map fun row => { row with isInited := 0 },[])
  delete : ∀ table, exec table (text "delete from FileinfoTable where isInited = 0;") =
    some (table.filter fun row => row.isInited != 0,[])
  count : ∀ table key back, Literal key.filename → IsInt key.filetype → back = text "\";" ∨ back = text "\"" →
    exec table (fileExistFront key ++ key.filename ++ back) =
      some (table,countAnswer (table.countP fun row => row.key == key))
  countCut : ∀ table key string, Literal string → IsInt key.filetype →
    exec table (fileExistFront key ++ string) = none
  update : ∀ table info back, Literal info.key.filename → IsInt info.key.filetype →
    back = text "\";" ∨ back = text "\"" →
    exec table (updateFileFront info ++ info.key.filename ++ back) =
      some (table.map fun row =>
        if row.key = info.key then { row with isInited := 1, filesize := toInt info.filesize } else row,[])
  updateCut : ∀ table info string, Literal string → IsInt info.key.filetype →
    exec table (updateFileFront info ++ string) = none
  insert : ∀ table values n, (∀ value ∈ values, SqlValue.Plain value) → values.length ≠ fileColumns →
    insertFileFront.length ≤ n → exec table ((insertFileText values).take n) = none

section Refresh

variable (exec : SqlExec (List FileRow))

/-- What a command returns. -/
def UsedDbType.ret (ran : Option (List FileRow × List (Option Text))) : UsedDbType → Int
  | .sqlite => (SqliteAnswer.of ran).ret
  | .mysql => (MysqlAnswer.of ran).ret

/-- One turn of the loops, 0 where they go on. -/
def refreshFile (type : UsedDbType) (insertFailed updateFailed : Int) (info : BasicFileinfo)
    (table : List FileRow) : Option (Int × List FileRow) :=
  ((type.on true (exec table)).isFileExist info.key).map fun isFileExist =>
    let command := if isFileExist then updateFileCmd info else insertFileCmd info
    let failed := if isFileExist then updateFailed else insertFailed
    if type.ret (exec table command) ≠ 0 then (failed,table) else (0,exec.after table command)

def refreshFiles (type : UsedDbType) (insertFailed updateFailed : Int) :
    List BasicFileinfo → List FileRow → Option (Int × List FileRow)
  | [],table => some (0,table)
  | info :: infos,table =>
    (refreshFile exec type insertFailed updateFailed info table).bind fun (ret,table) =>
      if ret ≠ 0 then some (ret,table) else refreshFiles type insertFailed updateFailed infos table

/-- `refreshFileinfo` of either layer, with its negative codes. -/
def refreshFileinfoWith (type : UsedDbType) (markFailed insertFailed updateFailed deleteFailed : Int)
    (opened : Bool) (filelistMap : List (Int × List BasicFileinfo)) (table : List FileRow) :
    Option (Int × List FileRow) :=
  if !opened then some (-1,table)
  else if type.ret (exec table markCmd) < 0 then some (markFailed,table)
  else
    -- the list of each type, one after another
    (refreshFiles exec type insertFailed updateFailed (filelistMap.flatMap Prod.snd) (exec.after table markCmd)).map
      fun (ret,table) =>
        if ret ≠ 0 then (ret,table)
        else if type.ret (exec table deleteCmd) ≠ 0 then (deleteFailed,table)
        else (0,exec.after table deleteCmd)

variable (opened : Bool) (filelistMap : List (Int × List BasicFileinfo)) (table : List FileRow)

def DbCtrlSqlite.refreshFileinfo : Option (Int × List FileRow) :=
  refreshFileinfoWith exec .sqlite (-1) (-2) (-3) (-4) opened filelistMap table

def DbCtrlMysql.refreshFileinfo : Option (Int × List FileRow) :=
  refreshFileinfoWith exec .mysql (-2) (-3) (-4) (-5) opened filelistMap table

def UsedDbType.refreshFileinfo : UsedDbType → Option (Int × List FileRow)
  | .sqlite => DbCtrlSqlite.refreshFileinfo exec opened filelistMap table
  | .mysql => DbCtrlMysql.refreshFileinfo exec opened filelistMap table

end Refresh

section Cut

variable {front name : Text}

theorem sqlCmd_whole (fits : (front ++ name ++ text "\";").length ≤ sqlCmdMaxLen) :
    ∃ back, (back = text "\";" ∨ back = text "\"") ∧
      sqlCmd (front ++ name ++ text "\";") = front ++ name ++ back := by
  have size : (text "\";").length = 2 := rfl
  rcases Nat.lt_or_eq_of_le fits with shorter | full
  · exact ⟨_,Or.inl rfl,sqlCmd_fits shorter⟩
  · refine ⟨_,Or.inr rfl,?_⟩
    have room : sqlCmdMaxLen-1 = (front ++ name).length+1 := by
      rw [← full,List.length_append,size]
      rfl
    rw [sqlCmd,room,List.take_length_add_append]
    rfl

theorem sqlCmd_cut (room : front.length < sqlCmdMaxLen)
    (long : sqlCmdMaxLen < (front ++ name ++ text "\";").length) :
    ∃ n, sqlCmd (front ++ name ++ text "\";") = front ++ name.take n := by
  have size : (text "\";").length = 2 := rfl
  obtain ⟨n,enough⟩ : ∃ n, sqlCmdMaxLen-1 = front.length+n := ⟨sqlCmdMaxLen-1-front.length,by omega⟩
  refine ⟨n,?_⟩
  have inside : n ≤ name.length := by
    simp only [List.length_append,size] at long
    omega
  rw [sqlCmd,enough,List.append_assoc,List.take_length_add_append,List.take_append_of_le_length inside]

end Cut

section Names

/-- A file whose name and owner the commands can hold between quotes. -/
structure Named (info : BasicFileinfo) : Prop where
  filename : Literal info.key.filename
  length : info.key.filename.length < filenameMaxLen
  ownerName : Literal info.ownerName
  filetype : IsInt info.key.filetype

variable {info : BasicFileinfo}

theorem literal_take {string : Text} (plain : Literal string) (n : Nat) : Literal (string.take n) :=
  ⟨fun among => plain.1 (List.mem_of_mem_take among),fun among => plain.2.1 (List.mem_of_mem_take among),
    fun among => plain.2.2 (List.mem_of_mem_take among)⟩

theorem fileExistCmd_text (key : FileinfoKey) :
    fileExistCmd key = sqlCmd (fileExistFront key ++ key.filename ++ text "\";") := by
  rw [fileExistCmd,text_toString]
  rfl

theorem front_lengths (filetype : IsInt info.key.filetype) :
    (fileExistFront info.key).length ≤ (updateFileFront info).length ∧
      (updateFileFront info).length < sqlCmdMaxLen := by
  have select : (text "select count(*) from FileinfoTable where filetype=").length = 50 := rfl
  have update : (text "update FileinfoTable set isInited=1, filesize=").length = 46 := rfl
  have middle : (text " where filetype=").length = 16 := rfl
  have back : (text " and filename=\"").length = 15 := rfl
  have type := printInt_length filetype
  have size := printInt_length (toInt_isInt info.filesize)
  simp only [fileExistFront,updateFileFront,List.length_append,select,update,middle,back,sqlCmdMaxLen]
  omega

end Names

/-- A row is marked by `isInited`. -/
def fileMarking : Lib.MarkSweep.Marking FileRow BasicFileinfo FileinfoKey where
  keyRow := FileRow.key
  keyEntry := BasicFileinfo.key
  marked := fun row => row.isInited != 0
  clear := fun row => { row with isInited := 0 }
  touch := fun info row => { row with isInited := 1, filesize := toInt info.filesize }
  key_clear := fun _ => rfl
  key_touch := fun _ _ => rfl
  marked_clear := fun _ => rfl
  marked_touch := fun _ _ => rfl

theorem update_key (info : BasicFileinfo) (row : FileRow) : (fileMarking.update info row).key = row.key := by
  change fileMarking.keyRow (fileMarking.update info row) = fileMarking.keyRow row
  exact Lib.MarkSweep.Marking.key_update

section Steps

variable (engine : FileEngine) (type : UsedDbType) (table : List FileRow) {after : List FileRow}
  {info : BasicFileinfo} {insertFailed updateFailed : Int}

theorem insertFileCmd_rejected (named : Named info) : engine.exec table (insertFileCmd info) = none := by
  have ownerName : Literal (owner info) := by
    rw [owner]
    split
    · decide
    · exact literal_take named.ownerName _
  refine engine.insert table (insertFileValues info) (sqlCmdMaxLen-1) ?_
    (by simp [insertFileValues,fileColumns]) (by decide)
  simp [insertFileValues,SqlValue.Plain,named.filename,ownerName]

theorem updateFileCmd_cut (named : Named info) (long : sqlCmdMaxLen < (updateFileText info).length) :
    engine.exec table (updateFileCmd info) = none := by
  obtain ⟨n,cut⟩ := sqlCmd_cut (front_lengths named.filetype).2 long
  rw [updateFileCmd,updateFileText,cut]
  exact engine.updateCut table info _ (literal_take named.filename n) named.filetype

theorem updateFileCmd_whole (named : Named info) (fits : (updateFileText info).length ≤ sqlCmdMaxLen) :
    engine.exec table (updateFileCmd info) = some (table.map (fileMarking.update info),[]) := by
  obtain ⟨back,ends,whole⟩ := sqlCmd_whole fits
  rw [updateFileCmd,updateFileText,whole,engine.update table info back named.filename named.filetype ends]
  rfl

theorem fileExistCmd_whole (named : Named info) (fits : (updateFileText info).length ≤ sqlCmdMaxLen) :
    engine.exec table (fileExistCmd info.key) =
      some (table,countAnswer (table.countP fun row => row.key == info.key)) := by
  have shorter := (front_lengths named.filetype).1
  have fits : (fileExistFront info.key ++ info.key.filename ++ text "\";").length ≤ sqlCmdMaxLen := by
    simp only [updateFileText,List.length_append] at fits ⊢
    omega
  obtain ⟨back,ends,whole⟩ := sqlCmd_whole fits
  rw [fileExistCmd_text,whole]
  exact engine.count table info.key back named.filename named.filetype ends

theorem ret_error : type.ret none ≠ 0 := by
  cases type <;> exact one_ne_zero

theorem ret_some (ran : List FileRow × List (Option Text)) : type.ret (some ran) = 0 := by
  cases type <;> rfl

/-- The loops go on only over a file whose rows an update has reached. -/
theorem refreshFile_done (named : Named info) (negative : insertFailed ≠ 0 ∧ updateFailed ≠ 0)
    (done : refreshFile engine.exec type insertFailed updateFailed info table = some (0,after)) :
    (updateFileText info).length ≤ sqlCmdMaxLen ∧ after = table.map (fileMarking.update info) := by
  obtain ⟨isFileExist,_,given⟩ := Option.map_eq_some_iff.mp done
  cases isFileExist with
  | false =>
    simp only [Bool.false_eq_true,if_false,insertFileCmd_rejected engine table named,if_pos (ret_error type)] at given
    exact absurd (Prod.mk.inj given).1 negative.1
  | true =>
    rcases Nat.lt_or_ge sqlCmdMaxLen (updateFileText info).length with long | fits
    · simp only [if_true,updateFileCmd_cut engine table named long,if_pos (ret_error type)] at given
      exact absurd (Prod.mk.inj given).1 negative.2
    · have updated := updateFileCmd_whole engine table named fits
      simp only [if_true,updated,ret_some,ne_eq,not_true,if_false,SqlExec.after] at given
      exact ⟨fits,(Prod.mk.inj given).2.symm⟩

theorem refreshFile_one (named : Named info) (fits : (updateFileText info).length ≤ sqlCmdMaxLen)
    (one : (table.countP fun row => row.key == info.key) = 1) :
    refreshFile engine.exec type insertFailed updateFailed info table =
      some (0,table.map (fileMarking.update info)) := by
  have counted := fileExistCmd_whole engine table named fits
  rw [one] at counted
  have isExist : (type.on true (engine.exec table)).isFileExist info.key = some true := by
    cases type with
    | sqlite => exact congrArg some (sqlite_isExist_count counted)
    | mysql => exact mysql_isExist_count counted
  have updated := updateFileCmd_whole engine table named fits
  rw [refreshFile,isExist]
  simp [updated,ret_some,SqlExec.after]

end Steps

/-- The table holds one row for each file, with its size, and no other row. -/
structure Refreshed (infos : List BasicFileinfo) (result : Int × List FileRow) : Prop where
  succeeded : result.1 = 0
  listed : ∀ info ∈ infos, ∃ row, fileMarking.rows info.key result.2 = [row] ∧ row.filesize = info.filesize
  only : ∀ row ∈ result.2, ∃ info ∈ infos, info.key = row.key

/-- Each file has one row already, the update of that row is not cut, and `%d` shows the size. -/
structure Refreshable (opened : Bool) (infos : List BasicFileinfo) (table : List FileRow) : Prop where
  opened : opened = true
  known : ∀ info ∈ infos, (table.countP fun row => row.key == info.key) = 1
  fits : ∀ info ∈ infos, (updateFileText info).length ≤ sqlCmdMaxLen
  size : ∀ info ∈ infos, info.filesize < 2^31

section Runs

variable {engine : FileEngine} {type : UsedDbType} {table after : List FileRow} {infos : List BasicFileinfo}
  {insertFailed updateFailed : Int}

theorem refreshFiles_done (named : ∀ info ∈ infos, Named info) (negative : insertFailed ≠ 0 ∧ updateFailed ≠ 0)
    (done : refreshFiles engine.exec type insertFailed updateFailed infos table = some (0,after)) :
    (∀ info ∈ infos, (updateFileText info).length ≤ sqlCmdMaxLen) ∧
      after = table.map (fileMarking.updates infos) := by
  induction infos generalizing table with
  | nil =>
    obtain rfl := (Prod.mk.inj (Option.some.inj done)).2
    exact ⟨List.forall_mem_nil _,(List.map_id'' (fun _ => rfl) table).symm⟩
  | cons info infos ih =>
    obtain ⟨⟨ret,middle⟩,first,rest⟩ := Option.bind_eq_some_iff.mp done
    rcases ite_eq_iff.mp rest with ⟨failed,ended⟩ | ⟨zero,rest⟩
    · exact absurd (Prod.mk.inj (Option.some.inj ended)).1 failed
    obtain rfl : ret = 0 := not_not.mp zero
    obtain ⟨fits,rfl⟩ := refreshFile_done engine type table (named info List.mem_cons_self) negative first
    obtain ⟨all,rfl⟩ := ih (fun other among => named other (List.mem_cons_of_mem _ among)) rest
    refine ⟨List.forall_mem_cons.mpr ⟨fits,all⟩,?_⟩
    rw [List.map_map]
    rfl

theorem countP_key {change : FileRow → FileRow} (kept : ∀ row, (change row).key = row.key) (key : FileinfoKey) :
    (table.map change).countP (fun row => row.key == key) = table.countP fun row => row.key == key := by
  rw [List.countP_map]
  refine List.countP_congr fun row _ => ?_
  simp [kept]

theorem refreshFiles_known (named : ∀ info ∈ infos, Named info)
    (fits : ∀ info ∈ infos, (updateFileText info).length ≤ sqlCmdMaxLen)
    (known : ∀ info ∈ infos, (table.countP fun row => row.key == info.key) = 1) :
    refreshFiles engine.exec type insertFailed updateFailed infos table =
      some (0,table.map (fileMarking.updates infos)) := by
  induction infos generalizing table with
  | nil => exact congrArg (fun table => some (0,table)) (List.map_id'' (fun _ => rfl) table).symm
  | cons info infos ih =>
    have first : refreshFile engine.exec type insertFailed updateFailed info table =
        some (0,table.map (fileMarking.update info)) :=
      refreshFile_one engine type table (named info List.mem_cons_self) (fits info List.mem_cons_self)
        (known info List.mem_cons_self)
    have later : ∀ other ∈ infos, ((table.map (fileMarking.update info)).countP fun row => row.key == other.key) = 1 := by
      intro other among
      rw [countP_key (update_key info)]
      exact known other (List.mem_cons_of_mem _ among)
    rw [refreshFiles,first,Option.bind_some]
    have rest := ih (fun other among => named other (List.mem_cons_of_mem _ among))
      (fun other among => fits other (List.mem_cons_of_mem _ among)) later
    rw [List.map_map] at rest
    exact rest

theorem deleteCmd_run (engine : FileEngine) (table : List FileRow) :
    engine.exec table deleteCmd = some (table.filter fun row => row.isInited != 0,[]) := by
  have whole : deleteCmd = text "delete from FileinfoTable where isInited = 0;" := sqlCmd_fits (by decide)
  rw [whole]
  exact engine.delete table

variable {opened : Bool} {filelistMap : List (Int × List BasicFileinfo)} {markFailed deleteFailed : Int}

theorem refreshFileinfoWith_done (named : ∀ info ∈ filelistMap.flatMap Prod.snd, Named info)
    (negative : insertFailed ≠ 0 ∧ updateFailed ≠ 0)
    (done : refreshFileinfoWith engine.exec type markFailed insertFailed updateFailed deleteFailed opened
      filelistMap table = some (0,after)) :
    opened = true ∧ (∀ info ∈ filelistMap.flatMap Prod.snd, (updateFileText info).length ≤ sqlCmdMaxLen) ∧
      after = fileMarking.refresh (filelistMap.flatMap Prod.snd) table := by
  rw [refreshFileinfoWith] at done
  rcases ite_eq_iff.mp done with ⟨_,closed⟩ | ⟨isOpen,done⟩
  · simp at closed
  rw [engine.mark table,ret_some,if_neg (lt_irrefl 0)] at done
  obtain ⟨⟨ret,middle⟩,looped,given⟩ := Option.map_eq_some_iff.mp done
  rcases ite_eq_iff.mp given with ⟨failed,ended⟩ | ⟨zero,given⟩
  · exact absurd (Prod.mk.inj ended).1 failed
  obtain rfl : ret = 0 := not_not.mp zero
  obtain ⟨fits,rfl⟩ := refreshFiles_done named negative looped
  refine ⟨by simpa using isOpen,fits,?_⟩
  simp only [deleteCmd_run,ret_some,ne_eq,not_true,if_false,SqlExec.after,engine.mark,Option.map_some,
    Option.getD_some] at given
  exact (Prod.mk.inj given).2.symm

theorem refreshFileinfoWith_known (named : ∀ info ∈ filelistMap.flatMap Prod.snd, Named info)
    (fits : ∀ info ∈ filelistMap.flatMap Prod.snd, (updateFileText info).length ≤ sqlCmdMaxLen)
    (known : ∀ info ∈ filelistMap.flatMap Prod.snd, (table.countP fun row => row.key == info.key) = 1) :
    refreshFileinfoWith engine.exec type markFailed insertFailed updateFailed deleteFailed true filelistMap table =
      some (0,fileMarking.refresh (filelistMap.flatMap Prod.snd) table) := by
  have marked : ∀ info ∈ filelistMap.flatMap Prod.snd,
      ((table.map fileMarking.clear).countP fun row => row.key == info.key) = 1 := by
    intro info among
    rw [countP_key fileMarking.key_clear]
    exact known info among
  have looped : refreshFiles engine.exec type insertFailed updateFailed (filelistMap.flatMap Prod.snd)
      (table.map fileMarking.clear) = _ := refreshFiles_known named fits marked
  have start : engine.exec.after table markCmd = table.map fileMarking.clear := by
    rw [SqlExec.after,engine.mark]
    rfl
  rw [refreshFileinfoWith,start,looped,engine.mark,ret_some]
  simp only [Bool.not_true,Bool.false_eq_true,if_false,lt_irrefl,Option.map_some,deleteCmd_run,ret_some,ne_eq,
    not_true,SqlExec.after,Option.getD_some]
  rfl

end Runs

section Exact

variable {engine : FileEngine} {table : List FileRow} {infos : List BasicFileinfo}

theorem countP_rows (key : FileinfoKey) :
    (table.countP fun row => row.key == key) = (fileMarking.rows key table).length := by
  rw [List.countP_eq_length_filter,Lib.MarkSweep.Marking.rows]
  congr 1

theorem refreshed_rows (distinct : (infos.map BasicFileinfo.key).Nodup) {info : BasicFileinfo}
    (among : info ∈ infos) : fileMarking.rows info.key (fileMarking.refresh infos table) =
      (fileMarking.rows info.key table).map fun row =>
        { row with isInited := 1, filesize := toInt info.filesize } := by
  refine (Lib.MarkSweep.Marking.rows_refresh among).trans (List.map_congr_left fun row member => ?_)
  have same : fileMarking.keyRow row = fileMarking.keyEntry info := by
    simpa using (List.mem_filter.mp member).2
  exact Lib.MarkSweep.Marking.updates_touch distinct among same

variable {opened : Bool} {filelistMap : List (Int × List BasicFileinfo)}

theorem refreshed_refresh (distinct : (infos.map BasicFileinfo.key).Nodup) :
    Refreshed infos (0,fileMarking.refresh infos table) ↔
      ∀ info ∈ infos, (table.countP fun row => row.key == info.key) = 1 ∧ info.filesize < 2^31 := by
  constructor
  · intro refreshed info among
    obtain ⟨row,only,size⟩ := refreshed.listed info among
    rw [refreshed_rows distinct among] at only
    obtain ⟨before,there,rfl⟩ := List.map_eq_singleton_iff.mp only
    dsimp only at size
    rw [countP_rows,there]
    exact ⟨rfl,(toInt_same info.filesize).mp size⟩
  · intro known
    refine ⟨rfl,fun info among => ?_,fun row member => Lib.MarkSweep.Marking.mem_refresh member⟩
    obtain ⟨one,small⟩ := known info among
    rw [countP_rows] at one
    obtain ⟨before,there⟩ := List.length_eq_one_iff.mp one
    refine ⟨_,by rw [refreshed_rows distinct among,there,List.map_singleton],?_⟩
    dsimp only
    exact (toInt_same info.filesize).mpr small

end Exact

section Engine

def countFront : Text := text "select count(*) from FileinfoTable where filetype="

def updateFront : Text := text "update FileinfoTable set isInited=1, filesize="

/-- A key that a command ends with. -/
def readKey (command : Text) : Option FileinfoKey :=
  (quoted (text " and filename=\"") (command.dropWhile (· != 32))).bind fun (filename,back) =>
    if back = text "\";" ∨ back = text "\"" then some ⟨atoi command,filename⟩ else none

def readUpdate (command : Text) : Option (Int × FileinfoKey) :=
  ((command.dropWhile (· != 32)).dropPrefix? (text " where filetype=")).bind fun rest =>
    (readKey rest).map fun key => (atoi command,key)

/-- An insert never has the right number of values here, and any other command is an error. -/
def filesExec (table : List FileRow) (command : Text) : Option (List FileRow × List (Option Text)) :=
  if command = markCmd then some (table.map fun row => { row with isInited := 0 },[])
  else if command = text "delete from FileinfoTable where isInited = 0;" then
    some (table.filter fun row => row.isInited != 0,[])
  else
    match (command.dropPrefix? countFront).bind readKey with
    | some key => some (table,countAnswer (table.countP fun row => row.key == key))
    | none =>
      ((command.dropPrefix? updateFront).bind readUpdate).map fun (filesize,key) =>
        (table.map fun row => if row.key = key then { row with isInited := 1, filesize } else row,[])

variable {front rest string : Text} {table : List FileRow}

theorem front_ne {command : Text} (n : Nat) (inside : n ≤ front.length) (differ : front.take n ≠ command.take n) :
    front ++ rest ≠ command := by
  rintro rfl
  exact differ (List.take_append_of_le_length inside).symm

theorem dropWhile_number {value : Int} : (printInt value ++ 32 :: rest).dropWhile (· != 32) = 32 :: rest :=
  Lib.Spans.dropWhile_sep (printInt_plain (by decide) (by decide))

theorem atoi_number {value : Int} (isInt : IsInt value) : atoi (printInt value ++ 32 :: rest) = value :=
  atoi_printInt isInt fun char first => by
    obtain rfl := Option.some.inj first
    rfl

theorem quoted_open (plain : 34 ∉ string) : quoted front (front ++ string) = some (string,[]) := by
  have ended : string.dropWhile (· != 34) = [] :=
    List.dropWhile_eq_nil_iff.mpr fun char member => bne_iff_ne.mpr fun same => plain (same ▸ member)
  rw [quoted,List.dropPrefix?_append_of_beq _ (beq_self_eq_true front)]
  simp only [Option.map_some,Lib.Spans.takeWhile_absent plain,ended]

theorem readKey_literal {key : FileinfoKey} {back : Text} (name : Literal key.filename) (filetype : IsInt key.filetype)
    (ends : back = text "\";" ∨ back = text "\"") :
    readKey (printInt key.filetype ++ (text " and filename=\"" ++ key.filename ++ back)) = some key := by
  have opened : ∃ more, back = 34 :: more := by
    rcases ends with rfl | rfl
    · exact ⟨_,rfl⟩
    · exact ⟨_,rfl⟩
  obtain ⟨more,rfl⟩ := opened
  have spaced : text " and filename=\"" ++ key.filename ++ 34 :: more =
      32 :: (text "and filename=\"" ++ key.filename ++ 34 :: more) := rfl
  have read : quoted (text " and filename=\"") (text " and filename=\"" ++ key.filename ++ 34 :: more) =
      some (key.filename,34 :: more) := quoted_literal name.1
  rw [readKey,spaced,dropWhile_number,atoi_number filetype,← spaced,read]
  simp [ends]

theorem readKey_cut {filetype : Int} (plain : Literal string) :
    readKey (printInt filetype ++ (text " and filename=\"" ++ string)) = none := by
  have spaced : text " and filename=\"" ++ string = 32 :: (text "and filename=\"" ++ string) := rfl
  rw [readKey,spaced,dropWhile_number,← spaced,quoted_open plain.1]
  rfl

theorem readUpdate_number {filesize : Int} (size : IsInt filesize) :
    readUpdate (printInt filesize ++ (text " where filetype=" ++ rest)) =
      (readKey rest).map fun key => (filesize,key) := by
  have spaced : text " where filetype=" ++ rest = 32 :: (text "where filetype=" ++ rest) := rfl
  rw [readUpdate,spaced,dropWhile_number,atoi_number size,← spaced,
    List.dropPrefix?_append_of_beq _ (beq_self_eq_true (text " where filetype="))]
  rfl

theorem filesExec_count : filesExec table (countFront ++ rest) =
    (readKey rest).map fun key => (table,countAnswer (table.countP fun row => row.key == key)) := by
  have mark : countFront ++ rest ≠ markCmd := front_ne 1 (by decide) (by decide)
  have delete : countFront ++ rest ≠ text "delete from FileinfoTable where isInited = 0;" :=
    front_ne 1 (by decide) (by decide)
  have other : (countFront ++ rest).dropPrefix? updateFront = none := rfl
  rw [filesExec,if_neg mark,if_neg delete,List.dropPrefix?_append_of_beq _ (beq_self_eq_true countFront),other]
  cases read : readKey rest <;> simp [read]

theorem filesExec_update : filesExec table (updateFront ++ rest) =
    (readUpdate rest).map fun (filesize,key) =>
      (table.map fun row => if row.key = key then { row with isInited := 1, filesize } else row,[]) := by
  have mark : updateFront ++ rest ≠ markCmd := front_ne 36 (by decide) (by decide)
  have delete : updateFront ++ rest ≠ text "delete from FileinfoTable where isInited = 0;" :=
    front_ne 1 (by decide) (by decide)
  have other : (updateFront ++ rest).dropPrefix? countFront = none := rfl
  rw [filesExec,if_neg mark,if_neg delete,other,List.dropPrefix?_append_of_beq _ (beq_self_eq_true updateFront)]
  rfl

theorem filesExec_insert : filesExec table (insertFileFront ++ rest) = none := by
  have mark : insertFileFront ++ rest ≠ markCmd := front_ne 1 (by decide) (by decide)
  have delete : insertFileFront ++ rest ≠ text "delete from FileinfoTable where isInited = 0;" :=
    front_ne 1 (by decide) (by decide)
  rw [filesExec,if_neg mark,if_neg delete]
  rfl

def filesEngine : FileEngine where
  exec := filesExec
  mark := fun _ => rfl
  delete := fun _ => rfl
  count := fun table key back name filetype ends => by
    have command : fileExistFront key ++ key.filename ++ back =
        countFront ++ (printInt key.filetype ++ (text " and filename=\"" ++ key.filename ++ back)) := by
      simp [fileExistFront,countFront]
    rw [command,filesExec_count,readKey_literal name filetype ends]
    rfl
  countCut := fun table key string plain filetype => by
    have command : fileExistFront key ++ string =
        countFront ++ (printInt key.filetype ++ (text " and filename=\"" ++ string)) := by
      simp [fileExistFront,countFront]
    rw [command,filesExec_count,readKey_cut plain]
    rfl
  update := fun table info back name filetype ends => by
    have command : updateFileFront info ++ info.key.filename ++ back =
        updateFront ++ (printInt (toInt info.filesize) ++ (text " where filetype=" ++
          (printInt info.key.filetype ++ (text " and filename=\"" ++ info.key.filename ++ back)))) := by
      simp [updateFileFront,updateFront]
    rw [command,filesExec_update,readUpdate_number (toInt_isInt _),readKey_literal name filetype ends]
    rfl
  updateCut := fun table info string plain filetype => by
    have command : updateFileFront info ++ string =
        updateFront ++ (printInt (toInt info.filesize) ++ (text " where filetype=" ++
          (printInt info.key.filetype ++ (text " and filename=\"" ++ string)))) := by
      simp [updateFileFront,updateFront]
    rw [command,filesExec_update,readUpdate_number (toInt_isInt _),readKey_cut plain]
    rfl
  insert := fun table values n _ _ enough => by
    obtain ⟨k,rfl⟩ := Nat.exists_eq_add_of_le enough
    rw [insertFileText,List.append_assoc,List.take_length_add_append]
    exact filesExec_insert

def video (filename : Text) (filesize : Nat) : BasicFileinfo := ⟨⟨filetypeVideo,filename⟩,filesize,[],0⟩

theorem video_named : ∀ info ∈ [(filetypeVideo,[video (text "a") 5])].flatMap Prod.snd, Named info :=
  List.forall_mem_singleton.mpr ⟨by decide,by decide,by decide,by decide⟩

end Engine

end MoCodes.MoCloud.Server
