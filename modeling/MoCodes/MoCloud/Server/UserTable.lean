import MoCodes.Lib.Machine
import MoCodes.MoCloud.Server.Credentials
import MoCodes.MoFaceRec.DbRecords

/-! The table of users under any calls of either database layer: `insertUserinfo`, `deleteUserinfo`,
`getUserinfo`, `userLogin` and `userLogout` answer as a map from names to users does. -/
namespace MoCodes.MoCloud.Server
open Lib.Machine MoFaceRec.Records

/-- What is read of a row; the role is cast from any number. -/
structure ShownUserinfo where
  username : Text
  password : Text
  role : Int
  lastLogInTime : Int
  signUpTime : Int
  deriving DecidableEq

/-- The number before the next comma, and what follows it and its blank. -/
def commaNumber (numbers : Text) : Text × Text :=
  (numbers.takeWhile (· != 44),(numbers.dropWhile (· != 44)).drop 2)

/-- The columns of a row as an engine shows them. -/
def UserRow.columns (row : UserRow) : List Text :=
  let (role,times) := commaNumber row.numbers
  let (lastLogInTime,signUpTime) := commaNumber times
  [row.username,row.password,role,lastLogInTime,signUpTime]

/-- `getUserinfoCallback`, and the same lines of `DbCtrlMysql::getUserinfo`. -/
def readUserinfo : List Text → Option ShownUserinfo
  | username :: password :: role :: lastLogInTime :: signUpTime :: _ =>
    some ⟨cString username,cString password,atoi role,atol lastLogInTime,atol signUpTime⟩
  | _ => none

def selectUserFront : Text := text "select * from UserinfoTable where username=\""

def deleteUserFront : Text := text "delete from UserinfoTable where username=\""

def selectUserCmd (username : Text) : Text := sqlCmd (selectUserFront ++ username ++ text "\";")

def deleteUserCmd (username : Text) : Text := sqlCmd (deleteUserFront ++ username ++ text "\";")

/-- An engine that also deletes, and shows whole rows. -/
structure UserStore extends UserEngine where
  showRows : List UserRow → Text → Option (List (List Text))
  shown : ∀ table username, Literal username →
    showRows table (selectUserFront ++ username ++ text "\";") =
      some ((table.filter fun row => row.username == username).map UserRow.columns)
  delete : ∀ table username, Literal username →
    exec table (deleteUserFront ++ username ++ text "\";") =
      some (table.filter fun row => !(row.username == username),[])
  /-- `update .. from` is a syntax error -/
  update : ∀ table username time, Literal username → exec table (updateLoginTimeCmd username time) = none

section Calls

variable (opened : Bool) (store : UserStore) (table : List UserRow) (username : Text)

/-- `deleteUserinfo` of either layer, with its negative codes. -/
def deleteUserinfoWith (isUserExist : Option Bool) (ret badLength missing failed : Int) (after : List UserRow) :
    Option (Int × List UserRow) :=
  if !opened then some (-1,table)
  else if usernameMaxLen < username.length then some (badLength,table)
  else isUserExist.map fun isExist =>
    if !isExist then (missing,table) else (if ret < 0 then failed else 0,after)

def DbCtrlSqlite.deleteUserinfo : Option (Int × List UserRow) :=
  let db := DbCtrlSqlite.on opened (store.exec table)
  deleteUserinfoWith opened table username (some (db.isUserExist username))
    (db.sqlite3Exec (deleteUserCmd username)).ret (-1) (-2) (-3) (store.exec.after table (deleteUserCmd username))

def DbCtrlMysql.deleteUserinfo : Option (Int × List UserRow) :=
  let db := DbCtrlMysql.on opened (store.exec table)
  deleteUserinfoWith opened table username (db.isUserExist username)
    (db.mysqlQuery (deleteUserCmd username)).ret (-2) (-3) (-4) (store.exec.after table (deleteUserCmd username))

/-- The code, and what is put into `info`. A row is read by the callback. -/
def DbCtrlSqlite.getUserinfo : Option (Int × Option ShownUserinfo) :=
  let db := DbCtrlSqlite.on opened (store.exec table)
  if !opened then some (-1,none)
  else if !db.isUserExist username then some (-1,none)
  else
    match store.showRows table (selectUserCmd username) with
    | none => some (0,none) -- SQLITE_ERROR is not negative
    | some rows => (rows.mapM readUserinfo).map fun infos => (0,infos.getLast?)

/-- `mysql_store_result` gives NULL after an error. -/
def DbCtrlMysql.getUserinfo : Option (Int × Option ShownUserinfo) :=
  if !opened then some (-1,none)
  else
    match store.showRows table (selectUserCmd username) with
    | none => some (-3,none)
    | some [row] => (readUserinfo row).map fun info => (0,some info)
    | some _ => some (-4,none)

def userLogoutWith (isUserExist : Option Bool) : Option Int :=
  if !opened then some (-1)
  else if usernameMaxLen < username.length then some LogInRet.others.code
  else isUserExist.map fun isExist => if !isExist then LogInRet.usernameDonotExist.code else 0

def DbCtrlSqlite.userLogout : Option Int :=
  userLogoutWith opened username (some ((DbCtrlSqlite.on opened (store.exec table)).isUserExist username))

def DbCtrlMysql.userLogout : Option Int :=
  userLogoutWith opened username ((DbCtrlMysql.on opened (store.exec table)).isUserExist username)

namespace UsedDbType

def deleteUserinfo : UsedDbType → Option (Int × List UserRow)
  | .sqlite => DbCtrlSqlite.deleteUserinfo opened store table username
  | .mysql => DbCtrlMysql.deleteUserinfo opened store table username

def getUserinfo : UsedDbType → Option (Int × Option ShownUserinfo)
  | .sqlite => DbCtrlSqlite.getUserinfo opened store table username
  | .mysql => DbCtrlMysql.getUserinfo opened store table username

def userLogout : UsedDbType → Option Int
  | .sqlite => DbCtrlSqlite.userLogout opened store table username
  | .mysql => DbCtrlMysql.userLogout opened store table username

end UsedDbType

end Calls

inductive UserCall where
  | insertUserinfo (info : DbUserinfo)
  | deleteUserinfo (username : Text)
  | getUserinfo (username : Text)
  | userLogin (username passwd : Text) (time : Int)
  | userLogout (username : Text)

/-- Every string stands for itself between quotes, and a name that is looked up fits its command. -/
def UserCall.Plain : UserCall → Prop
  | .insertUserinfo info => Literal info.username ∧ Literal info.password
  | .deleteUserinfo username => Literal username
  | .getUserinfo username => Literal username ∧ username.length ≤ usernameMaxLen
  | .userLogin username _ _ => Literal username
  | .userLogout username => Literal username

instance : (call : UserCall) → Decidable call.Plain
  | .insertUserinfo info => inferInstanceAs (Decidable (Literal info.username ∧ Literal info.password))
  | .deleteUserinfo username => inferInstanceAs (Decidable (Literal username))
  | .getUserinfo username => inferInstanceAs (Decidable (Literal username ∧ username.length ≤ usernameMaxLen))
  | .userLogin username _ _ => inferInstanceAs (Decidable (Literal username))
  | .userLogout username => inferInstanceAs (Decidable (Literal username))

abbrev PlainCall := {call : UserCall // call.Plain}

/-- Either layer on an open database. -/
def userTable (type : UsedDbType) (store : UserStore) : Device (List UserRow) PlainCall (Int × Option ShownUserinfo)
  | table,⟨.insertUserinfo info,_⟩ =>
    (type.insertUserinfo true store.exec table info).map fun done => ((done.1,none),done.2)
  | table,⟨.deleteUserinfo username,_⟩ =>
    (type.deleteUserinfo true store table username).map fun done => ((done.1,none),done.2)
  | table,⟨.getUserinfo username,_⟩ => (type.getUserinfo true store table username).map fun done => (done,table)
  | table,⟨.userLogin username passwd time,_⟩ =>
    -- the update comes last
    let after := store.exec.after table (updateLoginTimeCmd username time)
    ((type.on true (store.exec table)).userLogin username passwd time).map fun ret =>
      ((ret,none),if ret = LogInRet.ok.code then after else table)
  | table,⟨.userLogout username,_⟩ => (type.userLogout true store table username).map fun ret => ((ret,none),table)

/-- The users by their names. -/
abbrev Users := Text → Option DbUserinfo

/-- The codes for a name of a wrong length, for a name that is there and for one that is not, and
what `getUserinfo` says of one that is not. -/
structure UserCodes where
  badLength : Int
  refused : Int
  unknown : Int

def UsedDbType.userCodes : UsedDbType → UserCodes
  | .sqlite => ⟨-1,-2,-1⟩
  | .mysql => ⟨-2,-3,-4⟩

def DbUserinfo.told (info : DbUserinfo) : ShownUserinfo :=
  ⟨info.username,info.password,info.role.code,info.lastLogInTime.toInt,info.signUpTime.toInt⟩

/-- A map of users. A login changes no user, and asks for the first 15 characters of the password. -/
def userMap (codes : UserCodes) : Device Users PlainCall (Int × Option ShownUserinfo)
  | users,⟨.insertUserinfo info,_⟩ =>
    some (if wrongLengths info.username info.password then ((codes.badLength,none),users)
      else if (users info.username).isSome then ((codes.refused,none),users)
      else ((0,none),Function.update users info.username (some info)))
  | users,⟨.deleteUserinfo username,_⟩ =>
    some (if usernameMaxLen < username.length then ((codes.badLength,none),users)
      else if (users username).isSome then ((0,none),Function.update users username none)
      else ((codes.refused,none),users))
  | users,⟨.getUserinfo username,_⟩ =>
    some (match users username with
      | some info => ((0,some info.told),users)
      | none => ((codes.unknown,none),users))
  | users,⟨.userLogin username passwd _,_⟩ =>
    some ((if wrongLengths username passwd then LogInRet.others.code
      else match users username with
        | none => LogInRet.usernameDonotExist.code
        | some info =>
          if passwd = info.password.take (passwdMaxLen-1) then LogInRet.ok.code
          else LogInRet.passwdWrong.code,none),users)
  | users,⟨.userLogout username,_⟩ =>
    some ((if usernameMaxLen < username.length then LogInRet.others.code
      else if (users username).isSome then 0 else LogInRet.usernameDonotExist.code,none),users)

section Rows

theorem commaNumber_printInt (value : Int) (rest : Text) :
    commaNumber (printInt value ++ (text ", " ++ rest)) = (printInt value,rest) := by
  have plain : (44 : UInt8) ∉ printInt value := printInt_plain (by decide) (by decide)
  have comma : text ", " ++ rest = 44 :: 32 :: rest := rfl
  rw [commaNumber,comma,Lib.Spans.takeWhile_sep plain,Lib.Spans.dropWhile_sep plain]
  rfl

theorem readUserinfo_columns {info : DbUserinfo} (name : Literal info.username) (word : Literal info.password) :
    readUserinfo info.row.columns = some info.told := by
  have numbers : info.numbers = printInt info.role.code ++ (text ", " ++ (printInt info.lastLogInTime.toInt ++
      (text ", " ++ printInt info.signUpTime.toInt))) := by
    simp only [DbUserinfo.numbers,List.append_assoc]
  have role : atoi (printInt info.role.code) = info.role.code := by
    cases info.role <;> decide
  have time (value : Int64) : atol (printInt value.toInt) = value.toInt :=
    atol_printInt value.le_toInt value.toInt_lt
  have first : cString info.username = info.username := Lib.Spans.takeWhile_absent name.2.2
  have second : cString info.password = info.password := Lib.Spans.takeWhile_absent word.2.2
  simp only [UserRow.columns,DbUserinfo.row,numbers,commaNumber_printInt,readUserinfo,first,second,role,time]
  rfl

end Rows

section Mapped

/-- A name has one row or none, which is that of its user. -/
structure Mapped (table : List UserRow) (users : Users) : Prop where
  rows : ∀ username, (table.filter fun row => row.username == username) = ((users username).map DbUserinfo.row).toList
  known : ∀ {username info}, users username = some info →
    info.username = username ∧ Literal info.password ∧ ¬ wrongLengths info.username info.password

variable {table : List UserRow} {users : Users} {username : Text} {store : UserStore}

theorem Mapped.countP (mapped : Mapped table users) (username : Text) :
    (table.countP fun row => row.username == username) = if (users username).isSome then 1 else 0 := by
  rw [List.countP_eq_length_filter,mapped.rows]
  cases users username <;> rfl

theorem Mapped.isUserExist (mapped : Mapped table users) (store : UserStore) (name : Literal username)
    (short : username.length ≤ usernameMaxLen) :
    (DbCtrlSqlite.on true (store.exec table)).isUserExist username = (users username).isSome ∧
      (DbCtrlMysql.on true (store.exec table)).isUserExist username = some (users username).isSome := by
  have counted := mapped.countP username
  obtain ⟨sqlite,mysql⟩ := isUserExist_on store.toUserEngine name short (by rw [counted]; split_ifs <;> decide)
  rw [sqlite,mysql,counted]
  cases users username with
  | none => exact ⟨rfl,rfl⟩
  | some info => exact ⟨rfl,rfl⟩

theorem Mapped.insert (mapped : Mapped table users) {info : DbUserinfo} (word : Literal info.password)
    (fits : ¬ wrongLengths info.username info.password) (fresh : users info.username = none) :
    Mapped (table ++ [info.row]) (Function.update users info.username (some info)) := by
  constructor
  · intro username
    rw [List.filter_append,mapped.rows]
    by_cases same : username = info.username
    · subst same
      rw [Function.update_self,fresh]
      simp [DbUserinfo.row]
    · rw [Function.update_of_ne same]
      simp [DbUserinfo.row,Ne.symm same]
  · intro username other there
    by_cases same : username = info.username
    · subst same
      rw [Function.update_self] at there
      obtain rfl := Option.some.inj there
      exact ⟨rfl,word,fits⟩
    · rw [Function.update_of_ne same] at there
      exact mapped.known there

theorem Mapped.delete (mapped : Mapped table users) (gone : Text) :
    Mapped (table.filter fun row => !(row.username == gone)) (Function.update users gone none) := by
  constructor
  · intro username
    by_cases same : username = gone
    · subst same
      rw [Function.update_self,List.filter_filter]
      simp
    · rw [Function.update_of_ne same,← mapped.rows,List.filter_filter]
      apply List.filter_congr
      intro row _
      by_cases named : row.username = username
      · simp [named,same]
      · simp [named]
  · intro username info there
    by_cases same : username = gone
    · rw [same,Function.update_self] at there
      cases there
    · rw [Function.update_of_ne same] at there
      exact mapped.known there

theorem Mapped.insertUserinfo (mapped : Mapped table users) (type : UsedDbType) (store : UserStore)
    {info : DbUserinfo} (name : Literal info.username) (word : Literal info.password) :
    type.insertUserinfo true store.exec table info =
      some (if wrongLengths info.username info.password then (type.userCodes.badLength,table)
        else if (users info.username).isSome then (type.userCodes.refused,table)
        else (0,table ++ [info.row])) := by
  by_cases wrong : wrongLengths info.username info.password
  · cases type <;> simp [UsedDbType.insertUserinfo,DbCtrlSqlite.insertUserinfo,DbCtrlMysql.insertUserinfo,
      insertUserinfoWith,wrong,UsedDbType.userCodes]
  obtain ⟨sqlite,mysql⟩ := mapped.isUserExist store name (Nat.le_of_not_lt (not_or.mp wrong).1)
  have inserted : store.exec.after table (insertUserCmd info) = table ++ [info.row] := by
    rw [SqlExec.after,insertUserCmd_fits wrong,store.insert table info name word]
    rfl
  obtain ⟨one,two⟩ := of_ret (store.exec table (insertUserCmd info))
  rw [if_neg wrong]
  cases type with
  | sqlite =>
    simp only [UsedDbType.insertUserinfo,DbCtrlSqlite.insertUserinfo,insertUserinfoWith,if_neg wrong,sqlite,inserted]
    simp [DbCtrlSqlite.on,not_lt.mpr one,UsedDbType.userCodes]
  | mysql =>
    simp only [UsedDbType.insertUserinfo,DbCtrlMysql.insertUserinfo,insertUserinfoWith,if_neg wrong,mysql,inserted]
    simp [DbCtrlMysql.on,not_lt.mpr two,UsedDbType.userCodes]

theorem deleteUserCmd_fits (short : username.length ≤ usernameMaxLen) :
    deleteUserCmd username = deleteUserFront ++ username ++ text "\";" := by
  refine sqlCmd_fits ?_
  have front : deleteUserFront.length = 42 := rfl
  have back : (text "\";").length = 2 := rfl
  simp only [List.length_append,front,back,sqlCmdMaxLen]
  simp only [usernameMaxLen] at short
  omega

theorem selectUserCmd_fits (short : username.length ≤ usernameMaxLen) :
    selectUserCmd username = selectUserFront ++ username ++ text "\";" := by
  refine sqlCmd_fits ?_
  have front : selectUserFront.length = 44 := rfl
  have back : (text "\";").length = 2 := rfl
  simp only [List.length_append,front,back,sqlCmdMaxLen]
  simp only [usernameMaxLen] at short
  omega

theorem Mapped.deleteUserinfo (mapped : Mapped table users) (type : UsedDbType) (store : UserStore)
    (name : Literal username) : type.deleteUserinfo true store table username =
      some (if usernameMaxLen < username.length then (type.userCodes.badLength,table)
        else if (users username).isSome then (0,table.filter fun row => !(row.username == username))
        else (type.userCodes.refused,table)) := by
  by_cases long : usernameMaxLen < username.length
  · cases type <;> simp [UsedDbType.deleteUserinfo,DbCtrlSqlite.deleteUserinfo,DbCtrlMysql.deleteUserinfo,
      deleteUserinfoWith,long,UsedDbType.userCodes]
  have short := Nat.le_of_not_lt long
  obtain ⟨sqlite,mysql⟩ := mapped.isUserExist store name short
  have deleted : store.exec.after table (deleteUserCmd username) =
      table.filter fun row => !(row.username == username) := by
    rw [SqlExec.after,deleteUserCmd_fits short,store.delete table username name]
    rfl
  obtain ⟨one,two⟩ := of_ret (store.exec table (deleteUserCmd username))
  rw [if_neg long]
  cases type with
  | sqlite =>
    simp only [UsedDbType.deleteUserinfo,DbCtrlSqlite.deleteUserinfo,deleteUserinfoWith,if_neg long,sqlite,deleted]
    cases users username <;> simp [DbCtrlSqlite.on,not_lt.mpr one,UsedDbType.userCodes]
  | mysql =>
    simp only [UsedDbType.deleteUserinfo,DbCtrlMysql.deleteUserinfo,deleteUserinfoWith,if_neg long,mysql,deleted]
    cases users username <;> simp [DbCtrlMysql.on,not_lt.mpr two,UsedDbType.userCodes]

theorem Mapped.getUserinfo (mapped : Mapped table users) (type : UsedDbType) (store : UserStore)
    (name : Literal username) (short : username.length ≤ usernameMaxLen) :
    type.getUserinfo true store table username = some (match users username with
      | some info => (0,some info.told)
      | none => (type.userCodes.unknown,none)) := by
  have shown := store.shown table username name
  rw [mapped.rows,← selectUserCmd_fits short] at shown
  obtain ⟨sqlite,_⟩ := mapped.isUserExist store name short
  cases there : users username with
  | none =>
    rw [there] at shown sqlite
    cases type with
    | sqlite => simp [UsedDbType.getUserinfo,DbCtrlSqlite.getUserinfo,sqlite,UsedDbType.userCodes]
    | mysql => simp [UsedDbType.getUserinfo,DbCtrlMysql.getUserinfo,shown,UsedDbType.userCodes]
  | some info =>
    obtain ⟨rfl,word,_⟩ := mapped.known there
    have read := readUserinfo_columns name word
    rw [there] at shown sqlite
    cases type with
    | sqlite => simp [UsedDbType.getUserinfo,DbCtrlSqlite.getUserinfo,sqlite,shown,read]
    | mysql => simp [UsedDbType.getUserinfo,DbCtrlMysql.getUserinfo,shown,read]

theorem Mapped.userLogin (mapped : Mapped table users) (type : UsedDbType) (store : UserStore)
    (name : Literal username) (passwd : Text) (time : Int) :
    (type.on true (store.exec table)).userLogin username passwd time =
      some (if wrongLengths username passwd then LogInRet.others.code
        else match users username with
          | none => LogInRet.usernameDonotExist.code
          | some info =>
            if passwd = info.password.take (passwdMaxLen-1) then LogInRet.ok.code else LogInRet.passwdWrong.code) := by
  cases there : users username with
  | none =>
    rw [DbCtrl.userLogin_answers]
    by_cases wrong : wrongLengths username passwd
    · cases type <;> simp [UsedDbType.on,DbCtrl.logInAnswers,DbCtrlSqlite.logInAnswers,DbCtrlMysql.logInAnswers,
        DbCtrlSqlite.on,DbCtrlMysql.on,LogInAnswers.userLogin,wrong]
    · obtain ⟨sqlite,mysql⟩ := mapped.isUserExist store name (Nat.le_of_not_lt (not_or.mp wrong).1)
      rw [there] at sqlite mysql
      have opened : (DbCtrlSqlite.on true (store.exec table)).opened = true ∧
          (DbCtrlMysql.on true (store.exec table)).isDbOk = true := ⟨rfl,rfl⟩
      cases type <;> simp [UsedDbType.on,DbCtrl.logInAnswers,DbCtrlSqlite.logInAnswers,DbCtrlMysql.logInAnswers,
        LogInAnswers.userLogin,wrong,sqlite,mysql,opened]
  | some info =>
    obtain ⟨rfl,word,fits⟩ := mapped.known there
    have only := mapped.rows info.username
    rw [there] at only
    have whole : cString info.password = info.password := Lib.Spans.takeWhile_absent word.2.2
    have stored : storedPasswd info.row.password = info.password.take (passwdMaxLen-1) :=
      congrArg (List.take (passwdMaxLen-1)) whole
    rw [userLogin_verdict store.toUserEngine type only name (Nat.le_of_not_lt (not_or.mp fits).1),stored]
    simp only [apply_ite LogInRet.code]

theorem Mapped.userLogout (mapped : Mapped table users) (type : UsedDbType) (store : UserStore)
    (name : Literal username) : type.userLogout true store table username =
      some (if usernameMaxLen < username.length then LogInRet.others.code
        else if (users username).isSome then 0 else LogInRet.usernameDonotExist.code) := by
  by_cases long : usernameMaxLen < username.length
  · cases type <;> simp [UsedDbType.userLogout,DbCtrlSqlite.userLogout,DbCtrlMysql.userLogout,userLogoutWith,long]
  obtain ⟨sqlite,mysql⟩ := mapped.isUserExist store name (Nat.le_of_not_lt long)
  cases type with
  | sqlite =>
    simp only [UsedDbType.userLogout,DbCtrlSqlite.userLogout,userLogoutWith,if_neg long,sqlite]
    cases users username <;> rfl
  | mysql =>
    simp only [UsedDbType.userLogout,DbCtrlMysql.userLogout,userLogoutWith,if_neg long,mysql]
    cases users username <;> rfl

end Mapped

/-- Either layer simulates the map. -/
theorem userTable_simulates (type : UsedDbType) (store : UserStore) :
    Simulates (userTable type store) (userMap type.userCodes) Mapped := by
  rintro table users ⟨call,plain⟩ mapped
  cases call with
  | insertUserinfo info =>
    obtain ⟨name,word⟩ := plain
    simp only [userTable,userMap,mapped.insertUserinfo type store name word,Option.map_some]
    split_ifs with wrong known
    · exact .right mapped
    · exact .right mapped
    · exact .right (mapped.insert word wrong (Option.not_isSome_iff_eq_none.mp known))
  | deleteUserinfo username =>
    simp only [userTable,userMap,mapped.deleteUserinfo type store plain,Option.map_some]
    split_ifs with long known
    · exact .right mapped
    · exact .right (mapped.delete username)
    · exact .right mapped
  | getUserinfo username =>
    obtain ⟨name,short⟩ := plain
    simp only [userTable,userMap,mapped.getUserinfo type store name short,Option.map_some]
    cases users username with
    | none => exact .right mapped
    | some info => exact .right mapped
  | userLogin username passwd time =>
    have unchanged : store.exec.after table (updateLoginTimeCmd username time) = table := by
      rw [SqlExec.after,store.update table username time plain]
      rfl
    simp only [userTable,userMap,mapped.userLogin type store plain,Option.map_some,unchanged,ite_self]
    exact .right mapped
  | userLogout username =>
    simp only [userTable,userMap,mapped.userLogout type store plain,Option.map_some]
    exact .right mapped

/-- From an empty table on, both database layers answer any calls with plain strings as a map from
names to users does, up to the codes of each layer. -/
theorem users_answer_as_map (type : UsedDbType) (store : UserStore) (calls : List PlainCall) :
    answers (userTable type store) [] calls = answers (userMap type.userCodes) (fun _ => none) calls := by
  apply simulates_answers (userTable_simulates type store)
  exact ⟨fun _ => rfl,fun there => by cases there⟩

section Store

def deletingExec (table : List UserRow) (command : Text) : Option (List UserRow × List (Option Text)) :=
  match quoted deleteUserFront command with
  | some (username,rest) =>
    if rest = text "\";" then some (table.filter fun row => !(row.username == username),[]) else none
  | none => usersExec table command

def usersStore : UserStore where
  exec := deletingExec
  count := fun table username name => by
    have other : quoted deleteUserFront (userExistFront ++ username ++ text "\";") = none := rfl
    simp only [deletingExec,other]
    exact usersEngine.count table username name
  select := fun table username name => by
    have other : quoted deleteUserFront (selectPasswdFront ++ username ++ text "\";") = none := rfl
    simp only [deletingExec,other]
    exact usersEngine.select table username name
  insert := fun table info name word => by
    have other : quoted deleteUserFront (insertUserText info.row) = none := rfl
    simp only [deletingExec,other]
    exact usersEngine.insert table info name word
  showRows := fun table command =>
    match quoted selectUserFront command with
    | some (username,rest) =>
      if rest = text "\";" then some ((table.filter fun row => row.username == username).map UserRow.columns) else none
    | none => none
  shown := fun table username name => by
    have read : quoted selectUserFront (selectUserFront ++ username ++ text "\";") = some (username,text "\";") :=
      quoted_literal name.1
    simp only [read,if_true]
  delete := fun table username name => by
    have read : quoted deleteUserFront (deleteUserFront ++ username ++ text "\";") = some (username,text "\";") :=
      quoted_literal name.1
    simp only [deletingExec,read,if_true]
  update := fun _ _ _ _ => rfl

/-- A user whose password has 16 characters logs in with the first 15 of them and not with all. -/
def longPasswd : DbUserinfo := ⟨text "eric",text "0123456789abcdef",.admin,5,3⟩

theorem users_answer_as_map_long_passwd : answers (userTable .sqlite usersStore) []
    [⟨.insertUserinfo longPasswd,by decide⟩,⟨.userLogin (text "eric") (text "0123456789abcdef") 9,by decide⟩,
      ⟨.userLogin (text "eric") (text "0123456789abcde") 9,by decide⟩,⟨.getUserinfo (text "eric"),by decide⟩] =
    some [(0,none),(3,none),(0,none),(0,some longPasswd.told)] := by
  rw [users_answer_as_map]
  decide +kernel

end Store

end MoCodes.MoCloud.Server
