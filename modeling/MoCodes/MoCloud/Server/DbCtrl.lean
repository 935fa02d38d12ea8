import MoCodes.MoCloud.Server.ReqInfo
import Mathlib.Algebra.Order.Group.Int

/-! The user table as the two database layers ask for it, dbCtrlSqlite.cpp and dbCtrlMysql.cpp.
What the engine answers to a command, which other clients may have changed since the last one,
is left open; a column of a row that holds NULL is `none`. -/
namespace MoCodes.MoCloud.Server

def sqlCmdMaxLen : Nat := 256

/-- A command that `snprintf` has written into a buffer of `sqlCmdMaxLen` bytes. -/
def sqlCmd (command : Text) : Text := command.take (sqlCmdMaxLen-1)

def userExistCmd (username : Text) : Text :=
  sqlCmd (text "select count(*) from UserinfoTable where username=\"" ++ username ++ text "\";")

def fileExistCmd (key : FileinfoKey) : Text :=
  sqlCmd (text "select count(*) from FileinfoTable where filetype=" ++ text (toString key.filetype) ++
    text " and filename=\"" ++ key.filename ++ text "\";")

def selectPasswdCmd (username : Text) : Text :=
  sqlCmd (text "select password from UserinfoTable where username=\"" ++ username ++ text "\";")

def updateLoginTimeCmd (username : Text) (time : Int) : Text :=
  -- as the source has it; engines take it for a syntax error
  sqlCmd (text "update lastLoginTime=" ++ text (toString time) ++
    text " from UserinfoTable where username=\"" ++ username ++ text "\";")

/-- What fits into `char passwdDb[MOCLOUD_PASSWD_MAXLEN]` before its last byte is zeroed. -/
def storedPasswd (column : Text) : Text := (cString column).take (passwdMaxLen-1)

def wrongLengths (username passwd : Text) : Prop :=
  usernameMaxLen < username.length ∨ passwdMaxLen < passwd.length ∨ passwd.length < passwdMinLen

instance (username passwd : Text) : Decidable (wrongLengths username passwd) :=
  inferInstanceAs (Decidable (_ ∨ _ ∨ _))

/-- What the two layers learn from their engines in a call of `userLogin`. `isUserExist` is `none`
where `atoi` is given NULL, `passwdDb` is `none` without a row, `some none` if its column is NULL. -/
structure LogInAnswers where
  opened : Bool
  isUserExist : Option Bool
  selectRet : Int
  passwdDb : Option (Option Text)
  updateRet : Int

/-- `userLogin` of either layer; `none` if it reads through a NULL pointer. -/
def LogInAnswers.userLogin (answers : LogInAnswers) (username passwd : Text) : Option Int :=
  if !answers.opened then some (-1)
  else if wrongLengths username passwd then some LogInRet.others.code
  else answers.isUserExist.bind fun isExist =>
    if !isExist then some LogInRet.usernameDonotExist.code
    else if answers.selectRet < 0 then some LogInRet.others.code
    else
      match answers.passwdDb with
      | none => some LogInRet.others.code
      | some none => none
      | some (some passwdDb) =>
        if passwd ≠ passwdDb then some LogInRet.passwdWrong.code
        else if answers.updateRet < 0 then some LogInRet.others.code
        else some LogInRet.ok.code

/-- The user exists, the password that is read is the given one, and neither of the two last
commands fails with a negative code. -/
def LogInAnswers.Accept (answers : LogInAnswers) (passwd : Text) : Prop :=
  answers.isUserExist = some true ∧ 0 ≤ answers.selectRet ∧ answers.passwdDb = some (some passwd) ∧
    0 ≤ answers.updateRet

instance (answers : LogInAnswers) (passwd : Text) : Decidable (answers.Accept passwd) :=
  inferInstanceAs (Decidable (_ ∧ _ ∧ _ ∧ _))

section Verdict

variable {answers : LogInAnswers} {username passwd : Text} {ret : Int}

theorem code_nonneg (ret : LogInRet) : ¬ ret.code < 0 := by
  cases ret <;> decide

theorem userLogin_negative (asked : answers.userLogin username passwd = some ret) :
    ret < 0 ↔ answers.opened = false := by
  have positive : ∀ {verdict : LogInRet}, answers.opened = true → verdict.code = ret →
      (ret < 0 ↔ answers.opened = false) := by
    intro verdict opened value
    subst value
    simp [code_nonneg,opened]
  rw [LogInAnswers.userLogin] at asked
  rcases ite_eq_iff.mp asked with ⟨closed,value⟩ | ⟨opened,asked⟩
  · obtain rfl := Option.some.inj value
    simpa using closed
  replace opened : answers.opened = true := by simpa using opened
  rcases ite_eq_iff.mp asked with ⟨_,value⟩ | ⟨_,asked⟩
  · exact positive opened (Option.some.inj value)
  obtain ⟨isExist,_,asked⟩ := Option.bind_eq_some_iff.mp asked
  rcases ite_eq_iff.mp asked with ⟨_,value⟩ | ⟨_,asked⟩
  · exact positive opened (Option.some.inj value)
  rcases ite_eq_iff.mp asked with ⟨_,value⟩ | ⟨_,asked⟩
  · exact positive opened (Option.some.inj value)
  split at asked
  · exact positive opened (Option.some.inj asked)
  · cases asked
  · split_ifs at asked <;> exact positive opened (Option.some.inj asked)

theorem userLogin_ok (fits : ¬ wrongLengths username passwd) (opened : answers.opened = true) :
    answers.userLogin username passwd = some LogInRet.ok.code ↔ answers.Accept passwd := by
  obtain ⟨_,isUserExist,selectRet,passwdDb,updateRet⟩ := answers
  obtain rfl : _ = true := opened
  simp only [LogInAnswers.userLogin,LogInAnswers.Accept,Bool.not_true,Bool.false_eq_true,if_false,if_neg fits]
  rcases isUserExist with _ | _ | _
  · simp
  · simp [LogInRet.code]
  rcases lt_or_ge selectRet 0 with failed | selected
  · simp [failed,not_le.mpr failed,LogInRet.code]
  rcases passwdDb with _ | _ | passwdDb
  · simp [not_lt.mpr selected,LogInRet.code]
  · simp [not_lt.mpr selected]
  by_cases same : passwd = passwdDb
  · subst same
    rcases lt_or_ge updateRet 0 with failed | updated
    · simp [not_lt.mpr selected,failed,not_le.mpr failed,LogInRet.code]
    · simp [not_lt.mpr selected,not_lt.mpr updated,selected,updated]
  · simp [not_lt.mpr selected,same,Ne.symm same,LogInRet.code]

end Verdict

/-- What `sqlite3_exec` returns, and the first columns of the rows it shows the callback. -/
structure SqliteAnswer where
  ret : Int
  rows : List (Option Text)

/-- `opened`: `mpDb` is not NULL. -/
structure DbCtrlSqlite where
  opened : Bool
  sqlite3Exec : Text → SqliteAnswer

namespace DbCtrlSqlite

variable (db : DbCtrlSqlite)

def isExistCallback (_ : Int) : Option Text → Int
  | some column => if 0 < atoi column then 1 else 0
  | none => 0

def getPasswdCallback (_ : Text) : Option Text → Text
  | some column => storedPasswd column
  | none => []

def isExist (command : Text) : Bool :=
  if !db.opened then true -- `return -1` of a function of type `bool`
  else
    let answer := db.sqlite3Exec command
    if answer.ret ≠ 0 then false else answer.rows.foldl isExistCallback 0 != 0

def isUserExist (username : Text) : Bool := db.isExist (userExistCmd username)

def isFileExist (key : FileinfoKey) : Bool := db.isExist (fileExistCmd key)

def logInAnswers (username : Text) (time : Int) : LogInAnswers where
  opened := db.opened
  isUserExist := some (db.isUserExist username)
  selectRet := (db.sqlite3Exec (selectPasswdCmd username)).ret
  -- the buffer stays empty without a row
  passwdDb := some (some ((db.sqlite3Exec (selectPasswdCmd username)).rows.foldl getPasswdCallback []))
  updateRet := (db.sqlite3Exec (updateLoginTimeCmd username time)).ret

def userLogin (username passwd : Text) (time : Int) : Option Int :=
  (db.logInAnswers username time).userLogin username passwd

end DbCtrlSqlite

/-- What `mysql_query` returns, and the first columns of the rows of `mysql_store_result`, which
may be NULL. -/
structure MysqlAnswer where
  ret : Int
  result : Option (List (Option Text))

structure DbCtrlMysql where
  isDbOk : Bool
  mysqlQuery : Text → MysqlAnswer

namespace DbCtrlMysql

variable (db : DbCtrlMysql)

def onlyRow (answer : MysqlAnswer) : Option (Option Text) :=
  match answer.result with
  | some [row] => some row
  | _ => none

def isExist (command : Text) : Option Bool :=
  if !db.isDbOk then some true -- `return -1` of a function of type `bool`
  else
    let answer := db.mysqlQuery command
    if answer.ret ≠ 0 then some false
    else
      match onlyRow answer with
      | none => some false
      | some row => row.map fun column => atoi column != 0

def isUserExist (username : Text) : Option Bool := db.isExist (userExistCmd username)

def isFileExist (key : FileinfoKey) : Option Bool := db.isExist (fileExistCmd key)

def logInAnswers (username : Text) (time : Int) : LogInAnswers where
  opened := db.isDbOk
  isUserExist := db.isUserExist username
  selectRet := (db.mysqlQuery (selectPasswdCmd username)).ret
  passwdDb := (onlyRow (db.mysqlQuery (selectPasswdCmd username))).map (Option.map storedPasswd)
  updateRet := (db.mysqlQuery (updateLoginTimeCmd username time)).ret

def userLogin (username passwd : Text) (time : Int) : Option Int :=
  (db.logInAnswers username time).userLogin username passwd

end DbCtrlMysql

inductive DbCtrl where
  | sqlite (db : DbCtrlSqlite)
  | mysql (db : DbCtrlMysql)

namespace DbCtrl

def logInAnswers : DbCtrl → Text → Int → LogInAnswers
  | .sqlite db => db.logInAnswers
  | .mysql db => db.logInAnswers

def userLogin : DbCtrl → Text → Text → Int → Option Int
  | .sqlite db => db.userLogin
  | .mysql db => db.userLogin

def isFileExist : DbCtrl → FileinfoKey → Option Bool
  | .sqlite db,key => some (db.isFileExist key)
  | .mysql db,key => db.isFileExist key

theorem userLogin_answers (db : DbCtrl) (username passwd : Text) (time : Int) :
    db.userLogin username passwd time = (db.logInAnswers username time).userLogin username passwd := by
  cases db <;> rfl

end DbCtrl

end MoCodes.MoCloud.Server
