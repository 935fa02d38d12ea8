import MoCodes.MoCloud.Server.SqlEngine

/-! A user who signs up and logs in: `insertUserinfo` and `userLogin` of both database layers on
an engine that keeps the table of users as literal strings. -/
namespace MoCodes.MoCloud.Server

inductive DbUserRole where
  | ordinary | admin

def DbUserRole.code : DbUserRole → Int
  | .ordinary => 0
  | .admin => 1

/-- DB_USERINFO; `time_t` has 64 bits. -/
structure DbUserinfo where
  username : Text
  password : Text
  role : DbUserRole
  lastLogInTime : Int64
  signUpTime : Int64

/-- The numbers at the end of a row, as they are written. -/
def DbUserinfo.numbers (info : DbUserinfo) : Text :=
  printInt info.role.code ++ text ", " ++ printInt info.lastLogInTime.toInt ++ text ", " ++
    printInt info.signUpTime.toInt

/-- A row of UserinfoTable. -/
structure UserRow where
  username : Text
  password : Text
  numbers : Text
  deriving DecidableEq

def DbUserinfo.row (info : DbUserinfo) : UserRow := ⟨info.username,info.password,info.numbers⟩

section Commands

def userExistFront : Text := text "select count(*) from UserinfoTable where username=\""

def selectPasswdFront : Text := text "select password from UserinfoTable where username=\""

def insertUserFront : Text := text "insert into UserinfoTable values(\""

def insertUserText (row : UserRow) : Text :=
  insertUserFront ++ row.username ++ text "\",\"" ++ row.password ++ text "\", " ++ row.numbers ++ text ");"

def insertUserCmd (info : DbUserinfo) : Text := sqlCmd (insertUserText info.row)

end Commands

/-- An engine that keeps the table of users as literal strings. -/
structure UserEngine where
  exec : SqlExec (List UserRow)
  count : ∀ table username, Literal username →
    exec table (userExistFront ++ username ++ text "\";") =
      some (table,countAnswer (table.countP fun row => row.username == username))
  select : ∀ table username, Literal username →
    exec table (selectPasswdFront ++ username ++ text "\";") =
      some (table,(table.filter fun row => row.username == username).map fun row => some row.password)
  insert : ∀ (table : List UserRow) (info : DbUserinfo), Literal info.username → Literal info.password →
    exec table (insertUserText info.row) = some (table ++ [info.row],[])

section Insert

/-- `insertUserinfo` of either layer, with its negative codes: what `isUserExist` gives, and what
the engine returns for the insert and makes of the table. -/
def insertUserinfoWith (opened : Bool) (isUserExist : Option Bool) (ret badLength existing failed : Int)
    (info : DbUserinfo) (table after : List UserRow) : Option (Int × List UserRow) :=
  if !opened then some (-1,table)
  else if wrongLengths info.username info.password then some (badLength,table)
  else isUserExist.map fun isExist =>
    if isExist then (existing,table)
    else (if ret < 0 then failed else 0,after)

variable (opened : Bool) (exec : SqlExec (List UserRow)) (table : List UserRow) (info : DbUserinfo)

def DbCtrlSqlite.insertUserinfo : Option (Int × List UserRow) :=
  let db := DbCtrlSqlite.on opened (exec table)
  insertUserinfoWith opened (some (db.isUserExist info.username)) (db.sqlite3Exec (insertUserCmd info)).ret
    (-1) (-2) (-3) info table (exec.after table (insertUserCmd info))

def DbCtrlMysql.insertUserinfo : Option (Int × List UserRow) :=
  let db := DbCtrlMysql.on opened (exec table)
  insertUserinfoWith opened (db.isUserExist info.username) (db.mysqlQuery (insertUserCmd info)).ret
    (-2) (-3) (-4) info table (exec.after table (insertUserCmd info))

def UsedDbType.insertUserinfo : UsedDbType → Option (Int × List UserRow)
  | .sqlite => DbCtrlSqlite.insertUserinfo opened exec table info
  | .mysql => DbCtrlMysql.insertUserinfo opened exec table info

end Insert

section Fits

theorem sqlCmd_fits {command : Text} (fits : command.length < sqlCmdMaxLen) : sqlCmd command = command :=
  List.take_of_length_le (Nat.le_sub_one_of_lt fits)

variable {username : Text}

theorem userExistCmd_fits (short : username.length ≤ usernameMaxLen) :
    userExistCmd username = userExistFront ++ username ++ text "\";" := by
  refine sqlCmd_fits ?_
  have front : userExistFront.length = 51 := rfl
  have back : (text "\";").length = 2 := rfl
  change (userExistFront ++ username ++ text "\";").length < sqlCmdMaxLen
  simp only [List.length_append,front,back,sqlCmdMaxLen]
  simp only [usernameMaxLen] at short
  omega

theorem selectPasswdCmd_fits (short : username.length ≤ usernameMaxLen) :
    selectPasswdCmd username = selectPasswdFront ++ username ++ text "\";" := by
  refine sqlCmd_fits ?_
  have front : selectPasswdFront.length = 51 := rfl
  have back : (text "\";").length = 2 := rfl
  change (selectPasswdFront ++ username ++ text "\";").length < sqlCmdMaxLen
  simp only [List.length_append,front,back,sqlCmdMaxLen]
  simp only [usernameMaxLen] at short
  omega

theorem numbers_length (info : DbUserinfo) : info.numbers.length ≤ 46 := by
  have role : (printInt info.role.code).length = 1 := by cases info.role <;> rfl
  have time : ∀ value : Int64, (printInt value.toInt).length ≤ 20 := by
    intro value
    have low := value.le_toInt
    have high := value.toInt_lt
    exact printInt_length_le (by decide) (by omega)
  have comma : (text ", ").length = 2 := rfl
  have first := time info.lastLogInTime
  have second := time info.signUpTime
  simp only [DbUserinfo.numbers,List.length_append,role,comma]
  omega

theorem insertUserCmd_fits {info : DbUserinfo} (fits : ¬ wrongLengths info.username info.password) :
    insertUserCmd info = insertUserText info.row := by
  refine sqlCmd_fits ?_
  have front : insertUserFront.length = 34 := rfl
  have middle : (text "\",\"").length = 3 := rfl
  have quoted : (text "\", ").length = 3 := rfl
  have back : (text ");").length = 2 := rfl
  have numbers := numbers_length info
  simp only [wrongLengths,not_or,not_lt,usernameMaxLen,passwdMaxLen] at fits
  simp only [insertUserText,DbUserinfo.row,List.length_append,front,middle,quoted,back,sqlCmdMaxLen]
  omega

end Fits

section Verdict

variable (engine : UserEngine) {table : List UserRow} {username : Text} {row : UserRow}

theorem isUserExist_on (name : Literal username) (short : username.length ≤ usernameMaxLen)
    (few : (table.countP fun row => row.username == username) ≤ 1) :
    (DbCtrlSqlite.on true (engine.exec table)).isUserExist username =
      decide (0 < table.countP fun row => row.username == username) ∧
    (DbCtrlMysql.on true (engine.exec table)).isUserExist username =
      some (decide (0 < table.countP fun row => row.username == username)) := by
  have counted : engine.exec table (userExistCmd username) =
      some (table,countAnswer (table.countP fun row => row.username == username)) := by
    rw [userExistCmd_fits short]
    exact engine.count table username name
  rw [DbCtrlSqlite.isUserExist,DbCtrlMysql.isUserExist,sqlite_isExist_count counted,mysql_isExist_count counted]
  generalize table.countP (fun row => row.username == username) = count at few
  obtain rfl | rfl : count = 0 ∨ count = 1 := by omega
  · exact ⟨by decide,by decide⟩
  · exact ⟨by decide,by decide⟩

theorem logInAnswers_on (type : UsedDbType)
    (only : (table.filter fun row => row.username == username) = [row])
    (name : Literal username) (short : username.length ≤ usernameMaxLen) (time : Int) :
    ∃ updateRet, 0 ≤ updateRet ∧ (type.on true (engine.exec table)).logInAnswers username time =
      ⟨true,some true,0,some (some (storedPasswd row.password)),updateRet⟩ := by
  have one : (table.countP fun row => row.username == username) = 1 := by
    rw [List.countP_eq_length_filter,only]
    rfl
  obtain ⟨sqlite,mysql⟩ := isUserExist_on engine name short one.le
  rw [one] at sqlite mysql
  have selected : engine.exec table (selectPasswdCmd username) = some (table,[some row.password]) := by
    rw [selectPasswdCmd_fits short,engine.select table username name,only]
    rfl
  have updated := of_ret (engine.exec table (updateLoginTimeCmd username time))
  cases type with
  | sqlite =>
    refine ⟨_,updated.1,?_⟩
    simp only [UsedDbType.on,DbCtrl.logInAnswers,DbCtrlSqlite.logInAnswers,sqlite]
    simp [DbCtrlSqlite.on,SqliteAnswer.of,selected,DbCtrlSqlite.getPasswdCallback]
  | mysql =>
    refine ⟨_,updated.2,?_⟩
    simp only [UsedDbType.on,DbCtrl.logInAnswers,DbCtrlMysql.logInAnswers,mysql]
    simp [DbCtrlMysql.on,MysqlAnswer.of,selected,DbCtrlMysql.onlyRow]

/-- What `userLogin` of either layer answers about a user with one row. -/
theorem userLogin_verdict (type : UsedDbType)
    (only : (table.filter fun row => row.username == username) = [row])
    (name : Literal username) (short : username.length ≤ usernameMaxLen) (passwd : Text) (time : Int) :
    (type.on true (engine.exec table)).userLogin username passwd time =
      some (if wrongLengths username passwd then LogInRet.others
        else if passwd = storedPasswd row.password then .ok else .passwdWrong).code := by
  obtain ⟨updateRet,fine,answers⟩ := logInAnswers_on engine type only name short time
  rw [DbCtrl.userLogin_answers,answers]
  by_cases wrong : wrongLengths username passwd
  · simp [LogInAnswers.userLogin,wrong]
  · by_cases same : passwd = storedPasswd row.password
    · subst same
      simp [LogInAnswers.userLogin,wrong,not_lt.mpr fine]
    · simp [LogInAnswers.userLogin,wrong,same]

theorem storedPasswd_literal {password : Text} (word : Literal password) (short : password.length < passwdMaxLen) :
    storedPasswd password = password := by
  have whole : cString password = password := Lib.Spans.takeWhile_absent word.2.2
  rw [storedPasswd,whole]
  exact List.take_of_length_le (Nat.le_sub_one_of_lt short)

end Verdict

section SignUp

variable {engine : UserEngine} {opened : Bool} {table after : List UserRow} {info : DbUserinfo}

theorem insertUserinfoWith_accepts {isUserExist : Option Bool} {ret badLength existing failed : Int}
    (negative : badLength < 0 ∧ existing < 0)
    (accepted : insertUserinfoWith opened isUserExist ret badLength existing failed info table after =
      some (0,table')) :
    opened = true ∧ ¬ wrongLengths info.username info.password ∧ table' = after := by
  rw [insertUserinfoWith] at accepted
  rcases ite_eq_iff.mp accepted with ⟨_,closed⟩ | ⟨isOpen,accepted⟩
  · simp at closed
  rcases ite_eq_iff.mp accepted with ⟨_,refused⟩ | ⟨fits,accepted⟩
  · simp only [Option.some.injEq,Prod.mk.injEq] at refused
    omega
  obtain ⟨isExist,_,given⟩ := Option.map_eq_some_iff.mp accepted
  rcases ite_eq_iff.mp given with ⟨_,known⟩ | ⟨_,given⟩
  · simp only [Prod.mk.injEq] at known
    omega
  · exact ⟨by simpa using isOpen,fits,(Prod.mk.inj given).2.symm⟩

theorem insertUserinfo_accepts (type : UsedDbType) (name : Literal info.username) (word : Literal info.password)
    (accepted : type.insertUserinfo opened engine.exec table info = some (0,after)) :
    opened = true ∧ ¬ wrongLengths info.username info.password ∧ after = table ++ [info.row] := by
  have inserted : ¬ wrongLengths info.username info.password →
      engine.exec.after table (insertUserCmd info) = table ++ [info.row] := by
    intro fits
    rw [SqlExec.after,insertUserCmd_fits fits,engine.insert table info name word]
    rfl
  cases type with
  | sqlite =>
    obtain ⟨isOpen,fits,rfl⟩ := insertUserinfoWith_accepts ⟨by decide,by decide⟩ accepted
    exact ⟨isOpen,fits,inserted fits⟩
  | mysql =>
    obtain ⟨isOpen,fits,rfl⟩ := insertUserinfoWith_accepts ⟨by decide,by decide⟩ accepted
    exact ⟨isOpen,fits,inserted fits⟩

/-- A new user with a password shorter than the longest logs in with it and with no other; a
password of a length that no user has is refused as such. -/
theorem userLogin_after_insert (type : UsedDbType) (name : Literal info.username) (word : Literal info.password)
    (fresh : ∀ row ∈ table, row.username ≠ info.username)
    (accepted : type.insertUserinfo opened engine.exec table info = some (0,after))
    (short : info.password.length < passwdMaxLen) (time : Int) :
    (type.on opened (engine.exec after)).userLogin info.username info.password time = some LogInRet.ok.code ∧
    ∀ passwd, passwd ≠ info.password →
      (type.on opened (engine.exec after)).userLogin info.username passwd time =
        some (if passwdMinLen ≤ passwd.length ∧ passwd.length ≤ passwdMaxLen then LogInRet.passwdWrong
          else .others).code := by
  obtain ⟨rfl,fits,rfl⟩ := insertUserinfo_accepts type name word accepted
  have others : (table.filter fun row => row.username == info.username) = [] :=
    List.filter_eq_nil_iff.mpr fun row member => by simpa using fresh row member
  have only : ((table ++ [info.row]).filter fun row => row.username == info.username) = [info.row] := by
    rw [List.filter_append,others]
    simp [DbUserinfo.row]
  have lengths := fits
  simp only [wrongLengths,not_or,not_lt] at lengths
  have verdict := userLogin_verdict engine type only name lengths.1
  have stored : storedPasswd info.row.password = info.password := storedPasswd_literal word short
  simp only [stored] at verdict
  refine ⟨by rw [verdict,if_neg fits,if_pos rfl],fun passwd other => ?_⟩
  rw [verdict,if_neg other]
  congr 2
  by_cases accepted : passwdMinLen ≤ passwd.length ∧ passwd.length ≤ passwdMaxLen
  · have right : ¬ wrongLengths info.username passwd := by
      simp only [wrongLengths]
      omega
    rw [if_neg right,if_pos accepted]
  · have wrong : wrongLengths info.username passwd := by
      simp only [wrongLengths]
      omega
    rw [if_pos wrong,if_neg accepted]

end SignUp

section Engine

/-- What follows `front` up to the next quote, and what stands from there on. -/
def quoted (front command : Text) : Option (Text × Text) :=
  (command.dropPrefix? front).map fun rest => (rest.takeWhile (· != 34),rest.dropWhile (· != 34))

theorem quoted_literal {front string rest : Text} (plain : 34 ∉ string) :
    quoted front (front ++ string ++ 34 :: rest) = some (string,34 :: rest) := by
  rw [quoted,List.append_assoc,List.dropPrefix?_append_of_beq _ (beq_self_eq_true front)]
  simp only [Option.map_some,Lib.Spans.takeWhile_sep plain,Lib.Spans.dropWhile_sep plain]

/-- Counts, selects and inserts; any other command is an error. -/
def usersExec (table : List UserRow) (command : Text) : Option (List UserRow × List (Option Text)) :=
  match quoted userExistFront command,quoted selectPasswdFront command,quoted insertUserFront command with
  | some (username,rest),_,_ =>
    if rest = text "\";" then some (table,countAnswer (table.countP fun row => row.username == username)) else none
  | none,some (username,rest),_ =>
    if rest = text "\";" then
      some (table,(table.filter fun row => row.username == username).map fun row => some row.password)
    else none
  | none,none,some (username,rest) =>
    match quoted (text "\",\"") rest with
    | none => none
    | some (password,rest) =>
      (rest.dropPrefix? (text "\", ")).map fun numbers =>
        (table ++ [⟨username,password,numbers.take (numbers.length-2)⟩],[])
  | none,none,none => none

def usersEngine : UserEngine where
  exec := usersExec
  count := fun table username name => by
    have read : quoted userExistFront (userExistFront ++ username ++ text "\";") = some (username,text "\";") :=
      quoted_literal name.1
    simp only [usersExec,read,if_true]
  select := fun table username name => by
    have other : quoted userExistFront (selectPasswdFront ++ username ++ text "\";") = none := rfl
    have read : quoted selectPasswdFront (selectPasswdFront ++ username ++ text "\";") =
        some (username,text "\";") := quoted_literal name.1
    simp only [usersExec,other,read,if_true]
  insert := fun table info name word => by
    let tail : Text := text "\", " ++ (info.numbers ++ text ");")
    have written : insertUserText info.row =
        insertUserFront ++ info.username ++ (text "\",\"" ++ info.password ++ tail) := by
      simp [insertUserText,DbUserinfo.row,tail]
    have first : quoted userExistFront (insertUserText info.row) = none := rfl
    have second : quoted selectPasswdFront (insertUserText info.row) = none := rfl
    have third : quoted insertUserFront (insertUserText info.row) =
        some (info.username,text "\",\"" ++ info.password ++ tail) := by
      rw [written]
      exact quoted_literal name.1
    have password : quoted (text "\",\"") (text "\",\"" ++ info.password ++ tail) = some (info.password,tail) :=
      quoted_literal word.1
    have numbers : tail.dropPrefix? (text "\", ") = some (info.numbers ++ text ");") :=
      List.dropPrefix?_append_of_beq _ (beq_self_eq_true _)
    have cut : (info.numbers ++ text ");").take ((info.numbers ++ text ");").length-2) = info.numbers := by
      simp [text]
    simp only [usersExec,first,second,third,password,numbers,cut,Option.map_some]
    rfl

def eric : DbUserinfo := ⟨text "eric",text "secret",.ordinary,0,0⟩

theorem userLogin_after_insert_eric :
    (UsedDbType.mysql.on true (usersEngine.exec [eric.row])).userLogin eric.username eric.password 0 =
      some LogInRet.ok.code ∧
    ∀ passwd, passwd ≠ eric.password →
      (UsedDbType.mysql.on true (usersEngine.exec [eric.row])).userLogin eric.username passwd 0 =
        some (if passwdMinLen ≤ passwd.length ∧ passwd.length ≤ passwdMaxLen then LogInRet.passwdWrong
          else .others).code :=
  userLogin_after_insert .mysql (by decide) (by decide) (List.forall_mem_nil _) (by decide) (by decide) 0

/-- Another password that is too short is not taken for a wrong one. -/
theorem short_passwd_others : text "x" ≠ eric.password ∧
    UsedDbType.mysql.insertUserinfo true usersEngine.exec [] eric = some (0,[eric.row]) ∧
    (UsedDbType.mysql.on true (usersEngine.exec [eric.row])).userLogin eric.username (text "x") 0 =
      some LogInRet.others.code ∧
    UsedDbType.sqlite.insertUserinfo true usersEngine.exec [] eric = some (0,[eric.row]) ∧
    (UsedDbType.sqlite.on true (usersEngine.exec [eric.row])).userLogin eric.username (text "x") 0 =
      some LogInRet.others.code ∧ LogInRet.others.code ≠ LogInRet.passwdWrong.code := by
  decide +kernel

end Engine

end MoCodes.MoCloud.Server
