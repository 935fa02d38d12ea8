import MoCodes.Lib.Spans
import MoCodes.MoCloud.PrintInt

/-! An SQL engine behind either database layer: what it does with the text of a command on a
table, and what mysql_query and sqlite3_exec make of that. -/
namespace MoCodes.MoCloud.Server

/-- The table after a command and the first columns of the rows it shows, or an error. -/
abbrev SqlExec (Table : Type) := Table → Text → Option (Table × List (Option Text))

/-- A string that stands for itself between the quotes of a command. -/
def Literal (string : Text) : Prop := 34 ∉ string ∧ 92 ∉ string ∧ 0 ∉ string

instance (string : Text) : Decidable (Literal string) := inferInstanceAs (Decidable (_ ∧ _))

/-- USED_DB_TYPE. -/
inductive UsedDbType where
  | sqlite | mysql
  deriving DecidableEq

section Answers

variable {Table : Type} (ran : Option (Table × List (Option Text)))

/-- SQLITE_ERROR is 1. -/
def SqliteAnswer.of : SqliteAnswer :=
  match ran with
  | some (_,rows) => ⟨0,rows⟩
  | none => ⟨1,[]⟩

def MysqlAnswer.of : MysqlAnswer :=
  match ran with
  | some (_,rows) => ⟨0,some rows⟩
  | none => ⟨1,none⟩

theorem of_ret : 0 ≤ (SqliteAnswer.of ran).ret ∧ 0 ≤ (MysqlAnswer.of ran).ret := by
  cases ran with
  | none => exact ⟨Int.zero_le_ofNat 1,Int.zero_le_ofNat 1⟩
  | some _ => exact ⟨le_rfl,le_rfl⟩

end Answers

variable {Table : Type}

def DbCtrlSqlite.on (opened : Bool) (run : Text → Option (Table × List (Option Text))) : DbCtrlSqlite :=
  ⟨opened,fun command => .of (run command)⟩

def DbCtrlMysql.on (isDbOk : Bool) (run : Text → Option (Table × List (Option Text))) : DbCtrlMysql :=
  ⟨isDbOk,fun command => .of (run command)⟩

def UsedDbType.on (opened : Bool) (run : Text → Option (Table × List (Option Text))) : UsedDbType → DbCtrl
  | .sqlite => .sqlite (.on opened run)
  | .mysql => .mysql (.on opened run)

/-- The table that a command leaves; an error leaves it as it is. -/
def SqlExec.after (exec : SqlExec Table) (table : Table) (command : Text) : Table :=
  ((exec table command).map Prod.fst).getD table

/-- The answer of `select count(*)`. -/
def countAnswer (count : Nat) : List (Option Text) := [some (printInt count)]

section Exist

variable {run : Text → Option (Table × List (Option Text))} {command : Text} {table : Table}

theorem sqlite_isExist_count {count : Nat} (ran : run command = some (table,countAnswer count)) :
    (DbCtrlSqlite.on true run).isExist command = decide (0 < atoi (printInt count)) := by
  by_cases positive : 0 < atoi (printInt count) <;>
    simp [DbCtrlSqlite.isExist,DbCtrlSqlite.on,SqliteAnswer.of,ran,countAnswer,
      DbCtrlSqlite.isExistCallback,positive]

theorem mysql_isExist_count {count : Nat} (ran : run command = some (table,countAnswer count)) :
    (DbCtrlMysql.on true run).isExist command = some (atoi (printInt count) != 0) := by
  simp [DbCtrlMysql.isExist,DbCtrlMysql.on,MysqlAnswer.of,ran,countAnswer,DbCtrlMysql.onlyRow]

end Exist

end MoCodes.MoCloud.Server
