import MoCodes.Lib.Transition
import MoCodes.Utils.Ini
import Mathlib.Data.UInt

/-! moLogger.c. Its parser is a copy of the one of the utilities that differs for a file it does not
accept: the list is freed and handed out all the same. The calls come one at a time. -/
namespace MoCodes.Logger
open Utils.Ini Lib.Transition

def maxDirpathLen : Nat := 256

def maxLogLen : Nat := 1024

def text (string : String) : Text := string.toList.map fun char => UInt8.ofNat char.toNat

def gStrValue : List Text := [text "debug",text "info",text "warn",text "error",text "fatal"]

def isValidLevel (level : Int) : Bool := 0 ≤ level && level ≤ 4

/-- The number of a level, or a negative number. -/
def getLevelFromValue (pLevel : Text) : Int :=
  if gStrValue.elem pLevel then gStrValue.idxOf pLevel else -2

/-- What gpSecHeadNode points to. -/
inductive SecHead where
  | null
  | list (sections : Sections)
  | freed
  deriving DecidableEq

def iniParserInit (file : Option (List UInt8)) : SecHead :=
  match file with
  | none => .null
  | some content =>
    let result := getSectionList content
    if result.1 ≠ 0 then .freed else .list result.2

structure MoLogger where
  gIsInited : Bool
  gpSecHeadNode : SecHead
  gFileDir : Text
  gInitCnt : UInt32
  deriving DecidableEq

/-- What the system answers to an init: whether the directory lists the file, whether there is
memory for its path, and what is in it. -/
structure ConfAnswers where
  isConfFileExist : Bool
  malloc : Bool
  file : Option (List UInt8)

/-- A call of logger. The arguments stand for what vsnprintf makes of a format with them. -/
structure LogCall where
  moduleName : Option Text
  level : Int
  curTime : Text
  filename : Text
  funcname : Text
  lineNo : UInt32
  fmt : Text
  args : Text → Text
  /-- the local file can be opened -/
  opens : Bool

inductive LogOutput where
  | nothing
  | localFile (filepath bytes : Text)
  | stdout (bytes : Text)
  deriving DecidableEq

namespace LogCall

variable (call : LogCall)

def curLoginfo : Text :=
  let front := call.curTime ++ text "[" ++ gStrValue.getD call.level.toNat [] ++ text "]:" ++ call.filename
  let place := text ", " ++ call.funcname ++ text ", " ++ text (toString call.lineNo.toNat) ++ text "  "
  let fmtbuf := (front ++ place ++ call.fmt).take (maxLogLen-1)
  (call.args fmtbuf).take (maxLogLen-1)

/-- The log of a module goes to its local file or, the rest of the buffer with it, to stdout. -/
def output (moduleName : Text) (sections : Sections) : LogOutput :=
  let (ret,value) := moUtils_Ini_GetAttrValue (some moduleName) (some (text "level")) (some sections)
  if ret ≠ 0 then .nothing
  else
    let configLevel := getLevelFromValue (value.getD [])
    if configLevel < 0 ∨ call.level < configLevel then .nothing
    else
      let (ret,filepath) := moUtils_Ini_GetAttrValue (some moduleName) (some (text "localfile")) (some sections)
      if ret = 0 then
        if call.opens then .localFile (filepath.getD []) (call.curLoginfo.takeWhile (· != 0)) else .nothing
      else .stdout (call.curLoginfo.takeD maxLogLen 0)

end LogCall

namespace MoLogger

variable (log : MoLogger)

/-- A call without a result reads, frees or writes memory that is not there for it. -/
def moLoggerInit (fileDir : Option Text) (answers : ConfAnswers) : Option (Int × MoLogger) :=
  match fileDir with
  | none => some (-1,log)
  | some fileDir =>
    if log.gIsInited then
      if fileDir = log.gFileDir then some (0,{log with gInitCnt := log.gInitCnt+1}) else some (-2,log)
    else if answers.isConfFileExist = false then some (-3,log)
    else if answers.malloc = false then some (-4,log)
    else
      let gpSecHeadNode := iniParserInit answers.file
      if gpSecHeadNode = .null then some (-5,{log with gpSecHeadNode := .null})
      -- strcpy to gFileDir
      else if maxDirpathLen ≤ fileDir.length then none
      else some (0,⟨true,gpSecHeadNode,fileDir,log.gInitCnt+1⟩)

def logger (call : LogCall) : Option LogOutput :=
  match call.moduleName with
  | none => some .nothing
  | some moduleName =>
    if isValidLevel call.level = false then some .nothing
    else if log.gIsInited = false then some .nothing
    else
      match log.gpSecHeadNode with
      | .null => some .nothing
      | .freed => none
      | .list sections => some (call.output moduleName sections)

def moLoggerUnInit : Option (Int × MoLogger) :=
  if log.gIsInited = false then some (0,log)
  else if log.gInitCnt-1 ≠ 0 then some (0,{log with gInitCnt := log.gInitCnt-1})
  else if log.gpSecHeadNode = .freed then none
  else some (0,⟨false,.null,[],0⟩)

end MoLogger

inductive LoggerCall where
  | init (fileDir : Option Text) (answers : ConfAnswers)
  | log (call : LogCall)
  | unInit

inductive LoggerAnswer where
  | ret (code : Int)
  | written (output : LogOutput)
  deriving DecidableEq

def MoLogger.step (log : MoLogger) : LoggerCall → Option (LoggerAnswer × MoLogger)
  | .init fileDir answers => (log.moLoggerInit fileDir answers).map fun done => (.ret done.1,done.2)
  | .log call => (log.logger call).map fun output => (.written output,log)
  | .unInit => log.moLoggerUnInit.map fun done => (.ret done.1,done.2)

/-- A directory in use, what its file says, and how many use it. -/
structure InUse where
  fileDir : Text
  sections : Sections
  users : Nat

def dueOutput (inUse : Option InUse) (call : LogCall) : LogOutput :=
  match call.moduleName,inUse with
  | some moduleName,some held =>
    if isValidLevel call.level then call.output moduleName held.sections else .nothing
  | _,_ => .nothing

/-- What the calls are for: the first init loads, the last unInit lets go. -/
def useStep (inUse : Option InUse) : LoggerCall → LoggerAnswer × Option InUse
  | .init none _ => (.ret (-1),inUse)
  | .init (some fileDir) answers =>
    match inUse with
    | some held =>
      if fileDir = held.fileDir then (.ret 0,some {held with users := held.users+1}) else (.ret (-2),inUse)
    | none =>
      if answers.isConfFileExist = false then (.ret (-3),none)
      else if answers.malloc = false then (.ret (-4),none)
      else
        match answers.file with
        | none => (.ret (-5),none)
        | some content => (.ret 0,some ⟨fileDir,(getSectionList content).2,1⟩)
  | .log call => (.written (dueOutput inUse call),inUse)
  | .unInit => (.ret 0,inUse.bind fun held => if held.users ≤ 1 then none else some {held with users := held.users-1})

/-- The logger, `none` once it has gone wrong, beside its purpose, each with its answers. -/
structure Compared where
  log : Option MoLogger
  answers : List LoggerAnswer
  inUse : Option InUse
  expected : List LoggerAnswer

def compared : System Compared LoggerCall where
  Enabled _ _ := True
  next both call :=
    let due := useStep both.inUse call
    match both.log.bind (MoLogger.step · call) with
    | none => ⟨none,both.answers,due.2,both.expected ++ [due.1]⟩
    | some done => ⟨some done.2,both.answers ++ [done.1],due.2,both.expected ++ [due.1]⟩

def unused : Compared := ⟨some ⟨false,.null,[],0⟩,[],none,[]⟩

/-- The answers were as they should be, and what is in use is there. -/
def Serves (both : Compared) : Prop :=
  ∃ log, both.log = some log ∧ both.answers = both.expected ∧ log.gIsInited = both.inUse.isSome ∧
    log.gpSecHeadNode ≠ .freed

/-- A file that is loaded is accepted and its directory fits, and not one of more users is taken for
the last. -/
def wellUsed (both : Compared) : LoggerCall → Prop
  | .init (some fileDir) answers => both.inUse = none → answers.isConfFileExist = true → answers.malloc = true →
      ∀ content, answers.file = some content → (getSectionList content).1 = 0 ∧ fileDir.length < maxDirpathLen
  | .unInit => ∀ held, both.inUse = some held → held.users % 2^32 = 1 → held.users = 1
  | _ => True

/-- The logger has loaded what is in use, and counts its users. -/
def Holds (log : MoLogger) : Option InUse → Prop
  | none => log.gIsInited = false ∧ log.gInitCnt = 0 ∧ log.gpSecHeadNode = .null
  | some held => log.gIsInited = true ∧ log.gFileDir = held.fileDir ∧ log.gpSecHeadNode = .list held.sections ∧
      log.gInitCnt = UInt32.ofNat held.users ∧ 1 ≤ held.users

def Steady (both : Compared) : Prop :=
  ∃ log, both.log = some log ∧ both.answers = both.expected ∧ Holds log both.inUse

variable {log : MoLogger} {inUse : Option InUse} {both : Compared}

theorem steady_serves (steady : Steady both) : Serves both := by
  obtain ⟨log,there,same,holds⟩ := steady
  refine ⟨log,there,same,?_⟩
  cases inUse : both.inUse with
  | none =>
    rw [inUse] at holds
    exact ⟨holds.1,by rw [holds.2.2]; exact SecHead.noConfusion⟩
  | some held =>
    rw [inUse] at holds
    exact ⟨holds.1,by rw [holds.2.2.1]; exact SecHead.noConfusion⟩

theorem logger_holds (holds : Holds log inUse) (call : LogCall) : log.logger call = some (dueOutput inUse call) := by
  unfold MoLogger.logger dueOutput
  cases call.moduleName with
  | none => rfl
  | some moduleName =>
    cases inUse with
    | none => simp [holds.1]
    | some held =>
      cases valid : isValidLevel call.level with
      | false => simp
      | true => simp [holds.1,holds.2.2.1]

theorem pred_users {users : Nat} (positive : 1 ≤ users) : UInt32.ofNat users - 1 = UInt32.ofNat (users-1) := by
  obtain ⟨fewer,rfl⟩ := Nat.exists_eq_add_of_le' positive
  rw [UInt32.ofNat_add,Nat.add_sub_cancel]
  exact UInt32.add_sub_cancel _ _

theorem pred_users_zero {users : Nat} (positive : 1 ≤ users) : UInt32.ofNat users - 1 = 0 ↔ users % 2^32 = 1 := by
  rw [pred_users positive,← UInt32.toNat_inj,UInt32.toNat_ofNat',UInt32.toNat_zero]
  omega

theorem unInit_holds (holds : Holds log inUse)
    (fits : ∀ held, inUse = some held → held.users % 2^32 = 1 → held.users = 1) :
    ∃ after, log.moLoggerUnInit = some (0,after) ∧ Holds after (useStep inUse .unInit).2 := by
  cases inUse with
  | none => exact ⟨log,by simp [MoLogger.moLoggerUnInit,holds.1],holds⟩
  | some held =>
    obtain ⟨inited,dir,list,count,positive⟩ := holds
    rw [MoLogger.moLoggerUnInit,if_neg (by simp [inited]),useStep,Option.bind_some]
    by_cases last : held.users % 2^32 = 1
    · have one := fits held rfl last
      rw [if_neg (by rw [count,not_not,pred_users_zero positive]; exact last),if_neg (by simp [list]),if_pos one.le]
      exact ⟨_,rfl,rfl,rfl,rfl⟩
    · have more : ¬ held.users ≤ 1 := by
        intro few
        rw [Nat.le_antisymm few positive] at last
        exact last rfl
      rw [if_pos (by rw [count,ne_eq,pred_users_zero positive]; exact last),if_neg more]
      refine ⟨_,rfl,inited,dir,list,?_,?_⟩
      · change log.gInitCnt-1 = UInt32.ofNat (held.users-1)
        rw [count,pred_users positive]
      · change 1 ≤ held.users-1
        omega

theorem init_holds (holds : Holds log inUse) (fileDir : Text) (answers : ConfAnswers)
    (fits : inUse = none → answers.isConfFileExist = true → answers.malloc = true →
      ∀ content, answers.file = some content → (getSectionList content).1 = 0 ∧ fileDir.length < maxDirpathLen) :
    ∃ ret after, log.moLoggerInit (some fileDir) answers = some (ret,after) ∧
      .ret ret = (useStep inUse (.init (some fileDir) answers)).1 ∧
      Holds after (useStep inUse (.init (some fileDir) answers)).2 := by
  simp only [MoLogger.moLoggerInit,useStep]
  cases inUse with
  | some held =>
    obtain ⟨inited,dir,list,count,positive⟩ := holds
    rw [if_pos inited]
    by_cases same : fileDir = held.fileDir
    · rw [if_pos (same.trans dir.symm)]
      simp only [if_pos same]
      refine ⟨_,_,rfl,rfl,inited,dir,list,?_,Nat.le_add_left 1 _⟩
      change log.gInitCnt+1 = UInt32.ofNat (held.users+1)
      rw [count,UInt32.ofNat_add]
      rfl
    · rw [if_neg (fun equal => same (equal.trans dir))]
      simp only [if_neg same]
      exact ⟨_,_,rfl,rfl,inited,dir,list,count,positive⟩
  | none =>
    obtain ⟨uninited,zero,null⟩ := holds
    rw [if_neg (by simp [uninited])]
    cases exist : answers.isConfFileExist with
    | false => exact ⟨_,_,rfl,rfl,uninited,zero,null⟩
    | true =>
      cases malloc : answers.malloc with
      | false => exact ⟨_,_,rfl,rfl,uninited,zero,null⟩
      | true =>
        cases file : answers.file with
        | none => exact ⟨_,_,rfl,rfl,uninited,zero,rfl⟩
        | some content =>
          obtain ⟨parsed,short⟩ := fits rfl exist malloc content file
          have head : iniParserInit (some content) = .list (getSectionList content).2 := if_neg (not_not.mpr parsed)
          simp only [Bool.true_eq_false,if_false,head,reduceCtorEq,if_neg (Nat.not_le_of_lt short)]
          refine ⟨_,_,rfl,rfl,rfl,rfl,rfl,?_,le_rfl⟩
          change log.gInitCnt+1 = 1
          rw [zero]
          rfl

theorem steady_next {call : LoggerCall} (steady : Steady both) (fits : wellUsed both call) :
    Steady (compared.next both call) := by
  obtain ⟨log,there,same,holds⟩ := steady
  have stepped {answer : LoggerAnswer} {after : MoLogger} (moved : log.step call = some (answer,after))
      (due : answer = (useStep both.inUse call).1) (kept : Holds after (useStep both.inUse call).2) :
      Steady (compared.next both call) := by
    refine ⟨after,?_,?_,?_⟩
    all_goals simp only [compared,there,Option.bind_some,moved]
    · rw [same,due]
    · exact kept
  cases call with
  | init fileDir answers =>
    cases fileDir with
    | none => exact stepped rfl rfl holds
    | some fileDir =>
      obtain ⟨ret,after,moved,due,kept⟩ := init_holds holds fileDir answers fits
      exact stepped (by rw [MoLogger.step,moved]; rfl) due kept
  | log call => exact stepped (by rw [MoLogger.step,logger_holds holds call]; rfl) rfl holds
  | unInit =>
    obtain ⟨after,moved,kept⟩ := unInit_holds holds fits
    exact stepped (by rw [MoLogger.step,moved]; rfl) rfl kept

theorem compared_log (there : both.log = some log) (call : LoggerCall) :
    (compared.next both call).log = (log.step call).map Prod.snd ∧
      (compared.next both call).inUse = (useStep both.inUse call).2 := by
  simp only [compared,there,Option.bind_some]
  cases log.step call with
  | none => exact ⟨rfl,rfl⟩
  | some done => exact ⟨rfl,rfl⟩

/-- What is loaded without being accepted has been freed, and a name that is too long is copied over
its buffer. -/
theorem accepted_of_whole {fileDir : Text} {answers : ConfAnswers} {after : MoLogger} (unused : Holds log none)
    (exist : answers.isConfFileExist = true) (malloc : answers.malloc = true) {content : List UInt8}
    (file : answers.file = some content)
    (moved : (log.step (.init (some fileDir) answers)).map Prod.snd = some after)
    (whole : after.gpSecHeadNode ≠ .freed) : (getSectionList content).1 = 0 ∧ fileDir.length < maxDirpathLen := by
  rw [MoLogger.step,MoLogger.moLoggerInit] at moved
  have load : iniParserInit answers.file ≠ .null := by
    rw [file,iniParserInit]
    split_ifs <;> exact SecHead.noConfusion
  simp only [unused.1,exist,malloc,Bool.false_eq_true,Bool.true_eq_false,if_false,if_neg load] at moved
  split_ifs at moved with long
  · cases moved
  · cases moved
    refine ⟨?_,Nat.lt_of_not_le long⟩
    by_contra refused
    exact whole (by rw [file]; exact if_pos refused)

theorem wellUsed_of_serves {call : LoggerCall} (steady : Steady both) (serves : Serves (compared.next both call)) :
    wellUsed both call := by
  obtain ⟨log,there,_,holds⟩ := steady
  obtain ⟨after,moved,_,inited,whole⟩ := serves
  obtain ⟨next,used⟩ := compared_log there call
  rw [next] at moved
  rw [used] at inited
  cases call with
  | init fileDir answers =>
    cases fileDir with
    | none => trivial
    | some fileDir =>
      intro unused exist malloc content file
      rw [unused] at holds
      exact accepted_of_whole holds exist malloc file moved whole
  | log call => trivial
  | unInit =>
    intro held inUse last
    rw [inUse] at holds inited
    obtain ⟨inits,dir,list,count,positive⟩ := holds
    rw [MoLogger.step,MoLogger.moLoggerUnInit,if_neg (by simp [inits]),
      if_neg (by rw [count,not_not,pred_users_zero positive]; exact last),if_neg (by simp [list])] at moved
    cases moved
    by_contra more
    rw [useStep,Option.bind_some,if_neg (by omega)] at inited
    cases inited

/-- In every run of calls the logger answers as it should and keeps what is in use exactly when
every file that is loaded is accepted and lies in a directory that fits, and the count of users does
not wrap. -/
theorem logger_serves_iff (calls : List LoggerCall) :
    (∀ front, front <+: calls → Serves (front.foldl compared.next unused)) ↔ compared.Follows wellUsed unused calls := by
  apply follows_iff_kept (I := Steady)
  · exact fun steady _ fits => steady_next steady fits
  · exact fun steady _ serves => wellUsed_of_serves steady serves
  · exact steady_serves
  · exact ⟨_,rfl,rfl,rfl,rfl,rfl⟩
  · exact follows_any (fun _ _ => trivial) calls

end MoCodes.Logger
