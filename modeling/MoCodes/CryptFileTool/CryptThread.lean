import Mathlib.Data.List.Basic
import Mathlib.Tactic.Common

/-! The threads that `moCrypt_RC4_cryptFile` and `moCrypt_BASE64_File` start when they get a
progress callback, by what they pass to it. -/
namespace MoCodes.CryptFileTool

/-- The error codes of moCrypt.h and cftProt.h are negative. -/
abbrev Err := {err : Int // err < 0}

inductive CryptFunc where
  | rc4
  | base64
deriving DecidableEq

def errGetFileDiffStateFail : Int := 0 - 20005

/-- How `cryptFile` fares: the comparison of the paths or the opening of the files fails, a block
cannot be crypted or written, the temporary file cannot be copied back, or all is done. The
percentages are those of the blocks. -/
inductive Outcome where
  | diffStateFailed
  | openFailed (err : Err)
  | cryptFailed (percents : List Int) (err : Err)
  | copyFailed (percents : List Int) (err : Err)
  | crypted (percents : List Int)
deriving DecidableEq

namespace Outcome

def percents : Outcome → List Int
  | diffStateFailed => []
  | openFailed _ => []
  | cryptFailed percents _ => percents
  | copyFailed percents _ => percents
  | crypted percents => percents

/-- The arguments of `setProgress`. The one of BASE64 says nothing about a failed comparison. -/
def reports : CryptFunc → Outcome → List Int
  | .rc4,diffStateFailed => [0,errGetFileDiffStateFail]
  | .base64,diffStateFailed => [0]
  | _,openFailed err => [0,5,err.val]
  | _,cryptFailed percents err => [0,5,10] ++ percents ++ [err.val]
  | .rc4,copyFailed percents err => [0,5,10] ++ percents ++ [err.val]
  | .base64,copyFailed percents err => [0,5,10] ++ percents ++ [90,err.val]
  | .rc4,crypted percents => [0,5,10] ++ percents ++ [95,100]
  | .base64,crypted percents => [0,5,10] ++ percents ++ [90,95,100]

end Outcome

def Underway (prog : Int) : Prop := 0 ≤ prog ∧ prog < 100

def Final (prog : Int) : Prop := prog = 100 ∨ prog < 0

instance (prog : Int) : Decidable (Underway prog) := instDecidableAnd

instance (prog : Int) : Decidable (Final prog) := instDecidableOr

theorem Final.not_underway {prog : Int} (final : Final prog) : ¬ Underway prog := by
  rintro ⟨positive,below⟩
  rcases final with rfl | negative <;> omega

def Outcome.InRange (outcome : Outcome) : Prop := ∀ percent ∈ outcome.percents, Underway percent

instance (outcome : Outcome) : Decidable outcome.InRange :=
  inferInstanceAs (Decidable (∀ percent ∈ outcome.percents, Underway percent))

/-- A thread by what it has reported and what it is going to. -/
structure CryptThread where
  done : List Int
  todo : List Int
deriving DecidableEq

namespace CryptThread

def none : CryptThread := ⟨[],[]⟩

def start (reports : List Int) : CryptThread := ⟨[],reports⟩

def report (thread : CryptThread) : CryptThread := ⟨thread.done ++ thread.todo.head?.toList,thread.todo.tail⟩

def Running (thread : CryptThread) : Prop := thread.todo ≠ []

instance (thread : CryptThread) : Decidable thread.Running := instDecidableNot

/-- Only the last report is one with which the task ends. -/
structure Reports (ending : Int → Prop) (thread : CryptThread) : Prop where
  early : thread.Running → ∀ prog ∈ thread.done, Underway prog
  between : ∀ prog ∈ thread.todo.dropLast, Underway prog
  atLast : ∀ prog, thread.todo.getLast? = some prog → ending prog
  last : thread.todo = [] → ∀ prog, thread.done.getLast? = some prog → ending prog

variable {ending : Int → Prop} {thread : CryptThread}

theorem report_done {prog : Int} {rest : List Int} (next : thread.todo = prog :: rest) :
    thread.report = ⟨thread.done ++ [prog],rest⟩ := by
  rw [report,next]
  rfl

theorem Reports.report (reports : thread.Reports ending) {prog : Int} {rest : List Int}
    (next : thread.todo = prog :: rest) : thread.report.Reports ending := by
  rw [report_done next]
  refine ⟨fun running => ?_,?_,?_,?_⟩
  · have first : prog ∈ thread.todo.dropLast := by
      rw [next,List.dropLast_cons_of_ne_nil running]
      exact List.mem_cons_self
    intro before among
    rcases List.mem_append.mp among with old | new
    · exact reports.early (by rw [Running,next]; exact List.cons_ne_nil _ _) before old
    · rw [List.mem_singleton.mp new]
      exact reports.between prog first
  · intro later among
    refine reports.between later ?_
    cases rest with
    | nil => cases among
    | cons second rest =>
      rw [next,List.dropLast_cons_of_ne_nil (List.cons_ne_nil _ _)]
      exact List.mem_cons_of_mem _ among
  · intro later last
    refine reports.atLast later ?_
    rw [next,List.getLast?_cons]
    simp [show rest.getLast? = some later from last]
  · rintro rfl later last
    have same : (thread.done ++ [prog]).getLast? = some later := last
    rw [List.getLast?_concat] at same
    obtain rfl := Option.some.inj same
    exact reports.atLast prog (by rw [next]; rfl)

theorem Reports.ended (reports : thread.Reports ending) {prog : Int} (last : thread.done.getLast? = some prog)
    (ends : ¬ Underway prog) : thread.todo = [] ∧ ending prog := by
  have ended : thread.todo = [] := by
    by_contra running
    exact ends (reports.early running prog (List.mem_of_getLast? last))
  exact ⟨ended,reports.last ended prog last⟩

theorem reports_start {reports : List Int} (between : ∀ prog ∈ reports.dropLast, Underway prog)
    (atLast : ∀ prog, reports.getLast? = some prog → ending prog) : (start reports).Reports ending where
  early _ _ among := by cases among
  between := between
  atLast := atLast
  last _ _ last := by cases last

end CryptThread

theorem Outcome.reports_split (func : CryptFunc) {outcome : Outcome} (inRange : outcome.InRange) :
    ∃ front last, outcome.reports func = front ++ [last] ∧ (∀ prog ∈ front, Underway prog) ∧
      (Final last ∨ func = .base64 ∧ outcome = .diffStateFailed ∧ last = 0) := by
  have opened : ∀ {percents more : List Int}, (∀ prog ∈ percents, Underway prog) →
      (∀ prog ∈ more, Underway prog) → ∀ prog ∈ [0,5,10] ++ percents ++ more, Underway prog := by
    intro percents more blocks rest prog among
    rcases List.mem_append.mp among with front | behind
    · rcases List.mem_append.mp front with first | percent
      · exact (by decide : ∀ prog ∈ [0,5,10], Underway prog) prog first
      · exact blocks prog percent
    · exact rest prog behind
  cases outcome with
  | diffStateFailed =>
    cases func with
    | rc4 => exact ⟨[0],_,rfl,by decide,Or.inl (by decide)⟩
    | base64 => exact ⟨[],0,rfl,by decide,Or.inr ⟨rfl,rfl,rfl⟩⟩
  | openFailed err =>
    refine ⟨[0,5],err.val,?_,by decide,Or.inl (Or.inr err.property)⟩
    cases func <;> rfl
  | cryptFailed percents err =>
    refine ⟨[0,5,10] ++ percents ++ [],err.val,?_,opened inRange (by simp),Or.inl (Or.inr err.property)⟩
    cases func <;> simp [reports]
  | copyFailed percents err =>
    cases func with
    | rc4 =>
      exact ⟨[0,5,10] ++ percents ++ [],err.val,by simp [reports],opened inRange (by simp),
        Or.inl (Or.inr err.property)⟩
    | base64 =>
      exact ⟨[0,5,10] ++ percents ++ [90],err.val,by simp [reports],opened inRange (by decide),
        Or.inl (Or.inr err.property)⟩
  | crypted percents =>
    cases func with
    | rc4 =>
      exact ⟨[0,5,10] ++ percents ++ [95],100,by simp [reports],opened inRange (by decide),
        Or.inl (Or.inl rfl)⟩
    | base64 =>
      exact ⟨[0,5,10] ++ percents ++ [90,95],100,by simp [reports],opened inRange (by decide),
        Or.inl (Or.inl rfl)⟩

theorem Outcome.start_reports (func : CryptFunc) {outcome : Outcome} (inRange : outcome.InRange)
    {ending : Int → Prop} (final : ∀ prog, Final prog → ending prog)
    (silent : func = .base64 → outcome = .diffStateFailed → ending 0) :
    (CryptThread.start (outcome.reports func)).Reports ending := by
  obtain ⟨front,last,split,underway,end_⟩ := outcome.reports_split func inRange
  rw [split]
  refine CryptThread.reports_start ?_ fun prog atLast => ?_
  · rwa [List.dropLast_concat]
  · rw [List.getLast?_concat] at atLast
    obtain rfl := Option.some.inj atLast
    rcases end_ with ends | ⟨base64,failed,rfl⟩
    · exact final _ ends
    · exact silent base64 failed

end MoCodes.CryptFileTool
