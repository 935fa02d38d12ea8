import MoCodes.MoCloud.Server.Session
import MoCodes.Lib.History

/-! When a client is logged in. `doLogIn` takes every result of `userLogin` that is not negative
for a success, but a wrong password and an unknown user give positive results. -/
namespace MoCodes.MoCloud.Server
open MoCodes.Lib.Transition MoCodes.Lib.History

/-- The client has become key-agreed, by key agreement or by logging out. -/
def Done.BecameKeyAgreed (done : Done) : Prop := done.before ≠ .keyAgreed ∧ done.after = .keyAgreed

def Done.LogInOk (done : Done) : Prop := done.userLogin = some LogInRet.ok.code

instance : DecidablePred Done.BecameKeyAgreed := fun _ => inferInstanceAs (Decidable (_ ∧ _))

instance : DecidablePred Done.LogInOk := fun _ => inferInstanceAs (Decidable (_ = _))

namespace Session

/-- `userLogin` has returned MOCLOUD_LOGIN_RET_OK, and since then the client has not become
key-agreed. -/
def Authenticated (session : Session) : Prop :=
  ∃ later done earlier, session.done = later ++ done :: earlier ∧ done.LogInOk ∧
    ∀ other ∈ later, ¬ other.BecameKeyAgreed

theorem authenticated_since (session : Session) :
    session.Authenticated ↔ Since Done.LogInOk Done.BecameKeyAgreed session.done := since_iff.symm

instance (session : Session) : Decidable session.Authenticated :=
  decidable_of_iff _ session.authenticated_since.symm

def LoginChecked (session : Session) : Prop := session.ctrl.mState = .login → session.Authenticated

def Fresh (session : Session) : Prop := session.ctrl.mState = .keyAgreed → ¬ session.Authenticated

/-- The database is closed, or it accepts the user and the password it is asked about. -/
def Clear (world : World) : Option (Text × Text) → Prop
  | some (username,passwd) =>
    let answers := world.db.logInAnswers username world.time
    answers.opened = false ∨ answers.Accept passwd
  | none => True

instance (world : World) : DecidablePred (Clear world)
  | some _ => inferInstanceAs (Decidable (_ ∨ _))
  | none => isTrue trivial

/-- A pass that calls `userLogin` does so with a clear answer. -/
def Answered (session : Session) : Event → Prop
  | .pass pass => Clear pass.world (session.asks pass)
  | _ => True

instance decidableAnswered (session : Session) : DecidablePred session.Answered
  | .pass pass => inferInstanceAs (Decidable (Clear pass.world (session.asks pass)))
  | .joined _ => isTrue trivial
  | .download _ _ => isTrue trivial
  | .newConn _ => isTrue trivial
  | .filelistChange _ => isTrue trivial

instance (session : Session) : Decidable session.LoginChecked :=
  inferInstanceAs (Decidable (_ → session.Authenticated))

section Step

variable {session after : Session} {pass : Pass} {event : Event}

theorem asks_iff {asked : Text × Text} : session.asks pass = some asked ↔
    ∃ req pBody, session.processes pass = some (req,pBody) ∧
      session.ctrl.asksUserLogin req pBody = some asked := by
  simp [asks,Option.bind_eq_some_iff]

theorem runBody_asking {username passwd : Text} (ran : session.runBody pass = some after)
    (asking : session.asks pass = some (username,passwd)) :
    session.ctrl.mState = .keyAgreed ∧ ∃ ret, session.userLogin pass = some ret ∧
      pass.world.db.userLogin username passwd pass.world.time = some ret ∧
      after.ctrl.mState = if ret < 0 then .keyAgreed else .login := by
  obtain ⟨req,pBody,processed,asks⟩ := asks_iff.mp asking
  rcases runBody_cases ran with ⟨_,_,handled,same,chosen,rfl⟩ | ⟨idle,_⟩
  · obtain ⟨rfl,rfl⟩ : req = _ ∧ pBody = _ := by simpa [processed] using same
    obtain ⟨ret,answered,state⟩ := CliCtrl.doRequest_asking chosen asks
    refine ⟨(CliCtrl.asksUserLogin_iff.mp asks).2.1,ret,?_,answered,?_⟩
    · rw [userLogin,asking]
      exact answered
    · rwa [answer_ctrl]
  · simp [processed] at idle

theorem runBody_unasking (ran : session.runBody pass = some after) (silent : session.asks pass = none)
    (login : after.ctrl.mState = .login) : session.ctrl.mState = .login := by
  rcases runBody_cases ran with ⟨req,pBody,handled,processed,chosen,rfl⟩ | ⟨_,rfl | ⟨state,other,rfl⟩⟩
  · refine CliCtrl.doRequest_unasking chosen ?_ (by rwa [answer_ctrl] at login)
    simpa [asks,processed] using silent
  · exact login
  · exact absurd login other

/-- Nothing but a pass of the loop changes the state. -/
theorem step_quiet (other : ∀ pass, event ≠ .pass pass) (ran : session.step event = some after) :
    after.ctrl.mState = session.ctrl.mState ∧ after.done = session.done := by
  cases event with
  | pass pass => exact absurd rfl (other pass)
  | joined sending =>
    obtain ⟨req,place,rfl⟩ := step_joined ran
    exact ⟨rfl,rfl⟩
  | download place answer =>
    obtain ⟨thread,_,_,rfl⟩ := step_download ran
    exact ⟨rfl,rfl⟩
  | newConn cliSockId =>
    obtain ⟨_,rfl⟩ := step_newConn ran
    exact ⟨rfl,rfl⟩
  | filelistChange changeValue =>
    obtain ⟨_,_,rfl⟩ := step_filelistChange ran
    exact ⟨rfl,rfl⟩

end Step

section Runs

variable {session after : Session} {pass : Pass} {event : Event}

theorem pass_unasking (fresh : session.Fresh) (silent : session.asks pass = none)
    (ran : session.step (.pass pass) = some after) :
    after.Fresh ∧ (session.LoginChecked → after.LoginChecked) := by
  obtain ⟨before,body,same,_,done⟩ := step_pass ran
  have unanswered : session.userLogin pass = none := by rw [userLogin,silent,Option.bind_none]
  rw [unanswered] at done
  constructor
  · intro agreed
    rw [authenticated_since,done]
    by_cases still : session.ctrl.mState = .keyAgreed
    · rw [since_quiet (by simp [Done.LogInOk]) (by simp [Done.BecameKeyAgreed,still])]
      rw [← authenticated_since]
      exact fresh still
    · exact since_reset (by simp [Done.LogInOk]) ⟨still,agreed⟩
  · intro checked login
    have already := runBody_unasking body silent (same ▸ login)
    rw [authenticated_since,done,since_quiet (by simp [Done.LogInOk]) (by simp [Done.BecameKeyAgreed,login]),
      ← authenticated_since]
    exact checked already

/-- A pass that calls `userLogin` logs the client in rightly exactly if the answer is clear. -/
theorem pass_asking {username passwd : Text} (fresh : session.Fresh)
    (asking : session.asks pass = some (username,passwd)) (ran : session.step (.pass pass) = some after) :
    after.Fresh ∧ (after.LoginChecked ↔ session.Answered (.pass pass)) := by
  obtain ⟨before,body,same,_,done⟩ := step_pass ran
  obtain ⟨agreed,ret,answered,returned,state⟩ := runBody_asking body asking
  rw [answered] at done
  rw [← same] at state
  have quiet : ¬ Done.BecameKeyAgreed ⟨session.ctrl.mState,after.ctrl.mState,some ret⟩ := by
    simp [Done.BecameKeyAgreed,agreed]
  have authenticated : after.Authenticated ↔ ret = LogInRet.ok.code := by
    rw [authenticated_since,done]
    by_cases ok : ret = LogInRet.ok.code
    · exact iff_of_true (since_good (by simp [Done.LogInOk,ok])) ok
    · -- nothing before the pass counts, the client was only key-agreed
      rw [since_quiet (by simpa [Done.LogInOk] using ok) quiet,← authenticated_since]
      exact iff_of_false (fresh agreed) ok
  let answers := pass.world.db.logInAnswers username pass.world.time
  have verdict : answers.userLogin username passwd = some ret := by
    rw [← DbCtrl.userLogin_answers]
    exact returned
  have fits : ¬ wrongLengths username passwd := by
    obtain ⟨req,pBody,_,asks⟩ := asks_iff.mp asking
    have lengths := getUserPasswd_lengths (CliCtrl.asksUserLogin_iff.mp asks).2.2
    rw [wrongLengths]
    omega
  have clear : session.Answered (.pass pass) ↔ answers.opened = false ∨ answers.Accept passwd := by
    simp [Answered,Clear,asking,answers]
  rw [clear]
  rcases lt_or_ge ret 0 with refused | taken
  · have closed := (userLogin_negative verdict).mp refused
    rw [if_pos refused] at state
    constructor
    · intro _ ok
      simp [authenticated.mp ok,LogInRet.code] at refused
    · exact iff_of_true (fun login => by simp [state] at login) (Or.inl closed)
  · have opened : answers.opened = true := by
      rw [← Bool.not_eq_false,← userLogin_negative verdict]
      exact not_lt.mpr taken
    rw [if_neg (not_lt.mpr taken)] at state
    constructor
    · exact fun agreed => by simp [state] at agreed
    · have accepted := userLogin_ok fits opened
      rw [verdict,Option.some.injEq] at accepted
      rw [LoginChecked,authenticated,accepted]
      simp [state,opened]

theorem step_exact (fresh : session.Fresh) (ran : session.step event = some after) :
    after.Fresh ∧ (session.LoginChecked → (after.LoginChecked ↔ session.Answered event)) := by
  by_cases passing : ∃ pass, event = .pass pass
  · obtain ⟨pass,rfl⟩ := passing
    cases asking : session.asks pass with
    | none =>
      obtain ⟨still,kept⟩ := pass_unasking fresh asking ran
      exact ⟨still,fun checked => iff_of_true (kept checked) (by simp [Answered,Clear,asking])⟩
    | some asked =>
      obtain ⟨still,exact_login⟩ := pass_asking fresh asking ran
      exact ⟨still,fun _ => exact_login⟩
  · have other : ∀ pass, event ≠ .pass pass := fun pass same => passing ⟨pass,same⟩
    obtain ⟨state,done⟩ := step_quiet other ran
    have answered : session.Answered event := by
      cases event with
      | pass pass => exact absurd rfl (other pass)
      | _ => trivial
    simp only [Fresh,LoginChecked,Authenticated,state,done]
    exact ⟨fresh,fun checked => iff_of_true checked answered⟩

end Runs

end Session

section Runs

variable {time mFilelistChangedValue : Int} {events : List Event}

theorem newSession_fresh : (newSession time mFilelistChangedValue).Fresh := by
  intro agreed
  cases agreed

theorem newSession_checked : (newSession time mFilelistChangedValue).LoginChecked := by
  intro login
  cases login

theorem fresh_reachable {session : Session}
    (run : cliSystem.Run anyEvent (newSession time mFilelistChangedValue) session) : session.Fresh := by
  refine run_invariant newSession_fresh (fun fresh enabled _ => ?_) run
  exact (Session.step_exact fresh (step_next enabled)).1

/-- A client is logged in only after `userLogin` has returned MOCLOUD_LOGIN_RET_OK since it last
became key-agreed, all along a run, exactly if every call of `userLogin` in it met a closed
database, or one that accepts the user and the password. -/
theorem login_checked_iff
    (follows : cliSystem.Follows anyEvent (newSession time mFilelistChangedValue) events) :
    (∀ front, front <+: events →
      (front.foldl cliSystem.next (newSession time mFilelistChangedValue)).LoginChecked) ↔
    cliSystem.Follows Session.Answered (newSession time mFilelistChangedValue) events := by
  rw [← follows_iff_prefixes (I := fun session => session.Fresh ∧ session.LoginChecked) ?_ ?_ follows]
  · refine forall₂_congr fun front before => iff_and_self.mpr fun _ => ?_
    exact fresh_reachable (run_of_events (follows_front follows before) .start)
  · intro session event checked enabled
    obtain ⟨fresh,exact_login⟩ := Session.step_exact checked.1 (step_next enabled)
    exact (and_iff_right fresh).trans (exact_login checked.2)
  · exact ⟨newSession_fresh,newSession_checked⟩

/-- MySQL with one row in the table of users; the update of `userLogin` is a syntax error. -/
def oneUser (username passwd : Text) : DbCtrl :=
  .mysql
    { isDbOk := true
      mysqlQuery := fun command =>
        if command = userExistCmd username then ⟨0,some [some (text "1")]⟩
        else if command = selectPasswdCmd username then ⟨0,some [some passwd]⟩
        else ⟨1,none⟩ }

def logInEvents (body : Text) : List Event :=
  let world := emptyWorld (oneUser (text "eric") (text "secret"))
  [.pass (requestPass world .keyAgree []),.pass (requestPass world .logIn body)]

theorem login_checked_right :
    let events := logInEvents (text "username=eric, password=secret")
    cliSystem.Follows anyEvent (newSession 0 0) events ∧
      ∀ front, front <+: events → (front.foldl cliSystem.next (newSession 0 0)).LoginChecked :=
  ⟨by decide,(login_checked_iff (by decide)).mpr (by decide)⟩

theorem login_wrong_passwd :
    let events := logInEvents (text "username=eric, password=guessed")
    cliSystem.Follows anyEvent (newSession 0 0) events ∧
      ¬ (events.foldl cliSystem.next (newSession 0 0)).LoginChecked := by
  decide

end Runs

end MoCodes.MoCloud.Server
