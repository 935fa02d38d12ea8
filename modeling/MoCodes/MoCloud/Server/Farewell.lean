import MoCodes.MoCloud.Server.LogIn

/-! BYEBYE. The client says it from every state (`moCloudClient_unInit`), and `doByebye` answers it
with success in every state, but only of a client that is logged in does it end the session. -/
namespace MoCodes.MoCloud.Server
open MoCodes.Lib.Transition

theorem CliCtrl.doRequest_byebye {ctrl : CliCtrl} {world : World} {req : CtrlRequest} {pBody : Option Text}
    (command : req.cmdId = CmdId.byebye.toWire) : ctrl.doRequest world req pBody = some (ctrl.doByebye req) := by
  simp [doRequest,command,CmdId.toWire]

namespace Session

/-- The cmdId of the request that an event has `doRequest` called with, if it has. -/
def processedCmdId (session : Session) : Event → Option Nat
  | .pass pass => (session.processes pass).map fun got => got.1.cmdId
  | _ => none

def SaysByebye (session : Session) (event : Event) : Prop :=
  session.processedCmdId event = some CmdId.byebye.toWire

/-- The state is and stays CLI_STATE_INVALID, and no request is processed. -/
def Over (session : Session) : List Event → Prop
  | [] => session.ctrl.mState = .invalid
  | event :: events =>
    session.ctrl.mState = .invalid ∧ session.processedCmdId event = none ∧
      (cliSystem.next session event).Over events

/-- All along the run, BYEBYE ends the session. -/
def EndsAtByebye (session : Session) : List Event → Prop
  | [] => True
  | event :: events =>
    (session.SaysByebye event → (cliSystem.next session event).Over events) ∧
      (cliSystem.next session event).EndsAtByebye events

/-- BYEBYE comes from a client that is logged in. -/
def LeavesLoggedIn (session : Session) (event : Event) : Prop :=
  session.SaysByebye event → session.ctrl.mState = .login

instance (session : Session) : DecidablePred session.SaysByebye := fun _ => inferInstanceAs (Decidable (_ = _))

instance (session : Session) (event : Event) : Decidable (session.LeavesLoggedIn event) :=
  inferInstanceAs (Decidable (_ → _))

variable {session after : Session} {event : Event} {events : List Event}

theorem step_over (ran : session.step event = some after) (invalid : session.ctrl.mState = .invalid) :
    session.processedCmdId event = none ∧ after.ctrl.mState = .invalid := by
  have quiet : ∀ pass, event ≠ .pass pass := by
    rintro pass rfl
    simp [step,invalid] at ran
  refine ⟨?_,by rw [(step_quiet quiet ran).1,invalid]⟩
  cases event with
  | pass pass => exact absurd rfl (quiet pass)
  | _ => rfl

/-- Once CLI_STATE_INVALID, always: nothing but a pass changes the state, and `run` makes no more. -/
theorem over_of_invalid (follows : cliSystem.Follows anyEvent session events)
    (invalid : session.ctrl.mState = .invalid) : session.Over events := by
  induction events generalizing session with
  | nil => exact invalid
  | cons event events ih =>
    obtain ⟨⟨enabled,_⟩,rest⟩ := follows
    obtain ⟨unprocessed,still⟩ := step_over (step_next enabled) invalid
    exact ⟨invalid,unprocessed,ih rest still⟩

theorem over_start (isOver : session.Over events) : session.ctrl.mState = .invalid := by
  cases events with
  | nil => exact isOver
  | cons event events => exact isOver.1

/-- BYEBYE makes the client invalid if it is logged in, and leaves all as it is otherwise. -/
theorem step_byebye (ran : session.step event = some after) (spoken : session.SaysByebye event) :
    after.ctrl = if session.ctrl.mState = .login then session.ctrl.setState .invalid else session.ctrl := by
  cases event with
  | pass pass =>
    obtain ⟨before,body,same,_⟩ := step_pass ran
    rw [same]
    obtain ⟨got,processed,command⟩ := Option.map_eq_some_iff.mp spoken
    rcases runBody_cases body with ⟨req,pBody,handled,taken,chosen,rfl⟩ | ⟨idle,_⟩
    · obtain rfl : got = (req,pBody) := by simpa [processed] using taken
      rw [CliCtrl.doRequest_byebye command] at chosen
      rw [answer_ctrl,← Option.some.inj chosen,CliCtrl.doByebye_ctrl]
    · simp [processed] at idle
  | _ => cases spoken

/-- The state after BYEBYE is CLI_STATE_INVALID exactly if the client is logged in. -/
theorem byebye_invalid_iff (enabled : cliSystem.Enabled session event) (spoken : session.SaysByebye event) :
    (cliSystem.next session event).ctrl.mState = .invalid ↔ session.ctrl.mState = .login := by
  have ran := step_next enabled
  have left := step_byebye ran spoken
  constructor
  · intro invalid
    by_contra outside
    rw [left,if_neg outside] at invalid
    cases event with
    | pass pass => simp [step,invalid] at ran
    | _ => cases spoken
  · intro login
    rw [left,if_pos login]
    rfl

/-- In a run, BYEBYE ends the session whenever it is processed exactly if it always comes from a
client that is logged in. -/
theorem endsAtByebye_iff (follows : cliSystem.Follows anyEvent session events) :
    session.EndsAtByebye events ↔ cliSystem.Follows LeavesLoggedIn session events := by
  induction events generalizing session with
  | nil => exact Iff.rfl
  | cons event events ih =>
    obtain ⟨⟨enabled,_⟩,rest⟩ := follows
    refine and_congr ?_ (ih rest)
    rw [and_iff_right enabled]
    refine forall_congr' fun spoken => ?_
    rw [← byebye_invalid_iff enabled spoken]
    exact ⟨over_start,over_of_invalid rest⟩

theorem endsAtByebye_loggedIn :
    let session := newSession 0 0
    let world := emptyWorld (oneUser (text "eric") (text "secret"))
    let events := logInEvents (text "username=eric, password=secret") ++ [.pass (requestPass world .byebye [])]
    session.EndsAtByebye events :=
  (endsAtByebye_iff (by decide)).mpr (by decide)

/-- A client that has agreed on a key but has not logged in says BYEBYE, and can still log in. -/
theorem byebye_goes_on :
    let session := newSession 0 0
    let world := emptyWorld (oneUser (text "eric") (text "secret"))
    let events : List Event :=
      [.pass (requestPass world .keyAgree []),.pass (requestPass world .byebye []),
        .pass (requestPass world .logIn (text "username=eric, password=secret"))]
    cliSystem.Follows anyEvent session events ∧ ¬ session.EndsAtByebye events ∧
      (events.foldl cliSystem.next session).ctrl.mState = .login := by
  refine ⟨by decide,fun ends => ?_,by decide⟩
  have isOver := ends.2.1 (by decide)
  exact absurd isOver.1 (by decide)

end Session

end MoCodes.MoCloud.Server
