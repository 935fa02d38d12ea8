import MoCodes.Cps.Server.Threads
import Mathlib.Logic.Relation

/-! When a client's state may be KEYAGREED. The request, the stored crypt info, the state
and the response are handled by different functions, and the state is set both where the
agreement succeeds and wherever `doKeyAgree` returns 0. -/
namespace MoCodes.Cps.Server
open MoCodes.Lib.LinkedList Relation

def CliState.beforeAgreed (state : CliState) : Prop := state.value < CliState.keyAgreed.value

def KeyAgreeRequest (bytes : List UInt8) : Prop :=
  isRightFormatRequest bytes = true ∧ requestCmdId bytes = some .keyAgree

/-- The state KEYAGREED stands for a request that has come and for a key that was stored,
and what is stored now is still one of a known algorithm. -/
def AgreedRight (thr : CtrlThr) : Prop :=
  thr.state = some .keyAgreed →
    (∃ bytes, .keyAgreeRequest bytes ∈ thr.log ∧ KeyAgreeRequest bytes) ∧
    (∃ info, .cryptStored info ∈ thr.log ∧ info.cryptAlgoNo.known = true) ∧
    ∀ info, thr.info = some info → info.cryptInfo.cryptAlgoNo.known = true

/-- The agreement that a pass tries fails: no request, a malformed one, or no response sent. -/
def AgreementFails (env : Env) (thr : CtrlThr) : Prop :=
  (∃ state, thr.state = some state ∧ state.beforeAgreed) ∧
    ((doKeyAgree env thr).1 < 0 ∨
      ∃ bytes, StartsRequest thr.stream bytes ∧ isRightFormatRequest bytes = false)

def FailureKeeps (env : Env) (thr : CtrlThr) : Prop :=
  AgreementFails env thr → (doCtrlRequestThr env thr).state = thr.state

/-- The inputs on which a pass of a client that is not agreed does what it should: the
request it takes is one for a key agreement, this client is in the list and the response
is sent, or else the request is malformed and not even the error response is sent. -/
def AgreesCleanly (env : Env) (thr : CtrlThr) : Prop :=
  ∀ state bytes, thr.state = some state → state.beforeAgreed → StartsRequest thr.stream bytes →
    if isRightFormatRequest bytes then
      requestCmdId bytes = some .keyAgree ∧ thr.info.isSome ∧ env.writes 0 = true
    else env.writes 0 = false

inductive AgreeStep : CtrlThr → CtrlThr → Prop where
  | pass {thr} (env : Env) : AgreesCleanly env thr → AgreeStep thr (doCtrlRequestThr env thr)
  | other {thr clients} : OtherStep thr.ctrlSockId thr.clients clients → AgreeStep thr {thr with clients}

def startThr (accept : Accept) (clients : Clients) (stream : List UInt8) : CtrlThr where
  ctrlSockId := accept.cliSockId
  clients := acceptCli accept clients
  stream := stream
  log := []

section Pass

variable {env : Env} {thr : CtrlThr} {bytes : List UInt8} {state : CliState}

theorem pass_unknown (absent : thr.state = none) : doCtrlRequestThr env thr = thr := by
  simp only [doCtrlRequestThr,absent]

theorem pass_later (held : thr.state = some state) (later : ¬ state.beforeAgreed) :
    doCtrlRequestThr env thr = (doSimpleRequest env thr).2 := by
  simp only [doCtrlRequestThr,held]
  exact if_neg later

theorem pass_before (held : thr.state = some state) (before : state.beforeAgreed) :
    doCtrlRequestThr env thr =
      if (doKeyAgree env thr).1 < 0 then (doKeyAgree env thr).2
      else (doKeyAgree env thr).2.setCliMgr
        (cliMgrSetState (doKeyAgree env thr).2.clients.cliMgr thr.ctrlSockId .keyAgreed) := by
  simp only [doCtrlRequestThr,held]
  exact if_pos before

theorem keyAgree_none (env : Env) {err : RecvErr} {rest : List UInt8}
    (failed : recvRequest some thr.stream = (.error err,rest)) :
    (doKeyAgree env thr).1 < 0 ∧ (doKeyAgree env thr).2 = {thr with stream := rest} := by
  have negative : keyAgreeErr err < 0 := by cases err <;> decide
  simp only [doKeyAgree,failed]
  exact ⟨negative,trivial⟩

theorem keyAgree_malformed {rest : List UInt8} (taken : recvRequest some thr.stream = (.ok bytes,rest))
    (malformed : isRightFormatRequest bytes = false) (unsent : env.writes 0 = false) :
    (doKeyAgree env thr).1 < 0 ∧
      (doKeyAgree env thr).2 = CtrlThr.emit {thr with stream := rest} (.keyAgreeRequest bytes) := by
  simp [doKeyAgree,taken,agree,malformed,unsent]

theorem keyAgree_right {rest : List UInt8} (taken : recvRequest some thr.stream = (.ok bytes,rest))
    (right : isRightFormatRequest bytes = true) (listed : thr.info.isSome) (sent : env.writes 0 = true) :
    (doKeyAgree env thr).1 = 0 ∧
      .keyAgreeRequest bytes ∈ (doKeyAgree env thr).2.log ∧
      .cryptStored (genRightKeyAgreeResp env.rand).cryptInfo ∈ (doKeyAgree env thr).2.log ∧
      (∀ info, (doKeyAgree env thr).2.info = some info →
        info.cryptInfo = (genRightKeyAgreeResp env.rand).cryptInfo) ∧
      (doKeyAgree env thr).2.ctrlSockId = thr.ctrlSockId ∧
      (doKeyAgree env thr).2.state = thr.state.map fun _ => .keyAgreed := by
  obtain ⟨old,found⟩ := Option.isSome_iff_exists.mp listed
  have stored : refreshCryptInfo (CtrlThr.emit {thr with stream := rest} (.keyAgreeRequest bytes))
      (genRightKeyAgreeResp env.rand).cryptInfo =
      ((CtrlThr.emit {thr with stream := rest} (.keyAgreeRequest bytes)).refreshCri
        (setCryptInfo (genRightKeyAgreeResp env.rand).cryptInfo)).emit
          (.cryptStored (genRightKeyAgreeResp env.rand).cryptInfo) := by
    have there : (CtrlThr.emit {thr with stream := rest} (.keyAgreeRequest bytes)).info = some old := found
    simp only [refreshCryptInfo,there]
  simp only [doKeyAgree,taken,agree,right,if_true,sent,stored]
  refine ⟨trivial,?_,?_,?_,rfl,getState_setState _ _ .keyAgreed⟩
  · simp [CtrlThr.emit,CtrlThr.setCliMgr,CtrlThr.refreshCri]
  · simp [CtrlThr.emit,CtrlThr.setCliMgr,CtrlThr.refreshCri]
  · intro info now
    have changed := find_modifyFirst (isClient thr.ctrlSockId)
      (setCryptInfo (genRightKeyAgreeResp env.rand).cryptInfo) (fun _ => rfl) thr.clients.cri
    obtain ⟨before,_,rfl⟩ := Option.map_eq_some_iff.mp (changed.symm.trans now)
    rfl

/-- An agreement that does not fail moves the client forward. -/
theorem pass_agreed (held : thr.state = some state) (before : state.beforeAgreed)
    (clean : AgreesCleanly env thr) (starts : StartsRequest thr.stream bytes)
    (right : isRightFormatRequest bytes = true) :
    (doCtrlRequestThr env thr).state = some .keyAgreed := by
  have pass := clean state bytes held before starts
  rw [if_pos right] at pass
  obtain ⟨i,mark,full,rfl⟩ := starts
  have taken := recvRequest_found (fun bytes => (rfl : some bytes = some bytes)) full mark
  obtain ⟨zero,_,_,_,sock,agreed⟩ := keyAgree_right taken right pass.2.1 pass.2.2
  rw [pass_before held before,if_neg (by omega),← sock]
  have again := getState_setState (doKeyAgree env thr).2.clients.cliMgr
    (doKeyAgree env thr).2.ctrlSockId .keyAgreed
  have once : cliMgrGetState (doKeyAgree env thr).2.clients.cliMgr (doKeyAgree env thr).2.ctrlSockId =
      some .keyAgreed := by
    rw [← CtrlThr.state,agreed,held]
    rfl
  rw [once] at again
  exact again

end Pass

section Steps

variable {env : Env} {thr after : CtrlThr}

theorem rightResp_known (rand : Nat → Nat) : (genRightKeyAgreeResp rand).cryptInfo.cryptAlgoNo.known = true :=
  rfl

theorem agreedRight_same (same : SameClient thr after) (right : AgreedRight thr) : AgreedRight after := by
  intro agreed
  rw [same.state] at agreed
  obtain ⟨⟨bytes,request,well⟩,⟨info,stored,known⟩,current⟩ := right agreed
  refine ⟨⟨bytes,same.log.mem request,well⟩,⟨info,same.log.mem stored,known⟩,fun last found => ?_⟩
  have crypt := same.cryptInfo
  rw [found] at crypt
  obtain ⟨old,there,equal⟩ := Option.map_eq_some_iff.mp crypt.symm
  rw [← equal]
  exact current old there

theorem agreedRight_pass (clean : AgreesCleanly env thr) (right : AgreedRight thr) :
    AgreedRight (doCtrlRequestThr env thr) ∧ FailureKeeps env thr := by
  cases held : thr.state with
  | none =>
    rw [FailureKeeps,pass_unknown held]
    exact ⟨right,fun _ => rfl⟩
  | some state =>
    by_cases before : state.beforeAgreed
    · rw [FailureKeeps,pass_before held before]
      rcases recvRequest_cases (fun _ => rfl) thr.stream with ⟨bytes,rest,starts,taken⟩ | ⟨err,rest,failed⟩
      · have pass := clean state bytes held before starts
        cases form : isRightFormatRequest bytes with
        | true =>
          rw [if_pos form] at pass
          obtain ⟨command,listed,sent⟩ := pass
          obtain ⟨zero,request,stored,current,_⟩ := keyAgree_right taken form listed sent
          rw [if_neg (by omega)]
          refine ⟨fun _ => ⟨⟨bytes,request,form,command⟩,⟨_,stored,rightResp_known _⟩,?_⟩,?_⟩
          · intro info found
            rw [current info found]
            exact rightResp_known _
          · rintro ⟨_,negative | ⟨other,starts,malformed⟩⟩
            · omega
            · -- whatever request starts here, a malformed one would need the response unsent
              have unsent := clean state other held before starts
              rw [if_neg (by simp [malformed]),sent] at unsent
              cases unsent
        | false =>
          rw [if_neg (by simp [form])] at pass
          obtain ⟨negative,left⟩ := keyAgree_malformed taken form pass
          rw [if_pos negative,left]
          have same := sameClient_trans (sameClient_stream thr rest) (sameClient_emit _ (.keyAgreeRequest bytes))
          exact ⟨agreedRight_same same right,fun _ => same.state⟩
      · obtain ⟨negative,left⟩ := keyAgree_none env failed
        rw [if_pos negative,left]
        have same := sameClient_stream thr rest
        exact ⟨agreedRight_same same right,fun _ => same.state⟩
    · rw [FailureKeeps,pass_later held before]
      have same := doSimpleRequest_same env thr
      exact ⟨agreedRight_same same right,fun _ => same.state⟩

theorem agreedRight_step (step : AgreeStep thr after) (right : AgreedRight thr) : AgreedRight after := by
  cases step with
  | pass env clean => exact (agreedRight_pass clean right).1
  | other step =>
    have keeps := otherStep_keeps step
    intro agreed
    obtain ⟨request,stored,current⟩ := right (keeps.state agreed)
    refine ⟨request,stored,fun info found => ?_⟩
    obtain ⟨old,there,same⟩ := keeps.cryptInfo info found
    rw [← same]
    exact current old there

end Steps

section Runs

variable {accept : Accept} {clients : Clients} {stream : List UInt8} {thr : CtrlThr}

theorem keyAgreed_reachable (new : cliMgrFind clients.cliMgr accept.cliSockId = none)
    (reached : ReflTransGen AgreeStep (startThr accept clients stream) thr) :
    AgreedRight thr ∧ ∀ env, AgreesCleanly env thr → FailureKeeps env thr := by
  have right : AgreedRight thr := by
    induction reached with
    | refl => exact fun agreed => absurd agreed (acceptCli_state accept new)
    | tail _ step ih => exact agreedRight_step step ih
  exact ⟨right,fun env clean => (agreedRight_pass clean right).2⟩

end Runs

section Inputs

def noClients : Clients := ⟨[],[]⟩

def acceptOne : Accept where
  ipValue := 1
  port := 4000
  cliSockId := 5
  criMemory := some ⟨.idle,[],0⟩
  cliMgrMemory := true
  thId := some 11

def keyAgreeBytes : List UInt8 := markClient ++ List.replicate 20 0

def malformedBytes : List UInt8 := markClient ++ [0,0,0,0,0,0,0,0,6,0,0,0,0,0,0,0,0,0,0,0]

theorem keyAgreeBytes_clean : AgreesCleanly idleEnv (startThr acceptOne noClients keyAgreeBytes) := by
  rintro state bytes held before ⟨i,mark,full,rfl⟩
  have size : (startThr acceptOne noClients keyAgreeBytes).stream.length = 32 := rfl
  rw [size] at full
  obtain rfl : i = 0 := by unfold ctrlRequestSize at full; omega
  decide

theorem keyAgreed_reachable_one :
    (doCtrlRequestThr idleEnv (startThr acceptOne noClients keyAgreeBytes)).state = some .keyAgreed ∧
      AgreedRight (doCtrlRequestThr idleEnv (startThr acceptOne noClients keyAgreeBytes)) :=
  ⟨by decide,(keyAgreed_reachable rfl (ReflTransGen.single (.pass idleEnv keyAgreeBytes_clean))).1⟩

theorem malformed_agreed :
    (doCtrlRequestThr idleEnv (startThr acceptOne noClients malformedBytes)).state = some .keyAgreed ∧
      (doCtrlRequestThr idleEnv (startThr acceptOne noClients malformedBytes)).log =
        [.keyAgreeRequest malformedBytes,.keyAgreeResponse genErrKeyAgreeResp] ∧
      ¬ AgreedRight (doCtrlRequestThr idleEnv (startThr acceptOne noClients malformedBytes)) := by
  have state : (doCtrlRequestThr idleEnv (startThr acceptOne noClients malformedBytes)).state =
      some .keyAgreed := by decide
  have log : (doCtrlRequestThr idleEnv (startThr acceptOne noClients malformedBytes)).log =
      [.keyAgreeRequest malformedBytes,.keyAgreeResponse genErrKeyAgreeResp] := by decide
  refine ⟨state,log,fun right => ?_⟩
  obtain ⟨_,⟨info,stored,_⟩,_⟩ := right state
  rw [log] at stored
  simp at stored

end Inputs

end MoCodes.Cps.Server
