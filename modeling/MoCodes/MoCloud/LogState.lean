import MoCodes.MoCloud.Client.CtrlChannel
import MoCodes.MoCloud.Server.LogIn
import Mathlib.Data.List.TakeWhile

/-! Whether a client is logged in, as moCloudClientLib.c and CliCtrl have it, over calls of
moCloudClient_logIn and moCloudClient_logOut one after the other. All that is written arrives;
a response that a call leaves unread is met by the next one. -/
namespace MoCodes.MoCloud
open Lib.Transition Client Server

/-- CLI_STATE of moCloudClientLib.c. -/
inductive GCliState where
  | idle | notLogin | login
  deriving DecidableEq

/-- `sizeof(MOCLOUD_CTRL_REQUEST)`, which is what moCloudUtilsCrypt_getCipherTxtLen gives. -/
def cipherLen : Nat := 48

/-- MOCLOUD_USER_PASSWD_FORMAT. -/
def userPasswd (username passwd : Text) : Text :=
  text "username=" ++ username ++ text ", password=" ++ passwd

/-- `unread` is what the server has sent and the client has not read. -/
structure LogState where
  gCliState : GCliState := .notLogin
  gCurLoginUsername : Text := []
  gCurLoginPassword : Text := []
  ctrl : CliCtrl
  unread : List CtrlResponse := []

/-- getRespHeader, for so many turns of its loop. -/
def getRespHeader (call : Client.Call) : Nat → List CtrlResponse → Option CtrlResponse × List CtrlResponse
  | 0,unread => (none,unread)
  | _,[] => (none,[])
  | turns+1,resp :: unread =>
    if CtrlChannel.Accepts call resp then (some resp,unread) else getRespHeader call turns unread

namespace LogState

inductive Event where
  | logIn (usrName passwd : Text) (world list : World)
  | logOut (world : World)

def genRequest (call : Client.Call) (cInfo : Int8) (bodyLen : Nat) : CtrlRequest :=
  ⟨markClient,requestTypeNeedResponse,call.cmdId.toWire,cInfo,bodyLen⟩

variable (state : LogState)

/-- The server processes a request and answers. -/
def serve (world : World) (call : Client.Call) (cInfo : Int8) (body : Option Text) : Option LogState :=
  (state.ctrl.doRequest world (genRequest call cInfo (body.getD []).length) body).bind fun handled =>
    match handled with
    | .returned ctrl _ resp _ => some { state with ctrl := ctrl, unread := state.unread ++ [resp] }
    | .joining _ _ => none

def receive (call : Client.Call) : Option CtrlResponse × LogState :=
  let (resp,unread) := getRespHeader call ctrlCmdTimeout state.unread
  (resp,{ state with unread := unread })

/-- The body is read with the header; what it says is nothing to the state. -/
def refreshFilelist (world : World) : Option LogState :=
  (state.serve world .refreshFilelist (Int8.ofInt filetypeAll) none).map fun asked => (asked.receive .refreshFilelist).2

/-- The lengths of the password are not looked at: the user name is, twice. -/
def NameOk (usrName : Text) : Prop :=
  ¬ (usrName.length = 0 ∨ usernameMaxLen < usrName.length ∨ usrName.length < passwdMinLen ∨
    passwdMaxLen < usrName.length)

instance (usrName : Text) : Decidable (NameOk usrName) := inferInstanceAs (Decidable (¬ _))

def logIn (usrName passwd : Text) (world list : World) : Option LogState :=
  if ¬ NameOk usrName then some state
  else
    (state.serve world .logIn 0 (some (userPasswd usrName passwd))).bind fun asked =>
      let (resp,read) := asked.receive .logIn
      if resp.any fun resp => resp.ret == LogInRet.ok.code then
        refreshFilelist
          { read with gCurLoginUsername := usrName, gCurLoginPassword := passwd, gCliState := .login } list
      else some read

def logOut (world : World) : Option LogState :=
  let body := userPasswd state.gCurLoginUsername state.gCurLoginPassword
  (state.serve world .logOut 0 (some body)).map fun asked =>
    -- the body that has been written is measured with the length of the header
    if body.length ≠ cipherLen then asked
    else
      let (resp,read) := asked.receive .logOut
      if resp.any fun resp => resp.ret == LogOutRet.ok.code then
        { read with gCurLoginUsername := [], gCurLoginPassword := [], gCliState := .notLogin }
      else read

def step : Event → Option LogState
  | .logIn usrName passwd world list => state.logIn usrName passwd world list
  | .logOut world => state.logOut world

/-- What the server takes for a user name and a password. -/
def Valid : Event → Prop
  | .logIn usrName passwd _ _ =>
    usrName ≠ [] ∧ 0 ∉ usrName ∧ 0 ∉ passwd ∧ ¬ wrongLengths usrName passwd
  | .logOut _ => True

instance (event : Event) : Decidable (Valid event) :=
  match event with
  | .logIn .. => inferInstanceAs (Decidable (_ ∧ _))
  | .logOut _ => isTrue trivial

def logSystem : System LogState Event where
  Enabled state event := Valid event ∧ (state.step event).isSome
  next state event := (state.step event).getD state

instance (event : Event) : Decidable (logSystem.Enabled state event) :=
  inferInstanceAs (Decidable (_ ∧ _))

/-- Both sides after key agreement. -/
def start (ctrl : CliCtrl) : LogState where
  ctrl := ctrl.setState .keyAgreed

def Agrees : Prop := state.gCliState = .login ↔ state.ctrl.mState = .login

instance : Decidable state.Agrees := inferInstanceAs (Decidable (_ ↔ _))

/-- A log-in that the server turns to CLI_STATE_LOGIN is one that the database accepts, with
fewer old responses than getRespHeader has turns and none of them to a log-in; who logs out
has a user name and a password of 28 bytes together. -/
def Understood : Event → Prop
  | .logIn usrName passwd world _ => NameOk usrName →
    ∀ asked, state.ctrl.asksUserLogin (genRequest .logIn 0 (userPasswd usrName passwd).length)
        (some (userPasswd usrName passwd)) = some asked →
      (world.db.logInAnswers asked.1 world.time).opened = true →
        (world.db.logInAnswers asked.1 world.time).Accept asked.2 ∧ state.unread.length < ctrlCmdTimeout ∧
          ∀ resp ∈ state.unread, ¬ CtrlChannel.Accepts .logIn resp
  | .logOut _ => state.ctrl.mState = .login →
    state.gCurLoginUsername.length+state.gCurLoginPassword.length = 28

section Responses

variable {call : Client.Call} {turns : Nat} {unread : List CtrlResponse} {resp : CtrlResponse}

theorem getRespHeader_rest : ∀ other ∈ (getRespHeader call turns unread).2, other ∈ unread := by
  induction unread generalizing turns with
  | nil => cases turns <;> exact fun _ absent => absent
  | cons first unread ih =>
    cases turns with
    | zero => exact fun _ member => member
    | succ turns =>
      intro other member
      rw [getRespHeader] at member
      split_ifs at member
      · exact List.mem_cons_of_mem _ member
      · exact List.mem_cons_of_mem _ (ih other member)

theorem getRespHeader_some (got : (getRespHeader call turns unread).1 = some resp) :
    resp ∈ unread ∧ CtrlChannel.Accepts call resp := by
  induction unread generalizing turns with
  | nil => cases turns <;> cases got
  | cons first unread ih =>
    cases turns with
    | zero => cases got
    | succ turns =>
      rw [getRespHeader] at got
      split_ifs at got with fits
      · cases got
        exact ⟨List.mem_cons_self,fits⟩
      · obtain ⟨member,accepted⟩ := ih got
        exact ⟨List.mem_cons_of_mem _ member,accepted⟩

/-- The last response is found behind fewer others than there are turns, all of other requests. -/
theorem getRespHeader_last (few : unread.length < turns)
    (others : ∀ other ∈ unread, ¬ CtrlChannel.Accepts call other) (fits : CtrlChannel.Accepts call resp) :
    getRespHeader call turns (unread ++ [resp]) = (some resp,[]) := by
  induction unread generalizing turns with
  | nil =>
    obtain ⟨turns,rfl⟩ := Nat.exists_eq_succ_of_ne_zero (Nat.ne_of_gt few)
    exact if_pos fits
  | cons first unread ih =>
    obtain ⟨turns,rfl⟩ := Nat.exists_eq_succ_of_ne_zero (Nat.ne_of_gt (Nat.zero_lt_of_lt few))
    have skipped : getRespHeader call (turns+1) (first :: (unread ++ [resp])) =
        getRespHeader call turns (unread ++ [resp]) := if_neg (others first List.mem_cons_self)
    rw [List.cons_append,Nat.succ_eq_add_one,skipped]
    exact ih (Nat.lt_of_succ_lt_succ few) fun other member => others other (List.mem_cons_of_mem _ member)

theorem getRespHeader_behind (ok : CtrlResponse → Prop)
    (others : ∀ other ∈ unread, CtrlChannel.Accepts call other → ¬ ok other) {found : CtrlResponse}
    (got : (getRespHeader call turns (unread ++ [resp])).1 = some found) (good : ok found) :
    found = resp ∧ unread.length < turns ∧ ∀ other ∈ unread, ¬ CtrlChannel.Accepts call other := by
  induction unread generalizing turns with
  | nil =>
    obtain ⟨member,_⟩ := getRespHeader_some got
    refine ⟨List.mem_singleton.mp member,?_,fun _ absent => (List.not_mem_nil absent).elim⟩
    cases turns with
    | zero => cases got
    | succ turns => exact Nat.zero_lt_succ _
  | cons first unread ih =>
    cases turns with
    | zero => cases got
    | succ turns =>
      rw [List.cons_append,getRespHeader] at got
      split_ifs at got with fits
      · cases got
        exact absurd good (others _ List.mem_cons_self fits)
      · obtain ⟨same,few,rest⟩ := ih (fun other member => others other (List.mem_cons_of_mem _ member)) got
        exact ⟨same,Nat.succ_lt_succ few,List.forall_mem_cons.mpr ⟨fits,rest⟩⟩

end Responses

section Server

variable {state after : LogState} {world : World}

/-- The log-in with the body makes the server ask an open database. -/
def AsksOpen (ctrl : CliCtrl) (world : World) (body : Text) (asked : Text × Text) : Prop :=
  ctrl.asksUserLogin (genRequest .logIn 0 body.length) (some body) = some asked ∧
    (world.db.logInAnswers asked.1 world.time).opened = true

theorem serve_logIn {body : Text} (ran : state.serve world .logIn 0 (some body) = some after) :
    ∃ ctrl code, after =
        { state with ctrl := ctrl, unread := state.unread ++ [genResp code CmdId.logIn.toWire] } ∧
      (ctrl = state.ctrl ∧ code ≠ LogInRet.ok.code ∧ (∀ asked, ¬ AsksOpen state.ctrl world body asked) ∨
        ∃ asked, AsksOpen state.ctrl world body asked ∧ ctrl = state.ctrl.setState .login ∧
          (code = LogInRet.ok.code ↔ (world.db.logInAnswers asked.1 world.time).Accept asked.2)) := by
  obtain ⟨handled,ran,answered⟩ := Option.bind_eq_some_iff.mp ran
  have chosen : state.ctrl.doLogIn world (genRequest .logIn 0 body.length) (some body) = some handled := ran
  rw [CliCtrl.doLogIn] at chosen
  have silent : state.ctrl.mState ≠ .keyAgreed → ∀ asked, ¬ AsksOpen state.ctrl world body asked :=
    fun other asked asks => other (CliCtrl.asksUserLogin_iff.mp asks.1).2.1
  rcases ite_eq_iff.mp chosen with ⟨already,value⟩ | ⟨_,chosen⟩
  · cases value
    cases answered
    exact ⟨_,_,rfl,.inl ⟨rfl,by decide,silent (by rw [already]; decide)⟩⟩
  rcases ite_eq_iff.mp chosen with ⟨other,value⟩ | ⟨agreed,chosen⟩
  · cases value
    cases answered
    exact ⟨_,_,rfl,.inl ⟨rfl,by decide,silent other⟩⟩
  replace agreed : state.ctrl.mState = .keyAgreed := by_contra agreed
  obtain ⟨read,got,chosen⟩ := Option.bind_eq_some_iff.mp chosen
  have asks : ∀ asked, state.ctrl.asksUserLogin (genRequest .logIn 0 body.length) (some body) = some asked ↔
      read = .ok asked := by
    intro asked
    rw [CliCtrl.asksUserLogin_iff,got]
    exact ⟨fun all => Option.some.inj all.2.2,fun same => ⟨rfl,agreed,congrArg some same⟩⟩
  cases read with
  | error code =>
    cases chosen
    cases answered
    refine ⟨_,_,rfl,.inl ⟨rfl,by decide,fun asked asking => ?_⟩⟩
    cases (asks asked).mp asking.1
  | ok asked =>
    obtain ⟨username,passwd⟩ := asked
    obtain ⟨ret,verdict,rfl⟩ := Option.map_eq_some_iff.mp chosen
    rw [DbCtrl.userLogin_answers] at verdict
    have negative := userLogin_negative verdict
    split_ifs at answered with failed
    · cases answered
      refine ⟨_,_,rfl,.inl ⟨rfl,fun zero => ?_,fun asked asking => ?_⟩⟩
      · rw [zero] at failed
        exact absurd failed (by decide)
      · cases (asks asked).mp asking.1
        have opened : (world.db.logInAnswers username world.time).opened = true := asking.2
        rw [negative.mp failed] at opened
        cases opened
    · cases answered
      have opened : (world.db.logInAnswers username world.time).opened = true :=
        Bool.of_not_eq_false fun closed => failed (negative.mpr closed)
      obtain ⟨_,lower,upper⟩ := getUserPasswd_lengths got
      have fits : ¬ wrongLengths username passwd := by
        rintro (long | long | short)
        · omega
        · omega
        · omega
      refine ⟨_,_,rfl,.inr ⟨(username,passwd),⟨(asks _).mpr rfl,opened⟩,rfl,?_⟩⟩
      rw [← userLogin_ok fits opened,verdict,Option.some.injEq]

theorem serve_logOut {body : Text} (ran : state.serve world .logOut 0 (some body) = some after) :
    after = if state.ctrl.mState = .login then
        { state with
          ctrl := state.ctrl.setState .keyAgreed
          unread := state.unread ++ [genResp LogOutRet.ok.code CmdId.logOut.toWire] }
      else
        { state with unread := state.unread ++ [genResp LogOutRet.donotLogin.code CmdId.logOut.toWire] } := by
  obtain ⟨handled,ran,answered⟩ := Option.bind_eq_some_iff.mp ran
  have chosen : some (state.ctrl.doLogOut (genRequest .logOut 0 body.length)) = some handled := ran
  cases chosen
  rw [CliCtrl.doLogOut] at answered
  by_cases login : state.ctrl.mState = .login
  · rw [if_neg (not_not_intro login)] at answered
    cases answered
    rw [if_pos login]
    rfl
  · rw [if_pos login] at answered
    cases answered
    rw [if_neg login]
    rfl

theorem getRespHeader_one (call : Client.Call) (resp : CtrlResponse) :
    (getRespHeader call ctrlCmdTimeout [resp]).2 = [] := by
  rw [ctrlCmdTimeout,getRespHeader]
  split_ifs
  · rfl
  · rfl

theorem refreshFilelist_state (nothing : state.unread = []) (ran : state.refreshFilelist world = some after) :
    after = state := by
  obtain ⟨asked,served,rfl⟩ := Option.map_eq_some_iff.mp ran
  obtain ⟨handled,done,answered⟩ := Option.bind_eq_some_iff.mp served
  have same : handled.ctrl = state.ctrl := CliCtrl.doGetFilelist_ctrl done
  cases handled with
  | joining ctrl place => cases answered
  | returned ctrl ret resp body =>
    cases answered
    have kept : ctrl = state.ctrl := same
    rw [receive,nothing,List.nil_append]
    dsimp only
    rw [getRespHeader_one,kept]
    cases state
    cases nothing
    rfl

end Server

section Room

theorem userPasswd_length (username passwd : Text) :
    (userPasswd username passwd).length = 20+(username.length+passwd.length) := by
  simp only [userPasswd,List.length_append]
  have names : (text "username=").length = 9 ∧ (text ", password=").length = 11 := by decide
  omega

theorem userPasswd_cString {usrName passwd : Text} (name : 0 ∉ usrName) (secret : 0 ∉ passwd) :
    cString (userPasswd usrName passwd) = userPasswd usrName passwd := by
  refine List.takeWhile_eq_self_iff.mpr fun char member => bne_iff_ne.mpr ?_
  rintro rfl
  rcases List.mem_append.mp member with front | here
  · rcases List.mem_append.mp front with front | here
    · rcases List.mem_append.mp front with here | here
      · exact absurd here (by decide)
      · exact name here
    · exact absurd here (by decide)
  · exact secret here

/-- The server may cut the body elsewhere, but then it takes more for the password. -/
theorem getUserPasswd_room {usrName passwd username word : Text} (name : 0 ∉ usrName) (secret : 0 ∉ passwd)
    (read : getUserPasswd (some (userPasswd usrName passwd)) = some (.ok (username,word))) :
    passwd.length ≤ word.length := by
  have whole := userPasswd_cString name secret
  obtain ⟨i,bound,found⟩ := findText_le (text ", password=") (text "username=" ++ usrName) passwd
  rw [← List.append_assoc] at found
  simp only [getUserPasswd,whole] at read
  rcases ite_eq_iff.mp read with ⟨_,refused⟩ | ⟨_,read⟩
  · simp at refused
  rcases ite_eq_iff.mp read with ⟨_,refused⟩ | ⟨_,read⟩
  · simp at refused
  rcases ite_eq_iff.mp read with ⟨_,refused⟩ | ⟨_,read⟩
  · simp at refused
  obtain ⟨front,_,read⟩ := Option.bind_eq_some_iff.mp read
  split at read
  · simp at read
  obtain ⟨rest,cut,read⟩ := Option.bind_eq_some_iff.mp read
  split at read
  · simp at read
  obtain ⟨_,rfl⟩ : front = username ∧ rest = word := by simpa using read
  have pos2 : position (userPasswd usrName passwd) (text ", password=") ≤ 9+usrName.length := by
    rw [position,userPasswd,found,Option.getD_some,toUInt]
    have names : (text "username=").length = 9 := by decide
    rw [List.length_append,names] at bound
    exact Nat.le_trans (Nat.mod_le _ _) bound
  have symbol : (text ", password=").length = 11 := by decide
  have length := userPasswd_length usrName passwd
  rw [substr] at cut
  split_ifs at cut
  rw [← Option.some.inj cut,List.length_take,List.length_drop,symbol,length]
  omega

theorem empty_room : ([] : Text).length < passwdMaxLen := by decide

/-- A stored password has lost its last byte if it had as many as there is room for. -/
theorem accept_room {db : DbCtrl} {username passwd : Text} {time : Int}
    (accept : (db.logInAnswers username time).Accept passwd) : passwd.length < passwdMaxLen := by
  have stored : ∀ column, (storedPasswd column).length < passwdMaxLen := fun column =>
    Nat.lt_of_le_of_lt (List.length_take_le _ _) (by decide)
  have passwdDb := accept.2.2.1
  cases db with
  | sqlite db =>
    have rows : ∀ (list : List (Option Text)) (passwd : Text), passwd.length < passwdMaxLen →
        (list.foldl DbCtrlSqlite.getPasswdCallback passwd).length < passwdMaxLen := by
      intro list
      induction list with
      | nil => exact fun _ short => short
      | cons column list ih =>
        intro passwd _
        cases column with
        | none => exact ih [] (by decide)
        | some column => exact ih _ (stored column)
    have same := Option.some.inj (Option.some.inj passwdDb)
    rw [← same]
    exact rows _ [] (by decide)
  | mysql db =>
    obtain ⟨row,_,read⟩ := Option.map_eq_some_iff.mp passwdDb
    obtain ⟨column,_,rfl⟩ := Option.map_eq_some_iff.mp read
    exact stored column

end Room

section Runs

variable {state after : LogState} {event : Event} {events : List Event}

/-- The two sides agree, nothing is unread of a client that is logged in, no response to a log-in
that is left behind says that it went well, and the password has been copied within its bounds. -/
structure Steady (state : LogState) : Prop where
  agrees : state.Agrees
  loggedIn : state.ctrl.mState = .login → state.unread = []
  loggedOut : state.ctrl.mState ≠ .login → state.gCurLoginUsername = [] ∧ state.gCurLoginPassword = []
  stale : ∀ resp ∈ state.unread, CtrlChannel.Accepts .logIn resp → resp.ret ≠ LogInRet.ok.code
  room : state.gCurLoginPassword.length < passwdMaxLen

theorem genResp_accepts (call : Client.Call) (ret : Int) :
    CtrlChannel.Accepts call (genResp ret call.cmdId.toWire) := ⟨rfl,rfl⟩

theorem failed_steady {code : Int} (steady : Steady state) (failed : code ≠ LogInRet.ok.code) :
    let asked := { state with unread := state.unread ++ [genResp code CmdId.logIn.toWire] }
    (∀ resp, (asked.receive .logIn).1 = some resp → resp.ret ≠ LogInRet.ok.code) ∧
      Steady (asked.receive .logIn).2 := by
  intro asked
  have stale : ∀ resp ∈ asked.unread, CtrlChannel.Accepts .logIn resp → resp.ret ≠ LogInRet.ok.code := by
    intro resp member
    rcases List.mem_append.mp member with old | new
    · exact steady.stale resp old
    · rw [List.mem_singleton.mp new]
      exact fun _ => failed
  refine ⟨fun resp got => ?_,steady.agrees,fun login => ?_,steady.loggedOut,fun resp member => ?_,steady.room⟩
  · obtain ⟨member,fits⟩ := getRespHeader_some got
    exact stale resp member fits
  · change (getRespHeader .logIn ctrlCmdTimeout (state.unread ++ [_])).2 = []
    rw [steady.loggedIn login]
    exact getRespHeader_one ..
  · exact stale resp (getRespHeader_rest resp member)

theorem any_ok {found : Option CtrlResponse} :
    (found.any fun resp => resp.ret == LogInRet.ok.code) = true ↔ ∃ resp, found = some resp ∧ resp.ret = LogInRet.ok.code := by
  rw [Option.any_eq_true]
  simp only [beq_iff_eq]

theorem receive_ok (ctrl : CliCtrl) (few : state.unread.length < ctrlCmdTimeout)
    (others : ∀ resp ∈ state.unread, ¬ CtrlChannel.Accepts .logIn resp) :
    receive
        { state with ctrl := ctrl, unread := state.unread ++ [genResp LogInRet.ok.code CmdId.logIn.toWire] } .logIn =
      (some (genResp LogInRet.ok.code CmdId.logIn.toWire),{ state with ctrl := ctrl, unread := [] }) := by
  have found : getRespHeader .logIn ctrlCmdTimeout
      (state.unread ++ [genResp LogInRet.ok.code CmdId.logIn.toWire]) =
        (some (genResp LogInRet.ok.code CmdId.logIn.toWire),[]) :=
    getRespHeader_last few others (genResp_accepts .logIn LogInRet.ok.code)
  simp only [receive,found]

/-- Of a log-in that makes the server ask its database. -/
theorem understood_logIn {usrName passwd : Text} {world list : World} {names : Text × Text} (good : NameOk usrName)
    (asks : AsksOpen state.ctrl world (userPasswd usrName passwd) names) :
    state.Understood (.logIn usrName passwd world list) ↔
      (world.db.logInAnswers names.1 world.time).Accept names.2 ∧ state.unread.length < ctrlCmdTimeout ∧
        ∀ resp ∈ state.unread, ¬ CtrlChannel.Accepts .logIn resp := by
  refine ⟨fun all => all good names asks.1 asks.2,fun all _ other asking _ => ?_⟩
  cases asks.1.symm.trans asking
  exact all

/-- What a log-in does that the server lets through: the client takes the response for its own
exactly when the step is understood. -/
theorem logIn_cases {usrName passwd : Text} {world list : World} (steady : Steady state)
    (valid : Valid (.logIn usrName passwd world list))
    (ran : state.logIn usrName passwd world list = some after) :
    Steady after ∧ state.Understood (.logIn usrName passwd world list) ∨
      after.ctrl.mState = .login ∧ after.gCliState ≠ .login ∧
        ¬ state.Understood (.logIn usrName passwd world list) := by
  rw [logIn] at ran
  rcases ite_eq_iff.mp ran with ⟨bad,value⟩ | ⟨good,ran⟩
  · cases value
    exact .inl ⟨steady,fun ok => absurd ok bad⟩
  replace good : NameOk usrName := not_not.mp good
  obtain ⟨asked,ran,rest⟩ := Option.bind_eq_some_iff.mp ran
  dsimp only at rest
  obtain ⟨ctrl,code,rfl,⟨rfl,failed,silent⟩ | ⟨names,asks,rfl,accept⟩⟩ := serve_logIn ran
  · obtain ⟨unread,kept⟩ := failed_steady steady failed
    have quiet : ¬ ((receive { state with unread := state.unread ++ [genResp code CmdId.logIn.toWire] }
        .logIn).1.any fun resp => resp.ret == LogInRet.ok.code) = true := by
      intro some_ok
      obtain ⟨resp,got,ok⟩ := any_ok.mp some_ok
      exact unread resp got ok
    rw [if_neg quiet] at rest
    cases rest
    exact .inl ⟨kept,fun _ names asking opened => absurd ⟨asking,opened⟩ (silent names)⟩
  · have agreed : state.ctrl.mState = .keyAgreed := (CliCtrl.asksUserLogin_iff.mp asks.1).2.1
    have outside : state.gCliState ≠ .login := fun login => by
      have there := steady.agrees.mp login
      rw [agreed] at there
      cases there
    by_cases understood : state.Understood (.logIn usrName passwd world list)
    · obtain ⟨accepted,few,others⟩ := (understood_logIn good asks).mp understood
      obtain rfl : LogInRet.ok.code = code := (accept.mpr accepted).symm
      rw [receive_ok _ few others] at rest
      have done := refreshFilelist_state rfl rest
      subst done
      have read := (CliCtrl.asksUserLogin_iff.mp asks.1).2.2
      have room := Nat.lt_of_le_of_lt (getUserPasswd_room valid.2.1 valid.2.2.1 read) (accept_room accepted)
      refine .inl ⟨⟨iff_of_true rfl rfl,fun _ => rfl,fun out => absurd rfl out,?_,room⟩,understood⟩
      exact fun _ absent => (List.not_mem_nil absent).elim
    · have quiet : ¬ ((receive
          { state with
            ctrl := state.ctrl.setState .login
            unread := state.unread ++ [genResp code CmdId.logIn.toWire] } .logIn).1.any fun resp =>
              resp.ret == LogInRet.ok.code) = true := by
        intro some_ok
        obtain ⟨resp,got,zero⟩ := any_ok.mp some_ok
        obtain ⟨same,few,others⟩ :=
          getRespHeader_behind (fun resp => resp.ret = LogInRet.ok.code) steady.stale got zero
        rw [same] at zero
        exact understood ((understood_logIn good asks).mpr ⟨accept.mp zero,few,others⟩)
      rw [if_neg quiet] at rest
      cases rest
      exact .inr ⟨rfl,outside,understood⟩

theorem logOut_cases {world : World} (steady : Steady state) (ran : state.logOut world = some after) :
    Steady after ∧ state.Understood (.logOut world) ∨
      after.ctrl.mState ≠ .login ∧ after.gCliState = .login ∧ ¬ state.Understood (.logOut world) := by
  obtain ⟨asked,served,rest⟩ := Option.map_eq_some_iff.mp ran
  have answer := serve_logOut served
  rw [userPasswd_length] at rest
  by_cases login : state.ctrl.mState = .login
  · rw [if_pos login,steady.loggedIn login,List.nil_append] at answer
    subst answer
    by_cases fits : state.gCurLoginUsername.length+state.gCurLoginPassword.length = 28
    · rw [fits,if_neg (by decide)] at rest
      subst rest
      refine .inl ⟨⟨iff_of_false nofun nofun,nofun,fun _ => ⟨rfl,rfl⟩,?_,empty_room⟩,fun _ => fits⟩
      exact fun _ absent => (List.not_mem_nil absent).elim
    · have other : 20+(state.gCurLoginUsername.length+state.gCurLoginPassword.length) ≠ cipherLen := by
        rw [cipherLen]
        omega
      rw [if_pos other] at rest
      subst rest
      exact .inr ⟨nofun,steady.agrees.mpr login,fun understood => fits (understood login)⟩
  · obtain ⟨username,passwd⟩ := steady.loggedOut login
    rw [if_neg login] at answer
    subst answer
    rw [username,passwd,if_pos (by decide)] at rest
    subst rest
    refine .inl ⟨⟨steady.agrees,fun there => absurd there login,fun _ => ⟨rfl,rfl⟩,?_,empty_room⟩,
      fun there => absurd there login⟩
    intro resp member
    rcases List.mem_append.mp member with old | new
    · exact steady.stale resp old
    · rw [List.mem_singleton.mp new]
      exact fun fits => absurd fits.1 (by decide)

theorem step_next (enabled : logSystem.Enabled state event) :
    state.step event = some (logSystem.next state event) := by
  obtain ⟨after,ran⟩ := Option.isSome_iff_exists.mp enabled.2
  rw [ran]
  simp [logSystem,ran]

theorem step_cases (steady : Steady state) (enabled : logSystem.Enabled state event) :
    Steady (logSystem.next state event) ∧ state.Understood event ∨
      ¬ (logSystem.next state event).Agrees ∧ ¬ state.Understood event := by
  have ran := step_next enabled
  cases event with
  | logIn usrName passwd world list =>
    rcases logIn_cases steady enabled.1 ran with kept | ⟨server,client,other⟩
    · exact .inl kept
    · exact .inr ⟨fun agrees => client (agrees.mpr server),other⟩
  | logOut world =>
    rcases logOut_cases steady ran with kept | ⟨server,client,other⟩
    · exact .inl kept
    · exact .inr ⟨fun agrees => server (agrees.mp client),other⟩

theorem start_steady (ctrl : CliCtrl) : Steady (start ctrl) :=
  ⟨iff_of_false nofun nofun,nofun,fun _ => ⟨rfl,rfl⟩,fun _ absent => (List.not_mem_nil absent).elim,
    empty_room⟩

/-- After each call the client is logged in exactly when the server has it logged in, if and
only if the steps are understood. -/
theorem logState_agrees_iff (ctrl : CliCtrl) (follows : logSystem.Follows anyEvent (start ctrl) events) :
    (∀ front, front <+: events → (front.foldl logSystem.next (start ctrl)).Agrees) ↔
      logSystem.Follows Understood (start ctrl) events := by
  apply follows_iff_kept (I := Steady) (P := Agrees)
  · intro state event steady enabled understood
    rcases step_cases steady enabled with ⟨kept,_⟩ | ⟨_,other⟩
    · exact kept
    · exact absurd understood other
  · intro state event steady enabled agrees
    rcases step_cases steady enabled with ⟨_,understood⟩ | ⟨apart,_⟩
    · exact understood
    · exact absurd agrees apart
  · exact fun steady => steady.agrees
  · exact start_steady ctrl
  · exact follows

/-- A log-in and a log-out of the only user of the server. -/
def inAndOut (usrName passwd : Text) : List Event :=
  let world := emptyWorld (oneUser usrName passwd)
  [.logIn usrName passwd world world,.logOut world]

def keyAgreed : CliCtrl := newCliCtrl 0 0

theorem logState_agrees_long :
    (∀ front, front <+: inAndOut (text "moclouduser001") (text "moclouduser001") →
      (front.foldl logSystem.next (start keyAgreed)).Agrees) ↔
    logSystem.Follows Understood (start keyAgreed) (inAndOut (text "moclouduser001") (text "moclouduser001")) :=
  logState_agrees_iff keyAgreed (by decide)

theorem logState_stays_in :
    let events := inAndOut (text "ericwu") (text "secret")
    logSystem.Follows anyEvent (start keyAgreed) events ∧
      ¬ (events.foldl logSystem.next (start keyAgreed)).Agrees := by
  decide

end Runs

end LogState

end MoCodes.MoCloud
