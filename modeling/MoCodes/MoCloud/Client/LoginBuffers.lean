import MoCodes.MoCloud.LogState

/-! moCloudClient_signUp and moCloudClient_logIn with the buffers that they fill: the body of the
request, and the user name and the password of who is logged in. -/
namespace MoCodes.MoCloud.Client.LoginBuffers
open LogState Server

/-- A text in memory, up to its NUL. -/
structure Str where
  chars : Text
  noNul : 0 ∉ chars

/-- An array of `char`. -/
structure Buffer (size : Nat) where
  bytes : Text
  length : bytes.length = size

namespace Buffer

variable {size : Nat}

def zero (size : Nat) : Buffer size := ⟨List.replicate size 0,List.length_replicate⟩

/-- `none` writes behind the array, which it does for want of room for the NUL already. -/
def strcpy (buffer : Buffer size) (chars : Text) : Option (Buffer size) :=
  if room : chars.length < size then
    some
      ⟨chars ++ 0 :: buffer.bytes.drop (chars.length+1),by
        rw [List.length_append,List.length_cons,List.length_drop,buffer.length]
        omega⟩
  else none

theorem strcpy_isSome {buffer : Buffer size} {chars : Text} :
    (buffer.strcpy chars).isSome ↔ chars.length < size := by
  unfold strcpy
  split
  · exact iff_of_true rfl ‹_›
  · exact iff_of_false Bool.false_ne_true ‹_›

theorem strcpy_cString {buffer after : Buffer size} {chars : Text} (noNul : 0 ∉ chars)
    (copied : buffer.strcpy chars = some after) : cString after.bytes = chars := by
  rw [strcpy] at copied
  split at copied
  · cases copied
    have front : ∀ char ∈ chars, (char != 0) = true := fun char member =>
      bne_iff_ne.mpr fun nul => noNul (nul ▸ member)
    rw [cString,List.takeWhile_append_of_pos front]
    exact List.append_nil _
  · cases copied

end Buffer

def errInputNull : Int := -1

def errInputInvalid : Int := -9

def errInternalError : Int := -10

def errSendRequest : Int := -11

def errGetrespFailed : Int := -12

/-- What the calls on the way give: the cipher text of the header, what writen returns for it and
for the body, and the response that has come in time. -/
structure Answers where
  getCipherRequestInfo : CtrlRequest → Option Text
  writenHeader : Text → Int
  writenBody : Text → Int
  getRespHeader : Call → Option CtrlResponse

structure Login where
  gCurLoginUsername : Buffer usernameMaxLen
  gCurLoginPassword : Buffer passwdMaxLen
  gCliState : GCliState

def bodySize : Nat := (usernameMaxLen+passwdMaxLen)*2

/-- From the test of the lengths to the response; `none` when sprintf writes behind the body. -/
def request (answers : Answers) (call : Call) (usrName passwd : Str) : Option (Except Int CtrlResponse) :=
  if ¬ NameOk usrName.chars then some (.error errInputInvalid)
  else
    ((Buffer.zero bodySize).strcpy (userPasswd usrName.chars passwd.chars)).map fun buffer =>
      let body := cString buffer.bytes
      match answers.getCipherRequestInfo (genRequest call 0 body.length) with
      | none => .error errInternalError
      | some pCipherReq =>
        if answers.writenHeader pCipherReq ≠ pCipherReq.length then .error errSendRequest
        else if answers.writenBody body ≠ body.length then .error errSendRequest
        else
          match answers.getRespHeader call with
          | none => .error errGetrespFailed
          | some resp => .ok resp

def signUp (answers : Answers) : Option Str → Option Str → Option Int
  | some usrName,some passwd =>
    (request answers .signUp usrName passwd).map fun
      | .error code => code
      | .ok resp => resp.ret
  | _,_ => some errInputNull

def remember (usrName passwd : Str) : Option Login :=
  ((Buffer.zero usernameMaxLen).strcpy usrName.chars).bind fun username =>
    ((Buffer.zero passwdMaxLen).strcpy passwd.chars).map fun password => ⟨username,password,.login⟩

/-- What refreshFilelist returns is only logged. -/
def logIn (answers : Answers) (login : Login) : Option Str → Option Str → Option (Int × Login)
  | some usrName,some passwd =>
    (request answers .logIn usrName passwd).bind fun
      | .error code => some (code,login)
      | .ok resp =>
        if resp.ret = LogInRet.ok.code then (remember usrName passwd).map fun login => (resp.ret,login)
        else some (resp.ret,login)
  | _,_ => some (errInputNull,login)

section Property

variable (usrName passwd : Str)

def SignUpRejects : Prop := ∀ answers, signUp answers (some usrName) (some passwd) = some errInputInvalid

def LogInRejects : Prop :=
  ∀ answers login, logIn answers login (some usrName) (some passwd) = some (errInputInvalid,login)

def Holds (login : Login) : Prop :=
  cString login.gCurLoginUsername.bytes = usrName.chars ∧ cString login.gCurLoginPassword.bytes = passwd.chars

/-- The lengths that the server takes. -/
def Documented : Prop := usrName.chars ≠ [] ∧ ¬ wrongLengths usrName.chars passwd.chars

structure Handled : Prop where
  signUp : SignUpRejects usrName passwd ∨ ∀ answers, (signUp answers (some usrName) (some passwd)).isSome
  logIn : LogInRejects usrName passwd ∨ ∀ answers login, ∃ ret after,
    logIn answers login (some usrName) (some passwd) = some (ret,after) ∧
      (ret = LogInRet.ok.code → Holds usrName passwd after)
  accepted : Documented usrName passwd → ¬ SignUpRejects usrName passwd ∧ ¬ LogInRejects usrName passwd

end Property

variable {answers : Answers} {call : Call} {login after : Login} {usrName passwd : Str}

section Request

theorem request_rejected (wrong : ¬ NameOk usrName.chars) :
    request answers call usrName passwd = some (.error errInputInvalid) := if_pos wrong

theorem userPasswd_fits :
    (userPasswd usrName.chars passwd.chars).length < bodySize ↔ usrName.chars.length+passwd.chars.length < 76 := by
  rw [userPasswd_length,bodySize,usernameMaxLen,passwdMaxLen]
  omega

theorem request_inside (fits : usrName.chars.length+passwd.chars.length < 76) :
    (request answers call usrName passwd).isSome := by
  rw [request]
  split
  · rfl
  · rw [Option.isSome_map]
    exact Buffer.strcpy_isSome.mpr (userPasswd_fits.mpr fits)

theorem request_outside (ok : NameOk usrName.chars) (long : 76 ≤ usrName.chars.length+passwd.chars.length) :
    request answers call usrName passwd = none := by
  have behind : (Buffer.zero bodySize).strcpy (userPasswd usrName.chars passwd.chars) = none :=
    Option.not_isSome_iff_eq_none.mp fun inside =>
      absurd (userPasswd_fits.mp (Buffer.strcpy_isSome.mp inside)) (Nat.not_lt_of_le long)
  rw [request,if_neg (not_not_intro ok),behind]
  rfl

theorem request_failed {code : Int} (failed : request answers call usrName passwd = some (.error code)) : code < 0 := by
  rw [request] at failed
  split at failed
  · cases failed
    decide
  · obtain ⟨buffer,_,failed⟩ := Option.map_eq_some_iff.mp failed
    dsimp only at failed
    split at failed
    · cases failed
      decide
    · split at failed
      · cases failed
        decide
      split at failed
      · cases failed
        decide
      split at failed
      · cases failed
        decide
      · cases failed

def answering (ret : Int) : Answers where
  getCipherRequestInfo _ := some []
  writenHeader pCipherReq := pCipherReq.length
  writenBody body := body.length
  getRespHeader call := some (genResp ret call.cmdId.toWire)

theorem request_answering (ok : NameOk usrName.chars) (ret : Int) :
    request (answering ret) call usrName passwd =
      ((Buffer.zero bodySize).strcpy (userPasswd usrName.chars passwd.chars)).map fun _ =>
        .ok (genResp ret call.cmdId.toWire) := by
  rw [request,if_neg (not_not_intro ok)]
  congr 1
  funext buffer
  exact (if_neg (not_not_intro rfl)).trans (if_neg (not_not_intro rfl))

end Request

section Calls

theorem rejects (wrong : ¬ NameOk usrName.chars) : SignUpRejects usrName passwd ∧ LogInRejects usrName passwd := by
  constructor
  · intro answers
    rw [signUp,request_rejected wrong]
    rfl
  · intro answers login
    rw [logIn,request_rejected wrong]
    rfl

/-- A user that the server says is logged in already has been let through. -/
theorem not_rejects (ok : NameOk usrName.chars) :
    ¬ SignUpRejects usrName passwd ∧ ¬ LogInRejects usrName passwd := by
  constructor
  · intro always
    have same := always (answering LogInRet.hasLogin.code)
    rw [signUp,request_answering ok,Option.map_map] at same
    obtain ⟨_,_,code⟩ := Option.map_eq_some_iff.mp same
    cases code
  · intro always
    have login : Login := ⟨Buffer.zero _,Buffer.zero _,.notLogin⟩
    have same := always (answering LogInRet.hasLogin.code) login
    rw [logIn,request_answering ok] at same
    obtain ⟨response,given,returned⟩ := Option.bind_eq_some_iff.mp same
    obtain ⟨_,_,rfl⟩ := Option.map_eq_some_iff.mp given
    cases returned

theorem remember_isSome : (remember usrName passwd).isSome ↔
    usrName.chars.length < usernameMaxLen ∧ passwd.chars.length < passwdMaxLen := by
  constructor
  · intro stored
    obtain ⟨after,stored⟩ := Option.isSome_iff_exists.mp stored
    obtain ⟨username,first,rest⟩ := Option.bind_eq_some_iff.mp stored
    obtain ⟨password,second,_⟩ := Option.map_eq_some_iff.mp rest
    exact ⟨Buffer.strcpy_isSome.mp (Option.isSome_of_eq_some first),
      Buffer.strcpy_isSome.mp (Option.isSome_of_eq_some second)⟩
  · rintro ⟨name,secret⟩
    have first : ((Buffer.zero usernameMaxLen).strcpy usrName.chars).isSome := Buffer.strcpy_isSome.mpr name
    obtain ⟨username,first⟩ := Option.isSome_iff_exists.mp first
    rw [remember,first,Option.bind_some,Option.isSome_map]
    exact Buffer.strcpy_isSome.mpr secret

theorem remember_holds (stored : remember usrName passwd = some after) : Holds usrName passwd after := by
  obtain ⟨username,first,rest⟩ := Option.bind_eq_some_iff.mp stored
  obtain ⟨password,second,rfl⟩ := Option.map_eq_some_iff.mp rest
  exact ⟨Buffer.strcpy_cString usrName.noNul first,Buffer.strcpy_cString passwd.noNul second⟩

theorem signUp_inside (fits : usrName.chars.length+passwd.chars.length < 76) :
    (signUp answers (some usrName) (some passwd)).isSome := by
  rw [signUp,Option.isSome_map]
  exact request_inside fits

theorem logIn_inside (fits : usrName.chars.length+passwd.chars.length < 76)
    (room : usrName.chars.length < usernameMaxLen ∧ passwd.chars.length < passwdMaxLen) :
    ∃ ret after, logIn answers login (some usrName) (some passwd) = some (ret,after) ∧
      (ret = LogInRet.ok.code → Holds usrName passwd after) := by
  have inside : (request answers .logIn usrName passwd).isSome := request_inside fits
  obtain ⟨response,given⟩ := Option.isSome_iff_exists.mp inside
  rw [logIn,given,Option.bind_some]
  cases response with
  | error code =>
    exact ⟨code,login,rfl,fun ok => absurd ok (Int.ne_of_lt (request_failed given))⟩
  | ok resp =>
    dsimp only
    split
    · obtain ⟨after,stored⟩ := Option.isSome_iff_exists.mp (remember_isSome.mpr room)
      rw [stored]
      exact ⟨resp.ret,after,rfl,fun _ => remember_holds stored⟩
    · rename_i other
      exact ⟨resp.ret,login,rfl,fun ok => absurd ok other⟩

end Calls

section Lengths

theorem nameOk_iff (usrName : Text) : NameOk usrName ↔ 6 ≤ usrName.length ∧ usrName.length ≤ 16 := by
  unfold NameOk usernameMaxLen passwdMinLen passwdMaxLen
  omega

theorem documented_iff : Documented usrName passwd ↔ (1 ≤ usrName.chars.length ∧ usrName.chars.length ≤ 32) ∧
    6 ≤ passwd.chars.length ∧ passwd.chars.length ≤ 16 := by
  unfold Documented wrongLengths usernameMaxLen passwdMinLen passwdMaxLen
  rw [← List.length_pos_iff]
  omega

end Lengths

theorem handled_let_through (ok : NameOk usrName.chars) :
    Handled usrName passwd ↔ passwd.chars.length < passwdMaxLen := by
  have short := (nameOk_iff _).mp ok
  constructor
  · intro handled
    have inside := handled.logIn.resolve_left (not_rejects ok).2
    obtain ⟨ret,after,done,_⟩ := inside (answering LogInRet.ok.code) ⟨.zero _,.zero _,.notLogin⟩
    rw [logIn,request_answering ok] at done
    obtain ⟨response,given,done⟩ := Option.bind_eq_some_iff.mp done
    obtain ⟨_,_,rfl⟩ := Option.map_eq_some_iff.mp given
    obtain ⟨after,stored,_⟩ := Option.map_eq_some_iff.mp done
    exact (remember_isSome.mp (Option.isSome_of_eq_some stored)).2
  · intro room
    have fits : usrName.chars.length+passwd.chars.length < 76 := by
      rw [passwdMaxLen] at room
      omega
    have name : usrName.chars.length < usernameMaxLen := by
      rw [usernameMaxLen]
      omega
    exact
      { signUp := .inr fun _ => signUp_inside fits
        logIn := .inr fun _ _ => logIn_inside fits ⟨name,room⟩
        accepted := fun _ => not_rejects ok }

theorem handled_rejected (wrong : ¬ NameOk usrName.chars) :
    Handled usrName passwd ↔ ¬ Documented usrName passwd := by
  obtain ⟨signs,logs⟩ : SignUpRejects usrName passwd ∧ LogInRejects usrName passwd := rejects wrong
  constructor
  · exact fun handled documented => (handled.accepted documented).1 signs
  · intro outside
    exact ⟨.inl signs,.inl logs,fun documented => absurd documented outside⟩

/-- A name that is let through by its own length, with a password that gCurLoginPassword has room
for; or a name that is not let through, and should not be. -/
theorem handled_iff (usrName passwd : Str) : Handled usrName passwd ↔
    (6 ≤ usrName.chars.length ∧ usrName.chars.length ≤ 16 ∧ passwd.chars.length ≤ 15) ∨
      ((usrName.chars.length < 6 ∨ 16 < usrName.chars.length) ∧
        (usrName.chars.length = 0 ∨ 32 < usrName.chars.length ∨
          passwd.chars.length < 6 ∨ 16 < passwd.chars.length)) := by
  by_cases ok : NameOk usrName.chars
  · rw [handled_let_through ok,passwdMaxLen]
    have lengths := (nameOk_iff _).mp ok
    omega
  · rw [handled_rejected ok,documented_iff]
    have lengths := mt (nameOk_iff _).mpr ok
    omega

/-- `bob` is turned away with a password that the server takes; of the other body the NUL lies
behind the array. -/
theorem handled_not_all :
    ¬ Handled ⟨text "bob",by decide⟩ ⟨text "secret12",by decide⟩ ∧
      ¬ Handled ⟨text "moCloudUser1",by decide⟩ ⟨List.replicate 64 97,by decide⟩ ∧
      ∀ answers, signUp answers (some ⟨text "moCloudUser1",by decide⟩) (some ⟨List.replicate 64 97,by decide⟩) = none := by
  refine ⟨?_,?_,fun answers => ?_⟩
  · rw [handled_rejected (by decide),documented_iff]
    decide
  · rw [handled_let_through (by decide)]
    decide
  · rw [signUp,request_outside (by decide) (by decide)]
    rfl

end MoCodes.MoCloud.Client.LoginBuffers
