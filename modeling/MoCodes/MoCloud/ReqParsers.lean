import MoCodes.MoCloud.DwldRequest

/-! What `CliCtrl::getUserPasswd` and `CliCtrl::getDwldReqInfo` do on the way, for any body: the
constructors of `std::string` that take a part of it, and the bytes of `key.filename` that are written. -/
namespace MoCodes.MoCloud.ReqParsers
open Server

/-- `string(body, pos, n)` of a body of so many bytes, or a store to `key.filename[index]`. -/
inductive Effect where
  | construct (length pos : Nat)
  | store (index : Nat)
  deriving DecidableEq

/-- `result` is `none` when a constructor has thrown. -/
structure Run (α : Type) where
  effects : List Effect
  result : Option α

namespace Run

variable {α β : Type}

def pure (value : α) : Run α := ⟨[],some value⟩

def bind (run : Run α) (next : α → Run β) : Run β :=
  match run.result with
  | none => ⟨run.effects,none⟩
  | some value => ⟨run.effects ++ (next value).effects,(next value).result⟩

def construct (body : Text) (pos n : Nat) : Run Text := ⟨[.construct body.length pos],substr body pos n⟩

/-- strncpy pads up to the size that it is given. -/
def strncpy (n : Nat) : Run Unit := ⟨(List.range n).map .store,some ()⟩

def store (index : Nat) : Run Unit := ⟨[.store index],some ()⟩

theorem bind_result (run : Run α) (next : α → Run β) :
    (run.bind next).result = run.result.bind fun value => (next value).result := by
  rw [bind]
  cases run.result with
  | none => rfl
  | some value => rfl

theorem mem_bind {run : Run α} {next : α → Run β} {value : α} {effect : Effect} (done : run.result = some value) :
    effect ∈ (run.bind next).effects ↔ effect ∈ run.effects ∨ effect ∈ (next value).effects := by
  rw [bind,done]
  exact List.mem_append

theorem bind_isSome {run : Run α} {next : α → Run β} (done : (run.bind next).result.isSome) :
    ∃ value, run.result = some value ∧ (next value).result.isSome := by
  rw [bind_result] at done
  cases got : run.result with
  | none =>
    rw [got] at done
    cases done
  | some value =>
    rw [got] at done
    exact ⟨value,rfl,done⟩

theorem ite_result (c : Prop) [Decidable c] (first second : Run α) :
    (if c then first else second).result = if c then first.result else second.result :=
  apply_ite Run.result c first second

end Run

def getUserPasswd (body : Text) : Run (Except Int (Text × Text)) :=
  let symbUsername := text "username="
  let symbPasswd := text ", password="
  let pos1 := position body symbUsername
  if pos1 = npos then .pure (.error (-2))
  else if pos1 ≠ 0 then .pure (.error (-3))
  else
    let pos2 := position body symbPasswd
    if pos2 = npos then .pure (.error (-4))
    else
      (Run.construct body symbUsername.length (toSize (pos2-symbUsername.length))).bind fun username =>
        if usernameMaxLen < username.length then .pure (.error (-5))
        else (Run.construct body (pos2+symbPasswd.length) body.length).bind fun passwd =>
          if passwd.length < passwdMinLen ∨ passwdMaxLen < passwd.length then .pure (.error (-6))
          else .pure (.ok (username,passwd))

def getDwldReqInfo (body : Text) : Run (Except Int DwldReqInfo) :=
  let symbFiletype := text "filetype="
  let symbFilename := text ", filename="
  let symbStartOffset := text ", startOffset="
  let symbFileId := text ", fileId="
  let pos1 := position body symbFiletype
  if pos1 = npos then .pure (.error (-2))
  else if pos1 ≠ 0 then .pure (.error (-3))
  else
    let pos2 := position body symbFilename
    let pos3 := position body symbStartOffset
    let pos4 := position body symbFileId
    if pos2 = npos then .pure (.error (-4))
    else if pos3 = npos then .pure (.error (-5))
    else if pos4 = npos then .pure (.error (-6))
    else
      let filename := pos2+symbFilename.length
      let offset := pos3+symbStartOffset.length
      (Run.construct body symbFiletype.length (toSize (pos2-symbFiletype.length))).bind fun filetypeStr =>
        (Run.construct body filename (toSize (pos3-filename))).bind fun filenameStr =>
          (Run.strncpy filenameMaxLen).bind fun _ =>
            (Run.store filenameMaxLen).bind fun _ =>
              (Run.construct body offset (toSize (pos4-offset))).bind fun startOffsetStr =>
                (Run.construct body (pos4+symbFileId.length) body.length).bind fun fileIdStr =>
                  .pure (.ok
                    { key := ⟨atoi filetypeStr,filenameStr.take filenameMaxLen⟩
                      startOffset := atoi startOffsetStr
                      fileId := atoi fileIdStr })

/-- A body that getCtrlReqBody has read: its length came in an `int`, and a NUL is behind it. -/
structure RequestBody where
  chars : Text
  noNul : 0 ∉ chars
  length : chars.length < 2^31

namespace RequestBody

variable (body : RequestBody)

theorem whole : cString body.chars = body.chars := by
  refine List.takeWhile_eq_self_iff.mpr fun char member => bne_iff_ne.mpr ?_
  rintro rfl
  exact body.noNul member

theorem getUserPasswd_result : (getUserPasswd body.chars).result = Server.getUserPasswd (some body.chars) := by
  simp only [getUserPasswd,Server.getUserPasswd,body.whole,Run.ite_result,Run.bind_result]
  rfl

theorem getDwldReqInfo_result : (getDwldReqInfo body.chars).result = Server.getDwldReqInfo (some body.chars) := by
  simp only [getDwldReqInfo,Server.getDwldReqInfo,body.whole,Run.ite_result,Run.bind_result]
  rfl

end RequestBody

/-- The symbols follow one behind the other, with anything between them. -/
def Marked : List Text → Text → Prop
  | [],_ => True
  | symbol :: symbols,body => ∃ front rest, body = front ++ (symbol ++ rest) ∧ Marked symbols rest

/-- The first symbol is to be at the beginning, and the others in their order behind it. -/
structure Total {α : Type} (first : Text) (symbols : List Text) (body : Text) (run : Run (Except Int α)) : Prop where
  returns : run.result.isSome
  refuses : ¬ (∃ rest, body = first ++ rest ∧ Marked symbols rest) → ∃ code < 0, run.result = some (.error code)
  starts : ∀ length pos, .construct length pos ∈ run.effects → pos ≤ length
  stores : ∀ index, .store index ∈ run.effects → index < filenameMaxLen

def UserPasswdTotal (body : RequestBody) : Prop :=
  Total (text "username=") [text ", password="] body.chars (getUserPasswd body.chars)

def DwldReqInfoTotal (body : RequestBody) : Prop :=
  Total (text "filetype=") [text ", filename=",text ", startOffset=",text ", fileId="] body.chars
    (getDwldReqInfo body.chars)

section Positions

theorem findText_zero {symbol body : Text} : findText symbol body = some 0 ↔ symbol <+: body := by
  cases body with
  | nil =>
    rw [findText,List.prefix_nil]
    split
    · exact iff_of_true rfl ‹_›
    · exact iff_of_false (Option.some_ne_none 0).symm ‹_›
  | cons char body =>
    rw [findText,← List.isPrefixOf_iff_prefix]
    split
    · exact iff_of_true rfl ‹_›
    · refine iff_of_false (fun zero => ?_) ‹_›
      obtain ⟨i,_,next⟩ := Option.map_eq_some_iff.mp zero
      exact absurd next (Nat.succ_ne_zero i)

variable (body : RequestBody) {symbol : Text}

/-- A symbol that is not there is taken to be at 2^32 - 1, which is not `string::npos`. -/
theorem position_absent (absent : ¬ symbol <:+: body.chars) : position body.chars symbol = 2^32-1 := by
  rw [position,findText_none.mpr absent]
  rfl

theorem position_present {i : Nat} (found : findText symbol body.chars = some i) : position body.chars symbol = i := by
  have fits := findText_fits found
  have length := body.length
  exact position_found found (by omega)

theorem position_zero : position body.chars symbol = 0 ↔ symbol <+: body.chars := by
  rw [← findText_zero]
  cases found : findText symbol body.chars with
  | none =>
    rw [position_absent body (findText_none.mp found)]
    exact iff_of_false (by decide) (Option.some_ne_none 0).symm
  | some i =>
    rw [position_present body found,Option.some_inj]

end Positions

section Refused

variable {α : Type} {first : Text} {symbols : List Text} {body : Text}

theorem total_refused {code : Int} (negative : code < 0) :
    Total first symbols body (.pure (.error code : Except Int α)) where
  returns := rfl
  refuses _ := ⟨code,negative,rfl⟩
  starts _ _ absent := (List.not_mem_nil absent).elim
  stores _ absent := (List.not_mem_nil absent).elim

end Refused

section Download

variable {body : RequestBody}

theorem getDwldReqInfo_refused (other : ¬ text "filetype=" <+: body.chars) :
    getDwldReqInfo body.chars = .pure (.error (-3)) := by
  rw [getDwldReqInfo]
  exact (if_neg (position_ne_npos _ _)).trans (if_pos (mt (position_zero body).mp other))

/-- A body that is read has a byte stored behind the name. -/
theorem getDwldReqInfo_stores (begins : text "filetype=" <+: body.chars)
    (returns : (getDwldReqInfo body.chars).result.isSome) : .store 256 ∈ (getDwldReqInfo body.chars).effects := by
  have zero := (position_zero body).mpr begins
  simp only [getDwldReqInfo,if_neg (position_ne_npos _ _),zero,ne_eq,not_true_eq_false,if_false] at returns ⊢
  obtain ⟨filetypeStr,first,returns⟩ := Run.bind_isSome returns
  obtain ⟨filenameStr,second,returns⟩ := Run.bind_isSome returns
  refine (Run.mem_bind first).mpr (.inr ((Run.mem_bind second).mpr (.inr ?_)))
  exact (Run.mem_bind rfl).mpr (.inr ((Run.mem_bind rfl).mpr (.inl List.mem_cons_self)))

theorem dwldReqInfoTotal_iff : DwldReqInfoTotal body ↔ ¬ text "filetype=" <+: body.chars := by
  constructor
  · intro total begins
    have inside := total.stores 256 (getDwldReqInfo_stores begins total.returns)
    exact absurd inside (by decide)
  · intro other
    rw [DwldReqInfoTotal,getDwldReqInfo_refused other]
    exact total_refused (by decide)

end Download

section Credentials

variable {body : RequestBody}

theorem getUserPasswd_refused (other : ¬ text "username=" <+: body.chars) :
    getUserPasswd body.chars = .pure (.error (-3)) := by
  rw [getUserPasswd]
  exact (if_neg (position_ne_npos _ _)).trans (if_pos (mt (position_zero body).mp other))

/-- The constructors of a body that begins as it should. -/
theorem getUserPasswd_begun (begins : text "username=" <+: body.chars) : getUserPasswd body.chars =
    (Run.construct body.chars 9 (toSize (position body.chars (text ", password=")-9))).bind fun username =>
      if usernameMaxLen < username.length then .pure (.error (-5))
      else (Run.construct body.chars (position body.chars (text ", password=")+11) body.chars.length).bind fun passwd =>
        if passwd.length < passwdMinLen ∨ passwdMaxLen < passwd.length then .pure (.error (-6))
        else .pure (.ok (username,passwd)) := by
  have zero := (position_zero body).mpr begins
  have lengths : (text "username=").length = 9 ∧ (text ", password=").length = 11 := by decide
  simp only [getUserPasswd,if_neg (position_ne_npos _ _),zero,ne_eq,not_true_eq_false,if_false,lengths]
  rfl

theorem begun_length (begins : text "username=" <+: body.chars) : 9 ≤ body.chars.length := begins.length_le

theorem marked_username (begins : text "username=" <+: body.chars) (within : text ", password=" <:+: body.chars) :
    ∃ rest, body.chars = text "username=" ++ rest ∧ Marked [text ", password="] rest := by
  obtain ⟨rest,whole⟩ := begins
  refine ⟨rest,whole.symm,?_⟩
  have symbol : text ", password=" = 44 :: (text ", password=").tail ∧ 44 ∉ text "username=" := by decide
  have behind : text ", password=" <:+: rest := by
    by_contra absent
    have nowhere := findText_none.mpr absent
    rw [symbol.1] at nowhere
    have skipped : findText (44 :: (text ", password=").tail) (text "username=" ++ rest) = none := by
      rw [findText_skip symbol.2,nowhere]
      rfl
    rw [whole,← symbol.1] at skipped
    exact findText_none.mp skipped within
  obtain ⟨front,last,parts⟩ := behind
  exact ⟨front,last,by rw [← parts,List.append_assoc],trivial⟩

theorem total_found (begins : text "username=" <+: body.chars) (within : text ", password=" <:+: body.chars) :
    UserPasswdTotal body := by
  have nine := begun_length begins
  obtain ⟨i,found⟩ : ∃ i, findText (text ", password=") body.chars = some i :=
    Option.ne_none_iff_exists'.mp fun nowhere => findText_none.mp nowhere within
  have fits := findText_fits found
  have eleven : (text ", password=").length = 11 := by decide
  rw [eleven] at fits
  have first : (Run.construct body.chars 9 (toSize (i-9))).result = some ((body.chars.drop 9).take (toSize (i-9))) :=
    substr_some nine
  have second : (Run.construct body.chars (i+11) body.chars.length).result =
      some ((body.chars.drop (i+11)).take body.chars.length) := substr_some fits
  rw [UserPasswdTotal,getUserPasswd_begun begins,position_present body found]
  refine ⟨?_,fun other => absurd (marked_username begins within) other,fun length pos among => ?_,fun index among => ?_⟩
  · rw [Run.bind_result,first,Option.bind_some]
    split
    · rfl
    · rw [Run.bind_result,second,Option.bind_some]
      split <;> rfl
  · rcases (Run.mem_bind first).mp among with here | among
    · cases List.mem_singleton.mp here
      exact nine
    split at among
    · cases among
    · rcases (Run.mem_bind second).mp among with here | among
      · cases List.mem_singleton.mp here
        exact fits
      · split at among <;> cases among
  · rcases (Run.mem_bind first).mp among with here | among
    · cases List.mem_singleton.mp here
    split at among
    · cases among
    · rcases (Run.mem_bind second).mp among with here | among
      · cases List.mem_singleton.mp here
      · split at among <;> cases among

theorem construct_username (begins : text "username=" <+: body.chars) :
    (Run.construct body.chars 9 (toSize ((2^32-1 : Nat)-9))).result = some (body.chars.drop 9) := by
  have length := body.length
  rw [Run.construct,substr_some (begun_length begins)]
  refine congrArg some (List.take_of_length_le ?_)
  have wide : toSize ((2^32-1 : Nat)-9) = 2^32-10 := by decide
  rw [List.length_drop,wide]
  omega

section Absent

variable (begins : text "username=" <+: body.chars) (absent : ¬ text ", password=" <:+: body.chars)
include begins absent

theorem total_long (long : 41 < body.chars.length) : UserPasswdTotal body := by
  have first := construct_username begins
  have large : usernameMaxLen < (body.chars.drop 9).length := by
    rw [List.length_drop,usernameMaxLen]
    omega
  have run : getUserPasswd body.chars = ⟨[.construct body.chars.length 9],some (.error (-5))⟩ := by
    rw [getUserPasswd_begun begins,position_absent body absent,Run.bind,first]
    dsimp only
    rw [if_pos large]
    rfl
  rw [UserPasswdTotal,run]
  refine ⟨rfl,fun _ => ⟨-5,by decide,rfl⟩,fun length pos among => ?_,fun index among => ?_⟩
  · cases List.mem_singleton.mp among
    exact begun_length begins
  · cases List.mem_singleton.mp among

/-- Behind a short one the constructor of the password throws. -/
theorem not_total (short : body.chars.length ≤ 41) : ¬ UserPasswdTotal body := by
  intro total
  have first := construct_username begins
  have small : ¬ usernameMaxLen < (body.chars.drop 9).length := by
    rw [List.length_drop,usernameMaxLen]
    omega
  have second : (Run.construct body.chars (2^32-1+11) body.chars.length).result = none :=
    if_pos (by omega)
  have returns := total.returns
  rw [getUserPasswd_begun begins,position_absent body absent,Run.bind_result,first,Option.bind_some,if_neg small,
    Run.bind_result,second] at returns
  cases returns

end Absent

theorem userPasswdTotal_iff : UserPasswdTotal body ↔
    ¬ text "username=" <+: body.chars ∨ text ", password=" <:+: body.chars ∨ 41 < body.chars.length := by
  by_cases begins : text "username=" <+: body.chars
  · by_cases within : text ", password=" <:+: body.chars
    · exact iff_of_true (total_found begins within) (.inr (.inl within))
    by_cases long : 41 < body.chars.length
    · exact iff_of_true (total_long begins within long) (.inr (.inr long))
    · refine iff_of_false (not_total begins within (Nat.le_of_not_lt long)) ?_
      rintro (other | there | large)
      · exact other begins
      · exact within there
      · exact long large
  · refine iff_of_true ?_ (.inl begins)
    rw [UserPasswdTotal,getUserPasswd_refused begins]
    exact total_refused (by decide)

end Credentials

/-- getUserPasswd throws for a short body without a password, and getDwldReqInfo never ends well. -/
theorem parsers_total_iff (body : RequestBody) :
    (UserPasswdTotal body ↔
      ¬ text "username=" <+: body.chars ∨ text ", password=" <:+: body.chars ∨ 41 < body.chars.length) ∧
      (DwldReqInfoTotal body ↔ ¬ text "filetype=" <+: body.chars) :=
  ⟨userPasswdTotal_iff,dwldReqInfoTotal_iff⟩

def noPasswd : RequestBody := ⟨text "username=eric",by decide,by decide⟩

def rightRequest : RequestBody := ⟨text "filetype=1, filename=a, startOffset=0, fileId=0",by decide,by decide⟩

/-- A request with its symbols in a wrong order is read as if they were in the right one. -/
theorem parsers_not_total :
    (Server.getUserPasswd (some noPasswd.chars) = none ∧ ¬ UserPasswdTotal noPasswd) ∧ ¬ DwldReqInfoTotal rightRequest ∧
      Server.getDwldReqInfo (some (text "filetype=1, startOffset=0, filename=a, fileId=0")) =
        some (.ok ⟨⟨1,text "a, fileId=0"⟩,0,0⟩) := by
  refine ⟨⟨by decide,?_⟩,?_,by decide⟩
  · rw [userPasswdTotal_iff]
    decide
  · rw [dwldReqInfoTotal_iff]
    decide

end MoCodes.MoCloud.ReqParsers
