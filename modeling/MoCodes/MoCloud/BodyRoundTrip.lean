import MoCodes.MoCloud.DwldRequest
import MoCodes.MoCloud.LogState

/-! What the server reads of the bodies that the client formats, neither of which escapes anything. -/
namespace MoCodes.MoCloud.BodyRoundTrip
open LogState Server Server.SendFile

structure Admitted where
  usrName : Text
  passwd : Text
  nameOk : LogState.NameOk usrName
  name : 0 ∉ usrName
  secret : 0 ∉ passwd

structure Asked where
  key : FileinfoKey
  startOffset : Int
  fileId : Int
  name : IsName key.filename
  filetype : IsInt key.filetype
  offset : IsInt startOffset
  id : IsInt fileId

namespace Admitted

variable (user : Admitted)

def Same : Prop := ∀ username passwd,
  getUserPasswd (some (userPasswd user.usrName user.passwd)) = some (.ok (username,passwd)) →
    username = user.usrName ∧ passwd = user.passwd

/-- A name with the symbol leaves so much to the password that it is refused. -/
def Plain : Prop := ∀ pos, findText (text ", password=") user.usrName = some pos →
  passwdMaxLen < user.usrName.length-pos+user.passwd.length

/-- The length of the user name that the server takes. -/
def cut : Nat := (findText (text ", password=") user.usrName).getD user.usrName.length

def word : Text := (user.usrName ++ (text ", password=" ++ user.passwd)).drop (user.cut+11)

variable {user}

theorem symbols : (text "username=").length = 9 ∧ (text ", password=").length = 11 ∧ 44 ∉ text "username=" ∧
    44 ∉ (text ", password=").tail ∧ text ", password=" = 44 :: (text ", password=").tail := by
  decide

theorem body_parts :
    userPasswd user.usrName user.passwd = text "username=" ++ (user.usrName ++ (text ", password=" ++ user.passwd)) := by
  rw [userPasswd,List.append_assoc,List.append_assoc]

theorem cut_le : user.cut ≤ user.usrName.length := by
  rw [cut]
  cases inside : findText (text ", password=") user.usrName with
  | none => exact Nat.le_refl _
  | some pos => exact Nat.le_trans (Nat.le_add_right _ _) (findText_fits inside)

theorem name_short : user.usrName.length ≤ 16 := by
  have ok := user.nameOk
  unfold LogState.NameOk passwdMaxLen at ok
  omega

theorem word_length : user.word.length = user.usrName.length-user.cut+user.passwd.length := by
  have bound := user.cut_le
  rw [word,List.length_drop,List.length_append,List.length_append,symbols.2.1]
  omega

theorem position_username : position (userPasswd user.usrName user.passwd) (text "username=") = 0 := by
  rw [body_parts]
  exact position_found (findText_here _ _) (by decide)

theorem position_passwd : position (userPasswd user.usrName user.passwd) (text ", password=") = 9+user.cut := by
  obtain ⟨nine,_,plain,fresh,split⟩ := symbols
  have bound := user.cut_le
  have short := user.name_short
  refine position_found ?_ (by omega)
  rw [body_parts,cut]
  rw [split]
  rw [findText_skip plain,findText_getD fresh,nine]
  exact congrArg some (Nat.add_comm _ _)

/-- The user name is never too long; the password is as long as what follows the cut. -/
theorem read_userPasswd : getUserPasswd (some (userPasswd user.usrName user.passwd)) =
    some (if user.word.length < passwdMinLen ∨ passwdMaxLen < user.word.length then .error (-6)
      else .ok (user.usrName.take user.cut,user.word)) := by
  obtain ⟨nine,eleven,_⟩ := symbols
  have bound := user.cut_le
  have short := user.name_short
  have first := user.position_username
  have second := user.position_passwd
  have length := userPasswd_length user.usrName user.passwd
  have count : toSize ((9+user.cut : Nat)-(9 : Nat)) = user.cut := by
    rw [toSize]
    omega
  have behind : (userPasswd user.usrName user.passwd).drop 9 =
      user.usrName ++ (text ", password=" ++ user.passwd) := by
    rw [body_parts,← nine,List.drop_left]
  have front : substr (userPasswd user.usrName user.passwd) 9 user.cut = some (user.usrName.take user.cut) := by
    rw [substr_some (by omega),behind,List.take_append_of_le_length bound]
  have rest : substr (userPasswd user.usrName user.passwd) (9+user.cut+11)
      (userPasswd user.usrName user.passwd).length = some user.word := by
    rw [substr_some (by omega),List.take_of_length_le (by rw [List.length_drop]; omega),Nat.add_assoc,← List.drop_drop,behind]
    rfl
  have fits : ¬ usernameMaxLen < (user.usrName.take user.cut).length := by
    rw [List.length_take,usernameMaxLen]
    omega
  simp only [getUserPasswd,userPasswd_cString user.name user.secret,if_neg (position_ne_npos _ _),nine,eleven]
  rw [first,second,if_neg (not_not_intro rfl),count,front,Option.bind_some,if_neg fits,rest,Option.bind_some]
  split <;> rfl

theorem same_iff : user.Same ↔ user.Plain := by
  constructor
  · intro same pos found
    by_contra short
    have inside := findText_fits found
    rw [symbols.2.1] at inside
    have here : user.cut = pos := by
      rw [cut,found]
      rfl
    have taken : ¬ (user.word.length < passwdMinLen ∨ passwdMaxLen < user.word.length) := by
      rw [word_length,here,passwdMinLen]
      omega
    have read := user.read_userPasswd
    rw [if_neg taken] at read
    have whole := congrArg List.length (same _ _ read).1
    rw [List.length_take] at whole
    omega
  · intro plain username passwd read
    rw [read_userPasswd] at read
    split at read
    · cases read
    rename_i taken
    cases read
    have long := user.word_length
    cases found : findText (text ", password=") user.usrName with
    | some pos =>
      have here : user.cut = pos := by
        rw [cut,found]
        rfl
      have refused := plain pos found
      omega
    | none =>
      have whole : user.cut = user.usrName.length := by
        rw [cut,found]
        rfl
      constructor
      · rw [whole,List.take_length]
      · rw [word,whole,← List.drop_drop,List.drop_left,← symbols.2.1,List.drop_left]

end Admitted

namespace Asked

variable (asked : Asked)

def Same : Prop := getDwldReqInfo (some (dwldTaskInfo asked.key asked.startOffset asked.fileId)) =
  some (.ok ⟨asked.key,asked.startOffset,asked.fileId⟩)

/-- The name is not cut, and a number behind a symbol in it is the file id. -/
def Plain : Prop :=
  ¬ text ", startOffset=" <:+: asked.key.filename ∧
    ∀ pos, findText (text ", fileId=") asked.key.filename = some pos →
      atoi (asked.key.filename.drop (pos+9)) = asked.fileId

variable {asked}

theorem same_iff : asked.Same ↔ asked.Plain := by
  obtain ⟨key,startOffset,fileId,name,filetype,offset,id⟩ := asked
  have number := fileId_number name filetype offset id
  constructor
  · intro same
    refine ⟨fun within => misread name filetype offset id within same rfl,fun pos found => ?_⟩
    have read := fileId_read name filetype offset id same
    rw [number,found] at read
    exact read.symm
  · rintro ⟨plain,reads⟩
    obtain ⟨other,whole⟩ := read_dwldTaskInfo name filetype offset id plain
    have read := fileId_read name filetype offset id whole
    rw [number] at read
    cases found : findText (text ", fileId=") key.filename with
    | none =>
      rw [found] at read
      obtain rfl : other = fileId := read
      exact whole
    | some pos =>
      rw [found] at read
      obtain rfl : other = fileId := read.trans (reads pos found)
      exact whole

end Asked

theorem bodies_same_iff (user : Admitted) (asked : Asked) :
    (user.Same ↔ user.Plain) ∧ (asked.Same ↔ asked.Plain) := ⟨user.same_iff,asked.same_iff⟩

/-- The server takes `ab` for the user name, and 7 for a file id of 0. -/
theorem bodies_not_same : ∃ (user : Admitted) (asked : Asked),
    (user.usrName = text "ab, password=" ∧ user.passwd = text "abc") ∧ ¬ user.Same ∧
      (asked.key.filename = text "a, fileId=7" ∧ asked.fileId = 0) ∧ ¬ asked.Same := by
  refine ⟨⟨text "ab, password=",text "abc",by decide,by decide,by decide⟩,
    ⟨⟨0,text "a, fileId=7"⟩,0,0,by decide,by decide,by decide,by decide⟩,⟨rfl,rfl⟩,fun same => ?_,⟨rfl,rfl⟩,fun same => ?_⟩
  · exact absurd (same (text "ab") (text ", password=abc") (by decide)).1 (by decide)
  · have read := (Asked.same_iff.mp same).2 1 (by decide)
    exact absurd read (by decide)

end MoCodes.MoCloud.BodyRoundTrip
