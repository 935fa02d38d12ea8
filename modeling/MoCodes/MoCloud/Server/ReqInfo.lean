import MoCodes.MoCloud.Proto

/-! The bodies of requests, as `CliCtrl::getUserPasswd` and `CliCtrl::getDwldReqInfo` read them
on a machine whose `size_t` has 64 bits. `none` stands for the `std::out_of_range` that a
constructor of `std::string` throws; nothing catches it, and the server ends. -/
namespace MoCodes.MoCloud.Server

/-- `string::npos`. -/
def npos : Nat := 2^64-1

/-- Where `symbol` first occurs. -/
def findText (symbol : Text) : Text → Option Nat
  | [] => if symbol = [] then some 0 else none
  | char :: body => if symbol.isPrefixOf (char :: body) then some 0 else (findText symbol body).map (· + 1)

/-- What `body.find(symbol)` leaves in an `unsigned int`. -/
def position (body symbol : Text) : Nat := toUInt ((findText symbol body).getD npos)

/-- `string(body, pos, n)`. -/
def substr (body : Text) (pos n : Nat) : Option Text :=
  if body.length < pos then none else some ((body.drop pos).take n)

def isSpace (char : UInt8) : Bool := char == 32 || (9 ≤ char && char ≤ 13)

def isDigit (char : UInt8) : Bool := 48 ≤ char && char ≤ 57

def decimal (digits : Text) : Nat := digits.foldl (fun value digit => value*10+(digit.toNat-48)) 0

/-- `atoi` of glibc, the low half of what `strtol` gives. -/
def atoi (string : Text) : Int :=
  let string := string.dropWhile isSpace
  let (negative,digits) :=
    match string with
    | 45 :: digits => (true,digits)
    | 43 :: digits => (false,digits)
    | digits => (false,digits)
  let magnitude : Int := decimal (digits.takeWhile isDigit)
  toInt (if negative then max (-2^63) (-magnitude) else min (2^63-1) magnitude)

/-- `username` and `passwd`, or the negative code. -/
def getUserPasswd (pBody : Option Text) : Option (Except Int (Text × Text)) :=
  match pBody with
  | none => some (.error (-1))
  | some pBody =>
    let body := cString pBody
    let symbUsername := text "username="
    let symbPasswd := text ", password="
    let pos1 := position body symbUsername
    -- pos1 has 32 bits and never is npos
    if pos1 = npos then some (.error (-2))
    else if pos1 ≠ 0 then some (.error (-3))
    else
      let pos2 := position body symbPasswd
      if pos2 = npos then some (.error (-4))
      else
        (substr body symbUsername.length (toSize (pos2-symbUsername.length))).bind fun username =>
          if usernameMaxLen < username.length then some (.error (-5))
          else (substr body (pos2+symbPasswd.length) body.length).bind fun passwd =>
            if passwd.length < passwdMinLen ∨ passwdMaxLen < passwd.length then some (.error (-6))
            else some (.ok (username,passwd))

structure DwldReqInfo where
  key : FileinfoKey
  startOffset : Int
  fileId : Int
  deriving DecidableEq

def getDwldReqInfo (pBody : Option Text) : Option (Except Int DwldReqInfo) :=
  match pBody with
  | none => some (.error (-1))
  | some pBody =>
    let body := cString pBody
    let symbFiletype := text "filetype="
    let symbFilename := text ", filename="
    let symbStartOffset := text ", startOffset="
    let symbFileId := text ", fileId="
    let pos1 := position body symbFiletype
    if pos1 = npos then some (.error (-2))
    else if pos1 ≠ 0 then some (.error (-3))
    else
      let pos2 := position body symbFilename
      let pos3 := position body symbStartOffset
      let pos4 := position body symbFileId
      if pos2 = npos then some (.error (-4))
      else if pos3 = npos then some (.error (-5))
      else if pos4 = npos then some (.error (-6))
      else
        let filename := pos2+symbFilename.length
        let offset := pos3+symbStartOffset.length
        (substr body symbFiletype.length (toSize (pos2-symbFiletype.length))).bind fun filetypeStr =>
          (substr body filename (toSize (pos3-filename))).bind fun filenameStr =>
            (substr body offset (toSize (pos4-offset))).bind fun startOffsetStr =>
              (substr body (pos4+symbFileId.length) body.length).bind fun fileIdStr =>
                some (.ok
                  { key := ⟨atoi filetypeStr,filenameStr.take filenameMaxLen⟩
                    startOffset := atoi startOffsetStr
                    fileId := atoi fileIdStr })

theorem findText_le (symbol front rest : Text) :
    ∃ i ≤ front.length, findText symbol (front ++ (symbol ++ rest)) = some i := by
  induction front with
  | nil =>
    refine ⟨0,Nat.le_refl 0,?_⟩
    rw [List.nil_append]
    cases symbol with
    | nil => cases rest <;> rfl
    | cons char symbol =>
      exact if_pos (List.isPrefixOf_iff_prefix.mpr ⟨rest,rfl⟩)
  | cons char front ih =>
    obtain ⟨i,bound,found⟩ := ih
    rw [List.cons_append,findText]
    split_ifs
    · exact ⟨0,Nat.zero_le _,rfl⟩
    · exact ⟨i+1,Nat.succ_le_succ bound,by rw [found]; rfl⟩

theorem getUserPasswd_lengths {pBody : Option Text} {username passwd : Text}
    (read : getUserPasswd pBody = some (.ok (username,passwd))) :
    username.length ≤ usernameMaxLen ∧ passwdMinLen ≤ passwd.length ∧ passwd.length ≤ passwdMaxLen := by
  cases pBody with
  | none => simp [getUserPasswd] at read
  | some pBody =>
    simp only [getUserPasswd] at read
    rcases ite_eq_iff.mp read with ⟨_,refused⟩ | ⟨_,read⟩
    · simp at refused
    rcases ite_eq_iff.mp read with ⟨_,refused⟩ | ⟨_,read⟩
    · simp at refused
    rcases ite_eq_iff.mp read with ⟨_,refused⟩ | ⟨_,read⟩
    · simp at refused
    obtain ⟨name,_,read⟩ := Option.bind_eq_some_iff.mp read
    split at read
    · simp at read
    · rename_i short
      obtain ⟨word,_,read⟩ := Option.bind_eq_some_iff.mp read
      split at read
      · simp at read
      · rename_i fits
        obtain ⟨rfl,rfl⟩ : name = username ∧ word = passwd := by simpa using read
        omega

example : getUserPasswd (some (text "username=eric, password=secret")) =
    some (.ok (text "eric",text "secret")) := by
  decide

example : getUserPasswd (some (text "username=eric")) = none := by
  decide

end MoCodes.MoCloud.Server
