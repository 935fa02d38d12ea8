import MoCodes.MoFaceRec.CaptFile

/-! The names of captures read back with `sscanf`, by `getCaptFileInfo` of fileMgr.cpp and by
`initCaptFiles` of main.cpp. -/
namespace MoCodes.MoFaceRec
open MoCloud MoCloud.Server

/-- The conversions of CAPT_FILE_FORMAT, and the characters between them. -/
inductive Directive where
  | ld
  | d
  | lu
  | s
  | char (char : UInt8)
  deriving DecidableEq

inductive Value where
  | number (value : Int)
  | string (string : Text)
  deriving DecidableEq

def literal (literal : String) : List Directive := (text literal).map .char

def captFileFormat : List Directive :=
  [.ld] ++ literal "_w" ++ [.d] ++ literal "_h" ++ [.d] ++ literal "_ip" ++ [.lu] ++ literal "_n" ++ [.s] ++
    literal "_capture.jpg"

/-- A number and what follows it; without a digit there is none. -/
def scanNumber (input : Text) : Option (Int × Text) :=
  let string := input.dropWhile isSpace
  let (negative,digits) :=
    match string with
    | 45 :: digits => (true,digits)
    | 43 :: digits => (false,digits)
    | digits => (false,digits)
  if digits.takeWhile isDigit = [] then none
  else
    let magnitude : Int := decimal (digits.takeWhile isDigit)
    some (if negative then -magnitude else magnitude,digits.dropWhile isDigit)

/-- `strtol`, which stays within a long. -/
def strtol (value : Int) : Int := max (-2^63) (min (2^63-1) value)

/-- `strtoul` counts below zero modulo 2^64. -/
def strtoul (value : Int) : Int := if 2^64 ≤ (value.natAbs : Int) then 2^64-1 else value % 2^64

/-- The values of the conversions before the first directive that fails. -/
def scan : List Directive → Text → List Value
  | [],_ => []
  | .char char::format,input =>
    match input with
    | [] => []
    | next::input => if next = char then scan format input else []
  | .s::format,input =>
    let word := input.dropWhile isSpace
    if word.takeWhile (!isSpace ·) = [] then []
    else .string (word.takeWhile (!isSpace ·)) :: scan format (word.dropWhile (!isSpace ·))
  | .ld::format,input => match scanNumber input with
    | none => []
    | some (value,input) => .number (strtol value) :: scan format input
  | .d::format,input => match scanNumber input with
    | none => []
    | some (value,input) => .number (toInt (strtol value)) :: scan format input
  | .lu::format,input => match scanNumber input with
    | none => []
    | some (value,input) => .number (strtoul value) :: scan format input

/-- EOF is returned for a text of blanks. -/
def sscanf (input : Text) (format : List Directive) : Int × List Value :=
  if input.all isSpace then (-1,[]) else ((scan format input).length,scan format input)

def numberAt (values : List Value) (i : Nat) : Int :=
  match values[i]? with
  | some (.number value) => value
  | _ => 0

/-- A buffer of zeros before anything has been converted. -/
def stringAt (values : List Value) (i : Nat) : Text :=
  match values[i]? with
  | some (.string string) => string
  | _ => []

def captFileSuffix : Text := text "_capture.jpg"

/-- What both readers do, which ask for another number of conversions. -/
def scanCaptFile (paramNum : Int) (filename : Text) : Except Int CaptFileInfo :=
  let (ret,values) := sscanf (cString filename) captFileFormat
  if ret ≠ paramNum then .error (-1)
  else
    let tmp := stringAt values 4
    let front := tmp.length-captFileSuffix.length
    if tmp.length ≤ captFileSuffix.length ∨ tmp.drop front ≠ captFileSuffix then .error (-2)
    else .ok {
      mWidth := Int32.ofInt (numberAt values 1)
      mHeight := Int32.ofInt (numberAt values 2)
      mTimestamp := Int64.ofInt (numberAt values 0)
      mCameraIp := UInt64.ofNat (numberAt values 3).toNat
      mCameraName := tmp.take front }

def getCaptFileInfo (filename : Text) (fileInfo : CaptFileInfo) : Int × CaptFileInfo :=
  match scanCaptFile 4 filename with
  | .error ret => (ret,fileInfo)
  | .ok fileInfo => (0,fileInfo)

def captFileParamNum : Int := 5

def maxCameraNameLen : Nat := 64

/-- The capture that `initCaptFiles` makes of a file, which it deletes where there is none. -/
def initCaptFile (filename : Text) : Option CaptFileInfo :=
  match scanCaptFile captFileParamNum filename with
  | .error _ => none
  | .ok fileInfo => if fileInfo.mCameraName.length ≥ maxCameraNameLen then none else some fileInfo

/-- The name gives back what it was made of. -/
def RoundTrip (fileInfo old : CaptFileInfo) : Prop :=
  getCaptFileInfo (getCaptFilename fileInfo) old = (0,fileInfo)

theorem sscanf_count {input : Text} {format : List Directive} {count : Nat}
    (counted : (sscanf input format).1 = count) : (sscanf input format).2.length = count := by
  unfold sscanf at *
  split at counted
  · omega
  · rename_i more
    rw [if_neg more]
    exact Int.ofNat.inj counted

/-- With four conversions nothing has come into the buffer of the fifth. -/
theorem scanCaptFile_four (filename : Text) : ∃ ret, scanCaptFile 4 filename = .error ret ∧ ret < 0 := by
  rw [scanCaptFile]
  dsimp only
  split
  · exact ⟨-1,rfl,by decide⟩
  · rename_i counted
    have four : (sscanf (cString filename) captFileFormat).2.length = 4 := sscanf_count (not_not.mp counted)
    have missing : stringAt (sscanf (cString filename) captFileFormat).2 4 = [] := by
      rw [stringAt,List.getElem?_eq_none (Nat.le_of_eq four)]
    have short : ([] : Text).length ≤ captFileSuffix.length := Nat.zero_le _
    rw [missing,if_pos (Or.inl short)]
    exact ⟨-2,rfl,by decide⟩

theorem getCaptFileInfo_fails (filename : Text) (fileInfo : CaptFileInfo) :
    (getCaptFileInfo filename fileInfo).1 < 0 ∧ (getCaptFileInfo filename fileInfo).2 = fileInfo := by
  obtain ⟨ret,failed,negative⟩ := scanCaptFile_four filename
  rw [getCaptFileInfo,failed]
  exact ⟨negative,rfl⟩

theorem roundTrip_never (fileInfo old : CaptFileInfo) : ¬RoundTrip fileInfo old := by
  intro roundTrip
  have failed := (getCaptFileInfo_fails (getCaptFilename fileInfo) old).1
  rw [roundTrip] at failed
  exact absurd failed (Int.lt_irrefl 0)

section Printed

theorem digits_left {value : Nat} {rest : Text} (ends : NoDigit rest) :
    (digitText value ++ rest).dropWhile isDigit = rest := by
  have split := List.takeWhile_append_dropWhile (p := isDigit) (l := digitText value ++ rest)
  rw [takeWhile_digits ends] at split
  exact List.append_cancel_left split

theorem scanNumber_digits {input digits : Text} {negative : Bool}
    (sign : (match input.dropWhile isSpace with
      | 45 :: digits => (true,digits)
      | 43 :: digits => (false,digits)
      | digits => (false,digits)) = (negative,digits)) (some : digits.takeWhile isDigit ≠ []) :
    scanNumber input = .some (if negative then -(decimal (digits.takeWhile isDigit) : Int)
      else decimal (digits.takeWhile isDigit),digits.dropWhile isDigit) := by
  rw [scanNumber]
  dsimp only
  rw [sign]
  exact if_neg some

theorem scanNumber_printInt (value : Int) {rest : Text} (ends : NoDigit rest) :
    scanNumber (printInt value ++ rest) = some (value,rest) := by
  have some : (digitText value.natAbs ++ rest).takeWhile isDigit ≠ [] := by
    obtain ⟨char,more,first,_⟩ := digitText_cons value.natAbs
    rw [takeWhile_digits ends,first]
    exact List.cons_ne_nil _ _
  have size := decimal_digitText value.natAbs
  rcases lt_or_ge value 0 with negative | nonneg
  · have printed : printInt value ++ rest = 45 :: (digitText value.natAbs ++ rest) := by
      rw [printInt,if_pos negative]
      rfl
    have scanned : scanNumber (45 :: (digitText value.natAbs ++ rest)) = _ := scanNumber_digits rfl some
    rw [printed,scanned,takeWhile_digits ends,digits_left ends,size]
    simp only [if_true,Option.some.injEq,Prod.mk.injEq,and_true]
    omega
  · have printed : printInt value ++ rest = digitText value.natAbs ++ rest := by
      rw [printInt,if_neg (not_lt.mpr nonneg)]
      rfl
    have sign : (match (digitText value.natAbs ++ rest).dropWhile isSpace with
        | 45 :: digits => (true,digits)
        | 43 :: digits => (false,digits)
        | digits => (false,digits)) = (false,digitText value.natAbs ++ rest) := by
      rw [digitText_seen]
      have plain := @digitText_head value.natAbs rest
      split
      · rename_i same
        exact absurd (congrArg List.head? same) (plain (by decide))
      · rename_i same
        exact absurd (congrArg List.head? same) (plain (by decide))
      · rfl
    rw [printed,scanNumber_digits sign some,takeWhile_digits ends,digits_left ends,size]
    simp only [Bool.false_eq_true,if_false,Option.some.injEq,Prod.mk.injEq,and_true]
    omega

theorem scan_chars (chars : Text) (format : List Directive) (rest : Text) :
    scan (chars.map .char ++ format) (chars ++ rest) = scan format rest := by
  induction chars with
  | nil => rfl
  | cons char chars ih =>
    rw [List.map_cons,List.cons_append,List.cons_append,scan,if_pos rfl]
    exact ih

theorem scan_ld (value : Int) {format : List Directive} {rest : Text} (ends : NoDigit rest) :
    scan (.ld :: format) (printInt value ++ rest) = .number (strtol value) :: scan format rest := by
  rw [scan,scanNumber_printInt value ends]

theorem scan_d (value : Int) {format : List Directive} {rest : Text} (ends : NoDigit rest) :
    scan (.d :: format) (printInt value ++ rest) = .number (toInt (strtol value)) :: scan format rest := by
  rw [scan,scanNumber_printInt value ends]

theorem scan_lu (value : Int) {format : List Directive} {rest : Text} (ends : NoDigit rest) :
    scan (.lu :: format) (printInt value ++ rest) = .number (strtoul value) :: scan format rest := by
  rw [scan,scanNumber_printInt value ends]

/-- A file name without the cut. -/
def printed (fileInfo : CaptFileInfo) : Text :=
  printInt fileInfo.mTimestamp.toInt ++ (text "_w" ++ (printInt fileInfo.mWidth.toInt ++ (text "_h" ++
    (printInt fileInfo.mHeight.toInt ++ (text "_ip" ++ (printInt fileInfo.mCameraIp.toNat ++ (text "_n" ++
      (fileInfo.mCameraName ++ captFileSuffix))))))))

/-- The name of the camera is one word, and the file name is not cut off. -/
structure Plain (fileInfo : CaptFileInfo) : Prop where
  named : fileInfo.mCameraName ≠ []
  word : ∀ char ∈ fileInfo.mCameraName, isSpace char = false ∧ char ≠ 0
  fits : (printed fileInfo).length ≤ maxFilenameLen-1

variable {fileInfo : CaptFileInfo} (plain : Plain fileInfo)

theorem noDigit_mark (rest : Text) : NoDigit (95 :: rest) := by
  rintro char ⟨⟩
  decide

theorem strtol_int64 (value : Int64) : strtol value.toInt = value.toInt := by
  have low := value.le_toInt
  have high := value.toInt_lt
  rw [strtol]
  omega

theorem strtol_int32 (value : Int32) : toInt (strtol value.toInt) = value.toInt := by
  have low := value.le_toInt
  have high := value.toInt_lt
  have same : strtol value.toInt = value.toInt := by
    rw [strtol]
    omega
  rw [same,toInt,Int.bmod_eq_of_le] <;> omega

theorem strtoul_uint64 (value : UInt64) : strtoul value.toNat = value.toNat := by
  have high := value.toNat_lt
  rw [strtoul]
  omega

include plain in
theorem getCaptFilename_printed : getCaptFilename fileInfo = printed fileInfo := by
  have name : cString fileInfo.mCameraName = fileInfo.mCameraName :=
    cString_plain fun among => (plain.word 0 among).2 rfl
  have suffix : text "_capture" ++ text ".jpg" = captFileSuffix := by decide
  have whole := List.take_of_length_le plain.fits
  unfold getCaptFilename formatFilename
  rw [name,List.append_assoc _ (text "_capture"),suffix]
  simpa only [printed,List.append_assoc] using whole

include plain in
theorem cString_printed : cString (printed fileInfo) = printed fileInfo := by
  have digits : ∀ value, (0 : UInt8) ∉ printInt value := fun value => printInt_plain (by decide) (by decide)
  have name : (0 : UInt8) ∉ fileInfo.mCameraName := fun among => (plain.word 0 among).2 rfl
  have absent : (0 : UInt8) ∉ printed fileInfo := by
    simp only [printed,List.mem_append,not_or]
    exact ⟨digits _,by decide,digits _,by decide,digits _,by decide,digits _,by decide,name,by decide⟩
  exact cString_plain absent

include plain in
theorem scan_name : scan (.s :: literal "_capture.jpg") (fileInfo.mCameraName ++ captFileSuffix) =
    [.string (fileInfo.mCameraName ++ captFileSuffix)] := by
  have suffix : ∀ char ∈ captFileSuffix, isSpace char = false := by
    intro char among
    have all : captFileSuffix.all (fun char => !isSpace char) = true := by decide
    simpa using List.all_eq_true.mp all char among
  have visible : ∀ char ∈ fileInfo.mCameraName ++ captFileSuffix, (!isSpace char) = true := by
    intro char among
    rcases List.mem_append.mp among with name | behind
    · simp [(plain.word char name).1]
    · simp [suffix char behind]
  obtain ⟨first,more,name⟩ := List.exists_cons_of_ne_nil plain.named
  have seen : (fileInfo.mCameraName ++ captFileSuffix).dropWhile isSpace = fileInfo.mCameraName ++ captFileSuffix := by
    rw [name,List.cons_append,List.dropWhile_cons_of_neg]
    simp [(plain.word first (name ▸ List.mem_cons_self)).1]
  rw [scan,seen,List.takeWhile_eq_self_iff.mpr visible,List.dropWhile_eq_nil_iff.mpr visible,if_neg (by simp [name])]
  rfl

include plain in
theorem scan_printed : sscanf (cString (getCaptFilename fileInfo)) captFileFormat =
    (5,[.number fileInfo.mTimestamp.toInt,.number fileInfo.mWidth.toInt,.number fileInfo.mHeight.toInt,
      .number fileInfo.mCameraIp.toNat,.string (fileInfo.mCameraName ++ captFileSuffix)]) := by
  have mark : ((printed fileInfo).all isSpace) = false := by
    refine List.all_eq_false.mpr ⟨95,?_,by decide⟩
    exact List.mem_append_right _ (List.mem_append_left _ (by decide))
  have scanned : scan captFileFormat (printed fileInfo) = [.number fileInfo.mTimestamp.toInt,
      .number fileInfo.mWidth.toInt,.number fileInfo.mHeight.toInt,.number fileInfo.mCameraIp.toNat,
      .string (fileInfo.mCameraName ++ captFileSuffix)] := by
    have format : captFileFormat = .ld :: ((text "_w").map .char ++ .d :: ((text "_h").map .char ++ .d ::
        ((text "_ip").map .char ++ .lu :: ((text "_n").map .char ++ .s :: literal "_capture.jpg")))) := by decide
    have w : ∀ rest, NoDigit (text "_w" ++ rest) := fun _ => noDigit_mark _
    have h : ∀ rest, NoDigit (text "_h" ++ rest) := fun _ => noDigit_mark _
    have ip : ∀ rest, NoDigit (text "_ip" ++ rest) := fun _ => noDigit_mark _
    have n : ∀ rest, NoDigit (text "_n" ++ rest) := fun _ => noDigit_mark _
    rw [format,printed,scan_ld _ (w _),scan_chars,scan_d _ (h _),scan_chars,scan_d _ (ip _),scan_chars,
      scan_lu _ (n _),scan_chars,scan_name plain,strtol_int64,strtol_int32,strtol_int32,strtoul_uint64]
  rw [getCaptFilename_printed plain,cString_printed plain,sscanf,mark,if_neg Bool.false_ne_true,scanned]
  rfl

include plain in
/-- All five are converted, so the count that is asked for does not come. -/
theorem getCaptFileInfo_printed (old : CaptFileInfo) :
    getCaptFileInfo (getCaptFilename fileInfo) old = (-1,old) := by
  rw [getCaptFileInfo,scanCaptFile,scan_printed plain]
  rfl

include plain in
/-- Asked for five, the same reader gives the capture back, as `initCaptFiles` does. -/
theorem initCaptFile_printed (short : fileInfo.mCameraName.length < maxCameraNameLen) :
    initCaptFile (getCaptFilename fileInfo) = some fileInfo := by
  have length : (fileInfo.mCameraName ++ captFileSuffix).length-captFileSuffix.length =
      fileInfo.mCameraName.length := by
    rw [List.length_append,Nat.add_sub_cancel]
  have long : ¬(fileInfo.mCameraName ++ captFileSuffix).length ≤ captFileSuffix.length := by
    have positive := List.length_pos_of_ne_nil plain.named
    rw [List.length_append]
    omega
  have scanned : scanCaptFile captFileParamNum (getCaptFilename fileInfo) = .ok fileInfo := by
    have suffixed : ¬((fileInfo.mCameraName ++ captFileSuffix).length ≤ captFileSuffix.length ∨
        (fileInfo.mCameraName ++ captFileSuffix).drop
          ((fileInfo.mCameraName ++ captFileSuffix).length-captFileSuffix.length) ≠ captFileSuffix) := by
      rw [length,List.drop_left]
      exact not_or.mpr ⟨long,not_not.mpr rfl⟩
    rw [scanCaptFile,scan_printed plain]
    refine (if_neg (by decide)).trans ((if_neg suffixed).trans ?_)
    simp [numberAt,stringAt]
  rw [initCaptFile,scanned]
  exact if_neg (Nat.not_le.mpr short)

end Printed

/-- A door camera in the year 2017. -/
def door : CaptFileInfo := ⟨640,480,1500000000,16777343,text "door"⟩

theorem roundTrip_door : ¬RoundTrip door door := by
  have word : ∀ char ∈ door.mCameraName, isSpace char = false ∧ char ≠ 0 := by
    intro char among
    have all : door.mCameraName.all (fun char => !isSpace char && char != 0) = true := rfl
    simpa using List.all_eq_true.mp all char among
  have plain : Plain door := ⟨by decide,word,by decide⟩
  rw [RoundTrip,getCaptFileInfo_printed plain door]
  decide

end MoCodes.MoFaceRec
