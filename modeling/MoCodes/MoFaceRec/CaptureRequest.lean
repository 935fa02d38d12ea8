import MoCodes.MoFaceRec.CaptScan
import MoCodes.Lib.Layout

/-! What `captureHdl` of server.cpp does with the body of a request. Once a byte outside the request's data
or outside a buffer is used, there is no result. -/
namespace MoCodes.MoFaceRec.CaptureRequest
open MoCloud MoCloud.Server Lib.Layout

/-- `reqLen` is an int. -/
structure Request where
  body : Text
  isInt : body.length < 2^31

/-- `reqLen + 1` bytes. -/
def Request.reqData (req : Request) : Text := req.body ++ [0]

def Request.reqLen (req : Request) : Nat := req.body.length

def byteAt (reqData : Text) (offset : Int) : Option UInt8 := if offset < 0 then none else reqData[offset.toNat]?

/-- `strstr` from the start of the data, which ends with a NUL. -/
def strstr (reqData symbol : Text) : Option Nat := findText symbol (cString reqData)

/-- `strchr`, where it looks for its character; the NUL at the end stops it. -/
def strchr (reqData : Text) (start : Nat) (char : UInt8) : Option (Option Nat) :=
  if reqData.length ≤ start then none
  else
    let front := (reqData.drop start).takeWhile fun next => next ≠ char ∧ next ≠ 0
    some (if reqData[start+front.length]? = some char then some (start+front.length) else none)

def requestSymbFilename : Text := text "filename="

def quote : UInt8 := 34

/-- Enter or LR. -/
def isBreak (byte : UInt8) : Bool := byte = 13 ∨ byte = 10

/-- The count is a `char`, which is signed; 256 rounds are all it has. -/
def skipBreaks (reqData : Text) (pFilenameEnd : Nat) : Nat → Int → Option Int
  | 0,_ => none
  | rounds+1,cnt =>
    match byteAt reqData (pFilenameEnd+cnt) with
    | none => none
    | some byte => if isBreak byte then skipBreaks reqData pFilenameEnd rounds ((cnt+1).bmod 256) else some cnt

/-- The return value, the buffer of the file name and `binStartOffset`. -/
def getFilename (reqData : Text) : Option (Except Int (Text × Int)) :=
  match strstr reqData requestSymbFilename with
  | none => some (.error (-2))
  | some pFilenameSymbStart =>
    let pFilenameStart := pFilenameSymbStart+requestSymbFilename.length+1
    match strchr reqData pFilenameStart quote with
    | none => none
    | some none => some (.error (-3))
    | some (some pFilenameEnd) =>
      let filenameLen := pFilenameEnd-pFilenameStart
      if maxFilenameLen < filenameLen then none
      else (skipBreaks reqData pFilenameEnd 256 1).map fun cnt =>
        .ok (padded maxFilenameLen (slice reqData pFilenameStart filenameLen),pFilenameEnd+cnt)

def reqFilenameFormat : List Directive :=
  [.ld] ++ literal "_w" ++ [.d] ++ literal "_h" ++ [.d] ++ literal "_l" ++ [.ld] ++ literal "_n" ++ [.s] ++ literal ".jpg"

def reqFilenameParamNum : Int := 5

def jpgSuffix : Text := text ".jpg"

structure Params where
  width : Int
  height : Int
  fileLen : Int
  cameraName : Text
  deriving DecidableEq

/-- `tmp` has room for a name and its NUL. -/
def getParamFromFilename (filename : Text) : Option (Except Int Params) :=
  let (cnt,values) := sscanf filename reqFilenameFormat
  let tmp := stringAt values 4
  if maxFilenameLen ≤ tmp.length then none
  else if cnt ≠ reqFilenameParamNum then some (.error (-2))
  else
    let front := tmp.length-jpgSuffix.length
    if tmp.length ≤ jpgSuffix.length ∨ tmp.drop front ≠ jpgSuffix then some (.error (-3))
    else some (.ok ⟨numberAt values 1,numberAt values 2,numberAt values 3,tmp.take front⟩)

/-- What of the world around a request decides about it: the check function with its answer, whether the
task is taken, and whether the jpg file opens. -/
structure Answers where
  pCheckFunc : Option Int
  insertCaptFileTask : Int
  opens : Bool

/-- The return value and what is written. `binLen` comes to `fwrite` as a size. -/
def saveJpgFile (reqData : Text) (reqLen : Nat) (binStartOffset binLen : Int) (opens : Bool) : Option (Int × Option Text) :=
  if (reqLen : Int) ≤ binStartOffset then some (-2,none)
  else if !opens then some (-3,none)
  else
    let size : Nat := (binLen % 2^64).toNat
    if size = 0 then some (0,some [])
    else if binStartOffset < 0 ∨ (reqData.length : Int) < binStartOffset+size then none
    else some (0,some (slice reqData binStartOffset.toNat size))

/-- What goes into the file, where it begins in the data and the length that was declared for it. -/
structure Saved where
  binStartOffset : Int
  fileLen : Int
  bytes : Text

structure Handled where
  httpStatus : Nat
  saved : Option Saved

def refused : Handled := ⟨500,none⟩

/-- A file name that fills its buffer has no end there. -/
def captureHdl (answers : Answers) (req : Request) : Option Handled :=
  match answers.pCheckFunc with
  | none => some refused
  | some ret =>
    if ret < 0 then some refused
    else match getFilename req.reqData with
      | none => none
      | some (.error _) => some refused
      | some (.ok (filename,binStartPos)) =>
        if 0 ∉ filename then none
        else match getParamFromFilename (cString filename) with
          | none => none
          | some (.error _) => some refused
          | some (.ok params) =>
            if answers.insertCaptFileTask ≠ 0 then some refused
            else match saveJpgFile req.reqData req.reqLen binStartPos (toInt params.fileLen) answers.opens with
              | none => none
              | some (ret,written) =>
                if ret ≠ 0 then some refused
                else some ⟨200,written.map fun bytes => ⟨binStartPos,params.fileLen,bytes⟩⟩

/-- Every byte that is used is the request's or a buffer's, and a file of the declared length is there. -/
def Bounded (answers : Answers) (req : Request) : Prop :=
  ∃ handled, captureHdl answers req = some handled ∧
    ∀ saved ∈ handled.saved, (saved.bytes.length : Int) = saved.fileLen →
      saved.binStartOffset+saved.fileLen ≤ req.body.length

section Scanned

theorem scanNumber_left {input rest : Text} {value : Int} (scanned : scanNumber input = some (value,rest)) :
    rest <:+ input := by
  have left : ∀ digits : Text, digits <:+ input.dropWhile isSpace → digits.dropWhile isDigit <:+ input :=
    fun digits part => ((List.dropWhile_suffix isDigit).trans part).trans (List.dropWhile_suffix isSpace)
  rw [scanNumber] at scanned
  split at scanned
  rename_i negative digits sign
  by_cases none : digits.takeWhile isDigit = []
  · rw [if_pos none] at scanned
    cases scanned
  rw [if_neg none] at scanned
  obtain ⟨_,rfl⟩ := Prod.mk.inj (Option.some.inj scanned)
  apply left
  split at sign
  · rename_i more signed
    obtain ⟨_,rfl⟩ := Prod.mk.inj sign
    rw [signed]
    exact List.suffix_cons _ _
  · rename_i more signed
    obtain ⟨_,rfl⟩ := Prod.mk.inj sign
    rw [signed]
    exact List.suffix_cons _ _
  · obtain ⟨_,rfl⟩ := Prod.mk.inj sign
    exact List.suffix_rfl

theorem scan_word {format : List Directive} {input word : Text} (among : .string word ∈ scan format input) :
    word <:+: input ∧ ∀ char ∈ word, isSpace char = false := by
  induction format generalizing input with
  | nil => cases among
  | cons directive format ih =>
    have number : ∀ {read : Int × Text} {value : Int}, scanNumber input = some read →
        .string word ∈ Value.number value :: scan format read.2 →
        word <:+: input ∧ ∀ char ∈ word, isSpace char = false := by
      intro read value scanned among
      rcases List.mem_cons.mp among with same | later
      · cases same
      · exact (ih later).imp_left fun part => part.trans (scanNumber_left scanned).isInfix
    cases directive with
    | ld =>
      rw [scan] at among
      split at among
      · cases among
      · rename_i value rest scanned
        exact number scanned among
    | d =>
      rw [scan] at among
      split at among
      · cases among
      · rename_i value rest scanned
        exact number scanned among
    | lu =>
      rw [scan] at among
      split at among
      · cases among
      · rename_i value rest scanned
        exact number scanned among
    | s =>
      have skipped := (List.dropWhile_suffix isSpace (l := input)).isInfix
      rw [scan] at among
      split at among
      · cases among
      · rcases List.mem_cons.mp among with same | later
        · obtain rfl := Value.string.inj same
          refine ⟨(List.takeWhile_prefix _).isInfix.trans skipped,fun char member => ?_⟩
          have visible := List.mem_takeWhile_imp member
          rwa [Bool.not_eq_true'] at visible
        · exact (ih later).imp_left fun part => (part.trans (List.dropWhile_suffix _).isInfix).trans skipped
    | char char =>
      cases input with
      | nil =>
        rw [scan] at among
        cases among
      | cons next input =>
        rw [scan] at among
        split at among
        · exact (ih among).imp_left fun part => part.trans (List.suffix_cons _ _).isInfix
        · cases among

theorem sscanf_word {filename : Text} {format : List Directive} (i : Nat) :
    stringAt (sscanf filename format).2 i <:+: filename ∧
      ∀ char ∈ stringAt (sscanf filename format).2 i, isSpace char = false := by
  rw [stringAt]
  split
  case h_1 string found =>
    have among := List.mem_of_getElem? found
    rw [sscanf] at among
    split at among
    · cases among
    · exact scan_word among
  case h_2 => exact ⟨List.nil_infix,List.forall_mem_nil _⟩

theorem getParamFromFilename_isSome {filename : Text} (fits : filename.length < maxFilenameLen) :
    (getParamFromFilename filename).isSome := by
  have short := (@sscanf_word filename reqFilenameFormat 4).1.length_le
  rw [getParamFromFilename]
  split
  rename_i cnt values scanned
  rw [scanned] at short
  rw [if_neg (Nat.not_le.mpr (Nat.lt_of_le_of_lt short fits))]
  split
  · rfl
  · dsimp only
    split <;> rfl

end Scanned

section Position

variable (reqData : Text)

/-- The enters and LRs from a place on. -/
def breaksAt (offset : Nat) : Nat := ((reqData.drop offset).takeWhile isBreak).length

/-- Behind the 127th the count is below zero, and the skipping goes on 128 bytes in front of the quote. -/
def binStart (pFilenameEnd : Nat) : Int :=
  if breaksAt reqData (pFilenameEnd+1) ≤ 126 then pFilenameEnd+1+breaksAt reqData (pFilenameEnd+1)
  else pFilenameEnd-128+breaksAt reqData (pFilenameEnd-128)

variable {reqData}

theorem breaksAt_break {offset : Nat} {byte : UInt8} (here : reqData[offset]? = some byte) (isBreak : isBreak byte = true) :
    breaksAt reqData offset = breaksAt reqData (offset+1)+1 := by
  obtain ⟨inside,rfl⟩ := List.getElem?_eq_some_iff.mp here
  rw [breaksAt,List.drop_eq_getElem_cons inside,List.takeWhile_cons_of_pos isBreak]
  rfl

theorem breaksAt_other {offset : Nat} {byte : UInt8} (here : reqData[offset]? = some byte) (other : isBreak byte = false) :
    breaksAt reqData offset = 0 := by
  obtain ⟨inside,rfl⟩ := List.getElem?_eq_some_iff.mp here
  rw [breaksAt,List.drop_eq_getElem_cons inside,List.takeWhile_cons_of_neg (by simp [other])]
  rfl

theorem breaksAt_more {offset : Nat} (more : 0 < breaksAt reqData offset) :
    ∃ byte, reqData[offset]? = some byte ∧ isBreak byte = true := by
  cases here : reqData[offset]? with
  | none =>
    rw [breaksAt,List.drop_eq_nil_of_le (List.getElem?_eq_none_iff.mp here)] at more
    exact absurd more (Nat.lt_irrefl 0)
  | some byte =>
    cases same : isBreak byte with
    | true => exact ⟨byte,rfl,same⟩
    | false =>
      rw [breaksAt_other here same] at more
      exact absurd more (Nat.lt_irrefl 0)

theorem breaksAt_le {offset stop : Nat} {byte : UInt8} (stops : reqData[stop]? = some byte) (other : isBreak byte = false)
    (before : offset ≤ stop) : offset+breaksAt reqData offset ≤ stop := by
  induction before using Nat.decreasingInduction with
  | self => rw [breaksAt_other stops other,Nat.add_zero]
  | of_succ offset before ih =>
    rcases Nat.eq_zero_or_pos (breaksAt reqData offset) with none | more
    · omega
    · obtain ⟨_,here,same⟩ := breaksAt_more more
      rw [breaksAt_break here same]
      omega

theorem byteAt_nat {pFilenameEnd offset : Nat} {cnt : Int} (place : (pFilenameEnd : Int)+cnt = offset) :
    byteAt reqData (pFilenameEnd+cnt) = reqData[offset]? := by
  rw [place,byteAt,if_neg (by omega),Int.toNat_natCast]

theorem skipBreaks_outside {pFilenameEnd rounds : Nat} {cnt : Int} (outside : (pFilenameEnd : Int)+cnt < 0) :
    skipBreaks reqData pFilenameEnd (rounds+1) cnt = none := by
  rw [skipBreaks,byteAt,if_pos outside]

theorem skipBreaks_break {pFilenameEnd offset rounds : Nat} {cnt : Int} (place : (pFilenameEnd : Int)+cnt = offset)
    (more : 0 < breaksAt reqData offset) :
    skipBreaks reqData pFilenameEnd (rounds+1) cnt = skipBreaks reqData pFilenameEnd rounds ((cnt+1).bmod 256) := by
  obtain ⟨byte,here,same⟩ := breaksAt_more more
  rw [skipBreaks,byteAt_nat place,here]
  exact if_pos same

theorem skipBreaks_all {pFilenameEnd offset stop rounds : Nat} {byte : UInt8} {cnt : Int}
    (stops : reqData[stop]? = some byte) (other : isBreak byte = false) (before : offset ≤ stop)
    (place : (pFilenameEnd : Int)+cnt = offset) (low : -128 ≤ cnt) (high : cnt+breaksAt reqData offset ≤ 127)
    (enough : breaksAt reqData offset < rounds) :
    skipBreaks reqData pFilenameEnd rounds cnt = some (cnt+breaksAt reqData offset) := by
  induction rounds generalizing offset cnt with
  | zero => exact absurd enough (Nat.not_lt_zero _)
  | succ rounds ih =>
    have inside : offset < reqData.length := Nat.lt_of_le_of_lt before (List.getElem?_eq_some_iff.mp stops).1
    have here : reqData[offset]? = some reqData[offset] := List.getElem?_eq_getElem inside
    cases same : isBreak reqData[offset] with
    | false =>
      rw [skipBreaks,byteAt_nat place,here,breaksAt_other here same]
      simp [same]
    | true =>
      have apart : offset ≠ stop := by
        rintro rfl
        rw [here,Option.some.injEq] at stops
        rw [stops,other] at same
        cases same
      have count := breaksAt_break here same
      have next : (cnt+1).bmod 256 = cnt+1 := by
        rw [Int.bmod_eq_of_le] <;> omega
      have rest := @ih (offset+1) (cnt+1) (by omega) (by omega) (by omega) (by omega) (by omega)
      rw [skipBreaks_break place (by omega),next,rest,count]
      congr 1
      omega

theorem skipBreaks_some {pFilenameEnd offset rounds : Nat} {cnt : Int} (count : Nat)
    (place : (pFilenameEnd : Int)+cnt = offset) (low : -128 ≤ cnt) (high : cnt+count ≤ 127)
    (more : count ≤ breaksAt reqData offset) :
    skipBreaks reqData pFilenameEnd (rounds+count) cnt = skipBreaks reqData pFilenameEnd rounds (cnt+count) ∧
      breaksAt reqData (offset+count)+count = breaksAt reqData offset := by
  induction count generalizing offset cnt with
  | zero => exact ⟨by simp,rfl⟩
  | succ count ih =>
    obtain ⟨byte,here,same⟩ := breaksAt_more (Nat.lt_of_lt_of_le (Nat.succ_pos count) more)
    have counted := breaksAt_break here same
    have next : (cnt+1).bmod 256 = cnt+1 := by
      rw [Int.bmod_eq_of_le] <;> omega
    obtain ⟨skipped,left⟩ := @ih (offset+1) (cnt+1) (by omega) (by omega) (by omega) (by omega)
    constructor
    · rw [← Nat.add_assoc,skipBreaks_break place (by omega),next,skipped]
      congr 1
      omega
    · have there : offset+1+count = offset+(count+1) := by omega
      rw [counted,← left,there,Nat.add_assoc]

theorem skipBreaks_result (req : Request) {pFilenameEnd : Nat} (quoted : req.reqData[pFilenameEnd]? = some quote) :
    (skipBreaks req.reqData pFilenameEnd 256 1).map (fun cnt => (pFilenameEnd : Int)+cnt) =
      if 126 < breaksAt req.reqData (pFilenameEnd+1) ∧ pFilenameEnd < 128 then none
      else some (binStart req.reqData pFilenameEnd) := by
  have last : req.reqData[req.body.length]? = some 0 := by simp [Request.reqData]
  have inside : pFilenameEnd+1 ≤ req.body.length := by
    have bound := (List.getElem?_eq_some_iff.mp quoted).1
    have apart : pFilenameEnd ≠ req.body.length := by
      rintro rfl
      rw [last] at quoted
      exact absurd (Option.some.inj quoted) (by decide)
    rw [Request.reqData,List.length_append,List.length_singleton] at bound
    omega
  by_cases few : breaksAt req.reqData (pFilenameEnd+1) ≤ 126
  · have skipped := @skipBreaks_all req.reqData pFilenameEnd (pFilenameEnd+1) _ 256 _ 1 last (by decide) inside (by omega)
      (by omega) (by omega) (by omega)
    have result : (pFilenameEnd : Int)+(1+breaksAt req.reqData (pFilenameEnd+1)) = binStart req.reqData pFilenameEnd := by
      rw [binStart,if_pos few]
      omega
    rw [skipped,if_neg fun both => absurd few (Nat.not_le.mpr both.1),Option.map_some,result]
  · obtain ⟨skipped,left⟩ := @skipBreaks_some req.reqData pFilenameEnd (pFilenameEnd+1) 130 1 126 (by omega) (by omega)
      (by omega) (by omega)
    have wrapped := @skipBreaks_break req.reqData pFilenameEnd (pFilenameEnd+1+126) 129 (1+(126 : Nat)) (by omega) (by omega)
    have negative : ((1 : Int)+(126 : Nat)+1).bmod 256 = -128 := by decide
    rw [skipped,wrapped,negative]
    by_cases front : pFilenameEnd < 128
    · rw [if_pos ⟨by omega,front⟩,@skipBreaks_outside req.reqData pFilenameEnd 128 (-128) (by omega)]
      rfl
    · have short := breaksAt_le quoted (by decide) (Nat.sub_le pFilenameEnd 128)
      have again := @skipBreaks_all req.reqData pFilenameEnd (pFilenameEnd-128) _ 129 _ (-128) quoted (by decide) (by omega)
        (by omega) (by omega) (by omega) (by omega)
      have result : (pFilenameEnd : Int)+(-128+breaksAt req.reqData (pFilenameEnd-128)) = binStart req.reqData pFilenameEnd := by
        rw [binStart,if_neg few]
        omega
      rw [if_neg fun both => front both.2,again,Option.map_some,result]

end Position

section Bounds

/-- The declared length, as `fwrite` gets it, goes no further than the NUL behind the body, and to that
only if it is not what was declared. -/
def FileFits (req : Request) (binStartOffset fileLen : Int) : Prop :=
  0 ≤ toInt fileLen ∧ (binStartOffset+toInt fileLen ≤ req.reqLen ∨
    binStartOffset+toInt fileLen = req.reqLen+1 ∧ toInt fileLen ≠ fileLen)

/-- What a body that is looked at must have: something behind the symbol, a short file name, not too many
breaks too early, and the bytes that are declared. -/
def Contained (answers : Answers) (req : Request) : Prop :=
  (∃ ret ∈ answers.pCheckFunc, 0 ≤ ret) → ∀ symb, strstr req.reqData requestSymbFilename = some symb →
    symb+10 ≤ req.reqLen ∧ ∀ pFilenameEnd, strchr req.reqData (symb+10) quote = some (some pFilenameEnd) →
      pFilenameEnd-(symb+10) < maxFilenameLen ∧
      (126 < breaksAt req.reqData (pFilenameEnd+1) → 128 ≤ pFilenameEnd) ∧
      ∀ params, getParamFromFilename (slice req.reqData (symb+10) (pFilenameEnd-(symb+10))) = some (.ok params) →
        answers.insertCaptFileTask = 0 → answers.opens = true → binStart req.reqData pFilenameEnd < req.reqLen →
          FileFits req (binStart req.reqData pFilenameEnd) params.fileLen

variable {answers : Answers} {req : Request}

theorem bounded_refused (handled : captureHdl answers req = some refused) : Bounded answers req :=
  ⟨refused,handled,fun _ none => by cases none⟩

theorem not_bounded (fault : captureHdl answers req = none) : ¬Bounded answers req := by
  rintro ⟨_,handled,_⟩
  rw [fault] at handled
  cases handled

theorem strchr_closed {reqData : Text} {start pFilenameEnd : Nat} {char : UInt8}
    (closed : strchr reqData start char = some (some pFilenameEnd)) :
    reqData[pFilenameEnd]? = some char ∧
      (∀ next ∈ slice reqData start (pFilenameEnd-start), next ≠ char ∧ next ≠ 0) ∧
      (slice reqData start (pFilenameEnd-start)).length = pFilenameEnd-start := by
  rw [strchr] at closed
  split at closed
  · cases closed
  · dsimp only at closed
    split at closed
    · rename_i here
      obtain rfl := Option.some.inj (Option.some.inj closed)
      have front := List.prefix_iff_eq_take.mp (List.takeWhile_prefix (fun next : UInt8 => decide (next ≠ char ∧ next ≠ 0))
        (l := reqData.drop start))
      rw [Nat.add_sub_cancel_left,slice,← front]
      refine ⟨here,fun next among => ?_,rfl⟩
      have passed := List.mem_takeWhile_imp among
      exact of_decide_eq_true passed
    · cases Option.some.inj closed

theorem padded_short {name : Text} (plain : 0 ∉ name) (short : name.length < maxFilenameLen) :
    0 ∈ padded maxFilenameLen name ∧ cString (padded maxFilenameLen name) = name := by
  have size : maxFilenameLen-name.length = (maxFilenameLen-name.length-1)+1 := by omega
  have split : padded maxFilenameLen name = name ++ 0 :: List.replicate (maxFilenameLen-name.length-1) 0 := by
    rw [padded,List.take_append,List.take_of_length_le (Nat.le_of_lt short),List.take_replicate,
      Nat.min_eq_left (Nat.sub_le _ _),size,List.replicate_succ]
    rfl
  have kept : ∀ char ∈ name, decide (char ≠ 0) = true := by
    intro char among
    exact decide_eq_true fun zero => plain (zero ▸ among)
  rw [split]
  refine ⟨by simp,?_⟩
  rw [cString,List.takeWhile_append_of_pos kept,List.takeWhile_cons_of_neg (by simp),List.append_nil]

theorem padded_full {name : Text} (plain : 0 ∉ name) (full : maxFilenameLen ≤ name.length) :
    0 ∉ padded maxFilenameLen name := by
  rw [padded,List.take_append_of_le_length full]
  exact fun zero => plain (List.mem_of_mem_take zero)

theorem saveJpgFile_opened {reqData : Text} {reqLen : Nat} {binStartOffset binLen : Int} (inside : binStartOffset < reqLen) :
    saveJpgFile reqData reqLen binStartOffset binLen true = none ∨
      ∃ bytes, saveJpgFile reqData reqLen binStartOffset binLen true = some (0,some bytes) := by
  rw [saveJpgFile,if_neg (not_le.mpr inside),if_neg (by decide)]
  dsimp only
  split
  · exact Or.inr ⟨_,rfl⟩
  · split
    · exact Or.inl rfl
    · exact Or.inr ⟨_,rfl⟩

theorem saveJpgFile_fits (binStartOffset fileLen : Int) (nonneg : 0 ≤ binStartOffset) (inside : binStartOffset < req.reqLen) :
    (∃ bytes, saveJpgFile req.reqData req.reqLen binStartOffset (toInt fileLen) true = some (0,some bytes) ∧
      ((bytes.length : Int) = fileLen → binStartOffset+fileLen ≤ req.body.length)) ↔
      FileFits req binStartOffset fileLen := by
  obtain ⟨low,high⟩ := toInt_isInt fileLen
  have isInt := req.isInt
  have size : req.reqData.length = req.reqLen+1 := by simp [Request.reqData,Request.reqLen]
  have length : req.reqLen = req.body.length := rfl
  rw [saveJpgFile,if_neg (by omega),if_neg (by decide)]
  dsimp only
  rw [FileFits]
  generalize toInt fileLen = binLen at *
  rcases lt_trichotomy binLen 0 with negative | rfl | positive
  · have huge : ((binLen % 2^64).toNat : Int) = 2^64+binLen := by omega
    rw [if_neg (by omega),if_pos (Or.inr (by omega))]
    refine iff_of_false ?_ fun fits => absurd fits.1 (not_le.mpr negative)
    rintro ⟨bytes,saved,_⟩
    cases saved
  · refine iff_of_true ⟨[],rfl,fun declared => ?_⟩ ⟨le_rfl,Or.inl (by omega)⟩
    rw [← declared]
    simp only [List.length_nil]
    omega
  · have same : ((binLen % 2^64).toNat : Int) = binLen := by omega
    rw [if_neg (by omega)]
    split
    · refine iff_of_false ?_ fun fits => by omega
      rintro ⟨bytes,saved,_⟩
      cases saved
    · have taken : (slice req.reqData binStartOffset.toNat (binLen % 2^64).toNat).length = (binLen % 2^64).toNat := by
        rw [slice,List.length_take,List.length_drop]
        omega
      constructor
      · rintro ⟨bytes,saved,declared⟩
        obtain rfl := Option.some.inj (Prod.mk.inj (Option.some.inj saved)).2
        rw [taken] at declared
        omega
      · intro fits
        refine ⟨_,rfl,fun declared => ?_⟩
        rw [taken] at declared
        omega

theorem strchr_isSome {reqData : Text} {start : Nat} {char : UInt8} (inside : start < reqData.length) :
    (strchr reqData start char).isSome := by
  rw [strchr,if_neg (Nat.not_le.mpr inside)]
  rfl

theorem binStart_nonneg {reqData : Text} {pFilenameEnd : Nat}
    (early : 126 < breaksAt reqData (pFilenameEnd+1) → 128 ≤ pFilenameEnd) : 0 ≤ binStart reqData pFilenameEnd := by
  rw [binStart]
  split
  · omega
  · have := early (by omega)
    omega

theorem getFilename_found {reqData : Text} {symb : Nat} (found : strstr reqData requestSymbFilename = some symb) :
    getFilename reqData = match strchr reqData (symb+10) quote with
      | none => none
      | some none => some (.error (-3))
      | some (some pFilenameEnd) =>
        if maxFilenameLen < pFilenameEnd-(symb+10) then none
        else (skipBreaks reqData pFilenameEnd 256 1).map fun cnt =>
          .ok (padded maxFilenameLen (slice reqData (symb+10) (pFilenameEnd-(symb+10))),pFilenameEnd+cnt) := by
  have start : symb+requestSymbFilename.length+1 = symb+10 := rfl
  rw [getFilename,found]
  dsimp only
  rw [start]

/-- The handler behind a check function that has not failed. -/
theorem captureHdl_checked {ret : Int} (checked : answers.pCheckFunc = some ret) (passed : 0 ≤ ret) :
    captureHdl answers req = match getFilename req.reqData with
      | none => none
      | some (.error _) => some refused
      | some (.ok (filename,binStartPos)) =>
        if 0 ∉ filename then none
        else match getParamFromFilename (cString filename) with
          | none => none
          | some (.error _) => some refused
          | some (.ok params) =>
            if answers.insertCaptFileTask ≠ 0 then some refused
            else match saveJpgFile req.reqData req.reqLen binStartPos (toInt params.fileLen) answers.opens with
              | none => none
              | some (ret,written) =>
                if ret ≠ 0 then some refused
                else some ⟨200,written.map fun bytes => ⟨binStartPos,params.fileLen,bytes⟩⟩ := by
  rw [captureHdl,checked]
  exact if_neg (not_lt.mpr passed)

theorem captureHdl_refused {ret err : Int} (checked : answers.pCheckFunc = some ret) (passed : 0 ≤ ret)
    (failed : getFilename req.reqData = some (.error err)) : captureHdl answers req = some refused := by
  rw [captureHdl_checked checked passed,failed]

theorem getFilename_short (req : Request) {symb pFilenameEnd : Nat} (found : strstr req.reqData requestSymbFilename = some symb)
    (closed : strchr req.reqData (symb+10) quote = some (some pFilenameEnd))
    (short : pFilenameEnd-(symb+10) < maxFilenameLen)
    (early : 126 < breaksAt req.reqData (pFilenameEnd+1) → 128 ≤ pFilenameEnd) :
    getFilename req.reqData = some (.ok (padded maxFilenameLen (slice req.reqData (symb+10) (pFilenameEnd-(symb+10))),
      binStart req.reqData pFilenameEnd)) := by
  have skipped := skipBreaks_result req (strchr_closed closed).1
  rw [if_neg fun both => absurd (early both.1) (Nat.not_le.mpr both.2)] at skipped
  obtain ⟨cnt,counted,place⟩ := Option.map_eq_some_iff.mp skipped
  rw [getFilename_found found,closed]
  dsimp only
  rw [if_neg (by omega),counted,Option.map_some,place]

/-- A name that fills the buffer, or breaks that the count cannot hold. -/
theorem captureHdl_fault {symb pFilenameEnd : Nat} {ret : Int} (checked : answers.pCheckFunc = some ret) (passed : 0 ≤ ret)
    (found : strstr req.reqData requestSymbFilename = some symb)
    (closed : strchr req.reqData (symb+10) quote = some (some pFilenameEnd))
    (bad : maxFilenameLen ≤ pFilenameEnd-(symb+10) ∨ 126 < breaksAt req.reqData (pFilenameEnd+1) ∧ pFilenameEnd < 128) :
    captureHdl answers req = none := by
  obtain ⟨quoted,each,length⟩ := strchr_closed closed
  have plain : 0 ∉ slice req.reqData (symb+10) (pFilenameEnd-(symb+10)) := fun zero => (each 0 zero).2 rfl
  have skipped := skipBreaks_result req quoted
  rw [captureHdl_checked checked passed,getFilename_found found,closed]
  dsimp only
  by_cases long : maxFilenameLen < pFilenameEnd-(symb+10)
  · rw [if_pos long]
  · rw [if_neg long]
    cases counted : skipBreaks req.reqData pFilenameEnd 256 1 with
    | none => rfl
    | some cnt =>
      rw [counted,Option.map_some] at skipped
      rcases bad with full | both
      · rw [Option.map_some]
        dsimp only
        rw [if_pos (padded_full plain (length.symm ▸ full))]
      · rw [if_pos both] at skipped
        cases skipped

theorem saved_iff {symb pFilenameEnd : Nat} {ret : Int} (checked : answers.pCheckFunc = some ret) (passed : 0 ≤ ret)
    (found : strstr req.reqData requestSymbFilename = some symb)
    (closed : strchr req.reqData (symb+10) quote = some (some pFilenameEnd))
    (short : pFilenameEnd-(symb+10) < maxFilenameLen)
    (early : 126 < breaksAt req.reqData (pFilenameEnd+1) → 128 ≤ pFilenameEnd) :
    Bounded answers req ↔
      ∀ params, getParamFromFilename (slice req.reqData (symb+10) (pFilenameEnd-(symb+10))) = some (.ok params) →
        answers.insertCaptFileTask = 0 → answers.opens = true → binStart req.reqData pFilenameEnd < req.reqLen →
          FileFits req (binStart req.reqData pFilenameEnd) params.fileLen := by
  obtain ⟨_,each,length⟩ := strchr_closed closed
  have plain : 0 ∉ slice req.reqData (symb+10) (pFilenameEnd-(symb+10)) := fun zero => (each 0 zero).2 rfl
  have fits := length.symm ▸ short
  obtain ⟨ended,read⟩ := padded_short plain fits
  have parses := getParamFromFilename_isSome fits
  have named := getFilename_short req found closed short early
  have nonneg := binStart_nonneg early
  have handled : captureHdl answers req =
      match getParamFromFilename (slice req.reqData (symb+10) (pFilenameEnd-(symb+10))) with
      | none => none
      | some (.error _) => some refused
      | some (.ok params) =>
        if answers.insertCaptFileTask ≠ 0 then some refused
        else match saveJpgFile req.reqData req.reqLen (binStart req.reqData pFilenameEnd) (toInt params.fileLen) answers.opens with
          | none => none
          | some (ret,written) =>
            if ret ≠ 0 then some refused
            else some ⟨200,written.map fun bytes => ⟨binStart req.reqData pFilenameEnd,params.fileLen,bytes⟩⟩ := by
    rw [captureHdl_checked checked passed,named]
    dsimp only
    rw [if_neg (not_not_intro ended),read]
  obtain ⟨result,parsed⟩ := Option.isSome_iff_exists.mp parses
  rw [parsed] at handled ⊢
  cases result with
  | error ret =>
    refine iff_of_true (bounded_refused handled) fun params same => ?_
    cases same
  | ok params =>
    dsimp only at handled
    by_cases inserted : answers.insertCaptFileTask = 0
    case neg =>
      rw [if_pos inserted] at handled
      exact iff_of_true (bounded_refused handled) fun _ _ task => absurd task inserted
    rw [if_neg (not_not_intro inserted)] at handled
    by_cases inside : binStart req.reqData pFilenameEnd < req.reqLen
    case neg =>
      rw [saveJpgFile,if_pos (not_lt.mp inside)] at handled
      exact iff_of_true (bounded_refused handled) fun _ _ _ _ start => absurd start inside
    cases opens : answers.opens with
    | false =>
      rw [saveJpgFile,if_neg (not_le.mpr inside),opens] at handled
      refine iff_of_true (bounded_refused handled) fun _ _ _ opened => ?_
      cases opened
    | true =>
      rw [opens] at handled
      have saves := saveJpgFile_fits (binStart req.reqData pFilenameEnd) params.fileLen nonneg inside
      refine Iff.trans ?_ (saves.trans ⟨fun fits _ same _ _ _ => ?_,fun all => all params rfl inserted rfl inside⟩)
      · rcases @saveJpgFile_opened req.reqData _ _ (toInt params.fileLen) inside with fault | ⟨bytes,wrote⟩
        · rw [fault] at handled ⊢
          refine iff_of_false ?_ ?_
          · rintro ⟨_,result,_⟩
            rw [handled] at result
            cases result
          · rintro ⟨_,none,_⟩
            cases none
        · rw [wrote] at handled ⊢
          constructor
          · rintro ⟨_,result,holds⟩
            obtain rfl := Option.some.inj (handled.symm.trans result)
            exact ⟨bytes,rfl,holds _ rfl⟩
          · rintro ⟨_,same,holds⟩
            obtain rfl := Option.some.inj (Prod.mk.inj (Option.some.inj same)).2
            refine ⟨_,handled,fun saved among => ?_⟩
            obtain rfl := Option.some.inj among
            exact holds
      · obtain rfl := Except.ok.inj (Option.some.inj same)
        exact fits

theorem captureHdl_bounded_iff (answers : Answers) (req : Request) : Bounded answers req ↔ Contained answers req := by
  have size : req.reqData.length = req.reqLen+1 := by simp [Request.reqData,Request.reqLen]
  cases checked : answers.pCheckFunc with
  | none =>
    refine iff_of_true (bounded_refused (by rw [captureHdl,checked])) ?_
    rintro ⟨_,same,_⟩
    rw [checked] at same
    cases same
  | some ret =>
    by_cases passed : 0 ≤ ret
    case neg =>
      refine iff_of_true (bounded_refused (by rw [captureHdl,checked]; exact if_pos (not_le.mp passed))) ?_
      rintro ⟨_,same,nonneg⟩
      rw [checked] at same
      obtain rfl := Option.some.inj same
      exact absurd nonneg passed
    have asked : ∃ ret ∈ answers.pCheckFunc, 0 ≤ ret := ⟨ret,checked,passed⟩
    cases found : strstr req.reqData requestSymbFilename with
    | none =>
      have failed : getFilename req.reqData = some (.error (-2)) := by rw [getFilename,found]
      refine iff_of_true (bounded_refused (captureHdl_refused checked passed failed)) fun _ symb same => ?_
      rw [found] at same
      cases same
    | some symb =>
      by_cases room : symb+10 ≤ req.reqLen
      case neg =>
        have outside : strchr req.reqData (symb+10) quote = none := by
          rw [strchr,if_pos (by rw [size]; omega)]
        refine iff_of_false (not_bounded ?_) fun contained => absurd (contained asked symb found).1 room
        rw [captureHdl_checked checked passed,getFilename_found found,outside]
      obtain ⟨result,closed⟩ := Option.isSome_iff_exists.mp (@strchr_isSome req.reqData (symb+10) quote (by omega))
      cases result with
      | none =>
        have failed : getFilename req.reqData = some (.error (-3)) := by rw [getFilename_found found,closed]
        refine iff_of_true (bounded_refused (captureHdl_refused checked passed failed)) fun _ other same => ?_
        obtain rfl := Option.some.inj (found.symm.trans same)
        refine ⟨room,fun _ quoted => ?_⟩
        rw [closed] at quoted
        cases quoted
      | some pFilenameEnd =>
        have fault := captureHdl_fault checked passed found closed
        by_cases short : pFilenameEnd-(symb+10) < maxFilenameLen
        case neg =>
          refine iff_of_false (not_bounded (fault (Or.inl (not_lt.mp short)))) fun contained => ?_
          exact short ((contained asked symb found).2 pFilenameEnd closed).1
        by_cases early : 126 < breaksAt req.reqData (pFilenameEnd+1) → 128 ≤ pFilenameEnd
        case neg =>
          refine iff_of_false (not_bounded (fault (Or.inr (by omega)))) fun contained => ?_
          exact early ((contained asked symb found).2 pFilenameEnd closed).2.1
        rw [saved_iff checked passed found closed short early]
        constructor
        · intro saved _ other same
          obtain rfl := Option.some.inj (found.symm.trans same)
          refine ⟨room,fun stop quoted => ?_⟩
          obtain rfl := Option.some.inj (Option.some.inj (closed.symm.trans quoted))
          exact ⟨short,early,saved⟩
        · exact fun contained => ((contained asked symb found).2 pFilenameEnd closed).2.2

def shortBody : Request :=
  ⟨text "filename=\"1500_w640_h480_l5_ndoor.jpg\"" ++ [13,10,13,10,255,216,255],by decide⟩

/-- Five bytes are declared and three come. -/
theorem declared_too_long : ¬Bounded ⟨some 0,0,true⟩ shortBody := by
  apply not_bounded
  decide +kernel

end Bounds

end MoCodes.MoFaceRec.CaptureRequest
