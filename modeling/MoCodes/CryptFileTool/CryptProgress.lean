import MoCodes.CryptFileTool.CryptThread
import MoCodes.Crypto.Rc4File
import Mathlib.Algebra.Order.Floor.Ring
import Mathlib.Data.Rat.Floor
import Mathlib.Tactic.Linarith

/-! What the `cryptFile`s of moCrypt_RC4.c and moCrypt_BASE64.c report to their callback, for
every answer of the calls they make. The percentage is computed exactly. -/
namespace MoCodes.CryptFileTool.CryptProgress
open MoCodes.Utils.File (MOUTILS_FILE_ABSPATH_STATE World Path getFilepathSameState)
open MoCodes.Crypto MoCodes.Crypto.Base64 MoCodes.Lib.Blocks

/-- What comes before the point, as C converts a float. -/
def toInt (value : ℚ) : Int := value.num.tdiv value.den

/-- A division by zero leaves no value to convert, which on x86 gives the smallest int. -/
def percent (loopCnt : Int) (curCnt : Nat) : Int :=
  if loopCnt = 0 then 0 - 2^31
  else
    let percent : ℚ := curCnt/loopCnt
    toInt (percent*80+10)

def loopCnt (filesize blockSize : Int) : Int :=
  if filesize.tmod blockSize = 0 then filesize.tdiv blockSize else filesize.tdiv blockSize+1

abbrev Reporting := Int × List Int

def setProgress (prog : Int) (rest : Reporting) : Reporting := (rest.1,prog::rest.2)

/-- An error is reported and returned. -/
def fail (err : Int) : Reporting := (err,[err])

/-- The `while` over what fread returns. -/
def cryptBlocks (crypt : Nat → List UInt8 → Int) (loopCnt : Int) : List (List UInt8) → Nat → Reporting
  | [],_ => (0,[])
  | buf::bufs,curCnt =>
    if crypt curCnt buf ≠ 0 then (crypt curCnt buf,[])
    else setProgress (percent loopCnt (curCnt+1)) (cryptBlocks crypt loopCnt bufs (curCnt+1))

/-- What the calls of a conversion answer. `dstOpens` is about the temporary file where there is
one; the two files are opened again by BASE64 to copy it back. -/
structure Answers where
  compared : Int × MOUTILS_FILE_ABSPATH_STATE
  decided : compared.1 = 0 → compared.2 ≠ .err
  tmpFilepath : Bool
  srcOpens : Bool
  dstOpens : Bool
  filesize : Int
  blocks : List (List UInt8)
  malloc : Nat → Bool
  fwrite : Nat → Bool
  srcReopens : Bool
  tmpReopens : Bool

section Rc4

def rc4ErrWriteFileFail : Int := 0 - 20008

variable (key : List UInt8) (keylen : Nat) (answers : Answers)

def rc4Crypt (blockNum : Nat) (readBuf : List UInt8) : Int :=
  let ret := (Rc4.moCrypt_RC4_cryptString (fun _ => answers.malloc blockNum) (some key) keylen
    (some readBuf) readBuf.length).1
  if ret ≠ 0 then ret else if answers.fwrite blockNum then 0 else rc4ErrWriteFileFail

def rc4_cryptFileBlockly : Reporting :=
  if answers.filesize < 0 then (Rc4.errInputParamNull,[])
  else cryptBlocks (rc4Crypt key keylen answers) (loopCnt answers.filesize Rc4.blockSize) answers.blocks 0

def rc4_cryptFile : Reporting :=
  setProgress 0 <|
  if answers.compared.1 ≠ 0 then fail Rc4File.errGetFileDiffStateFail
  else setProgress 5 <|
  if answers.compared.2 = .same ∧ ¬answers.tmpFilepath then fail Rc4File.errGenTmpFile
  else if ¬answers.srcOpens then fail Rc4File.errOpenFileFailed
  else if ¬answers.dstOpens then fail Rc4File.errOpenFileFailed
  else setProgress 10 <|
  let crypted := rc4_cryptFileBlockly key keylen answers
  if crypted.1 ≠ 0 then (crypted.1,crypted.2 ++ [crypted.1])
  -- copyContentsToDstfile reads nothing from the temporary file, which is open for writing
  else (0,crypted.2 ++ [95,100])

end Rc4

section Base64

variable (method : MOCRYPT_METHOD) (answers : Answers)

def base64Crypt (curCnt : Nat) (buf : List UInt8) : Int :=
  if answers.malloc curCnt && (Base64File.cryptChars method buf).isSome then 0 else base64ErrMallocFailed

def base64Blocks : Reporting :=
  cryptBlocks (base64Crypt method answers) (loopCnt answers.filesize Base64File.cryptFileBlockSize)
    answers.blocks 0

def base64_cryptFileToSame : Reporting :=
  if ¬answers.tmpFilepath then fail base64ErrMallocFailed
  else if ¬answers.srcOpens then fail base64ErrFileOpenFail
  else if ¬answers.dstOpens then fail base64ErrFileOpenFail
  else setProgress 10 <|
  let crypted := base64Blocks method answers
  if crypted.1 ≠ 0 then (crypted.1,crypted.2 ++ [crypted.1])
  else if ¬answers.srcReopens then (base64ErrFileOpenFail,crypted.2 ++ [90,base64ErrFileOpenFail])
  else if ¬answers.tmpReopens then (base64ErrFileOpenFail,crypted.2 ++ [90,base64ErrFileOpenFail])
  else (0,crypted.2 ++ [90,95])

def base64_cryptFileToDiff : Reporting :=
  if ¬answers.srcOpens then fail base64ErrFileOpenFail
  else if ¬answers.dstOpens then fail base64ErrFileOpenFail
  else setProgress 10 <|
  let crypted := base64Blocks method answers
  if crypted.1 ≠ 0 then (crypted.1,crypted.2 ++ [crypted.1]) else (0,crypted.2 ++ [90,95])

/-- A failed comparison is returned only, as is an unknown state. -/
def base64_cryptFile : Reporting :=
  setProgress 0 <|
  if answers.compared.1 ≠ 0 then (base64ErrGetFileDiffStateFail,[])
  else setProgress 5 <|
  let result := match answers.compared.2 with
    | .same => base64_cryptFileToSame method answers
    | .diff => base64_cryptFileToDiff method answers
    | .err => (base64ErrOther,[])
  if result.1 = 0 then (0,result.2 ++ [100]) else result

end Base64

inductive Call where
  | rc4 (key : List UInt8) (keylen : Nat)
  | base64 (method : MOCRYPT_METHOD)

namespace Call

def func : Call → CryptFunc
  | rc4 _ _ => .rc4
  | base64 _ => .base64

def crypt (answers : Answers) : Call → Nat → List UInt8 → Int
  | rc4 key keylen => rc4Crypt key keylen answers
  | base64 method => base64Crypt method answers

def blockSize : Call → Nat
  | rc4 _ _ => Rc4.blockSize
  | base64 _ => Base64File.cryptFileBlockSize

/-- What `cryptFileAsync` runs. -/
def cryptFile (answers : Answers) : Call → Reporting
  | rc4 key keylen => rc4_cryptFile key keylen answers
  | base64 method => base64_cryptFile method answers

end Call

/-- The reports climb below 100 until one last report, which tells how the routine ends. -/
def Announced (result : Reporting) : Prop :=
  ∃ front last, result.2 = front ++ [last] ∧ front.Pairwise (· ≤ ·) ∧ (∀ prog ∈ front, Underway prog) ∧
    (result.1 = 0 → last = 100) ∧ (result.1 ≠ 0 → last < 0)


theorem toInt_nonneg {value : ℚ} (nonneg : 0 ≤ value) : toInt value = ⌊value⌋ := by
  rw [toInt,Rat.floor_def',Int.tdiv_eq_ediv_of_nonneg (Rat.num_nonneg.mpr nonneg)]

theorem toInt_lt {value : ℚ} {bound : Int} (positive : 0 < bound) (below : value < bound) :
    toInt value < bound := by
  rcases lt_or_ge value 0 with negative | nonneg
  · have num : value.num ≤ 0 := le_of_lt (Rat.num_neg.mpr negative)
    have quotient : toInt value ≤ 0 := by
      have ordered := Int.tdiv_le_tdiv (Int.natCast_pos.mpr value.den_pos) num
      rwa [Int.zero_tdiv] at ordered
    omega
  · rw [toInt_nonneg nonneg]
    exact Int.floor_lt.mpr below

section Percent

variable {loopCnt : Int}

theorem percent_eq (positive : 0 < loopCnt) (curCnt : Nat) :
    percent loopCnt curCnt = ⌊(curCnt/loopCnt : ℚ)*80+10⌋ := by
  have total : (0 : ℚ) < loopCnt := Int.cast_pos.mpr positive
  rw [percent,if_neg (Int.ne_of_gt positive)]
  exact toInt_nonneg (by positivity)

theorem percent_mono (positive : 0 < loopCnt) {earlier later : Nat} (before : earlier ≤ later) :
    percent loopCnt earlier ≤ percent loopCnt later := by
  have total : (0 : ℚ) < loopCnt := Int.cast_pos.mpr positive
  rw [percent_eq positive,percent_eq positive]
  apply Int.floor_mono
  gcongr

theorem ten_le_percent (positive : 0 < loopCnt) (curCnt : Nat) : 10 ≤ percent loopCnt curCnt := by
  have total : (0 : ℚ) < loopCnt := Int.cast_pos.mpr positive
  have part : (0 : ℚ) ≤ curCnt/loopCnt := by positivity
  rw [percent_eq positive]
  apply Int.le_floor.mpr
  push_cast
  linarith

theorem percent_le_iff (positive : 0 < loopCnt) (curCnt : Nat) (cap : Int) :
    percent loopCnt curCnt ≤ cap ↔ 80*(curCnt : Int) < (cap-9)*loopCnt := by
  have total : (0 : ℚ) < loopCnt := Int.cast_pos.mpr positive
  have scaled : (curCnt/loopCnt : ℚ)*80+10 < (cap+1 : Int) ↔ (80*curCnt : ℚ) < (cap-9)*loopCnt := by
    rw [← lt_sub_iff_add_lt,div_mul_eq_mul_div,div_lt_iff₀ total]
    push_cast
    constructor <;> intro below <;> linarith
  rw [percent_eq positive,← Int.lt_add_one_iff,Int.floor_lt,scaled]
  exact_mod_cast Iff.rfl

/-- Without blocks to count on, the first percentage falls behind the ten that went before. -/
theorem percent_lt_ten (nonpositive : loopCnt ≤ 0) {curCnt : Nat} (some : 0 < curCnt) :
    percent loopCnt curCnt < 10 := by
  rw [percent]
  split
  · decide
  · rename_i nonzero
    have negative : (loopCnt : ℚ) < 0 := Int.cast_lt_zero.mpr (lt_of_le_of_ne nonpositive nonzero)
    have part : (curCnt/loopCnt : ℚ) < 0 := div_neg_of_pos_of_neg (Nat.cast_pos.mpr some) negative
    apply toInt_lt (by decide)
    push_cast
    linarith

end Percent

/-- The blocks before the first one that fails. -/
def crypted (crypt : Nat → List UInt8 → Int) : List (List UInt8) → Nat → Nat
  | [],_ => 0
  | buf::bufs,curCnt => if crypt curCnt buf ≠ 0 then 0 else crypted crypt bufs (curCnt+1)+1

def percents (loopCnt : Int) (count : Nat) : List Int := (List.range' 1 count).map (percent loopCnt)

section Blocks

variable {crypt : Nat → List UInt8 → Int} (total : Int) (bufs : List (List UInt8))

theorem crypted_le (curCnt : Nat) : crypted crypt bufs curCnt ≤ bufs.length := by
  induction bufs generalizing curCnt with
  | nil => exact Nat.le_refl 0
  | cons buf bufs ih =>
    rw [crypted]
    split
    · exact Nat.zero_le _
    · exact Nat.succ_le_succ (ih (curCnt+1))

theorem cryptBlocks_reports (curCnt : Nat) : (cryptBlocks crypt total bufs curCnt).2 =
    (List.range' (curCnt+1) (crypted crypt bufs curCnt)).map (percent total) := by
  induction bufs generalizing curCnt with
  | nil => rfl
  | cons buf bufs ih =>
    rw [cryptBlocks,crypted]
    split
    · rfl
    · rw [setProgress,ih,List.range'_succ,List.map_cons]

theorem cryptBlocks_ok_iff (curCnt : Nat) :
    (cryptBlocks crypt total bufs curCnt).1 = 0 ↔ crypted crypt bufs curCnt = bufs.length := by
  induction bufs generalizing curCnt with
  | nil => exact iff_of_true rfl rfl
  | cons buf bufs ih =>
    rw [cryptBlocks,crypted]
    split
    · rename_i failed
      exact iff_of_false failed (by simp)
    · rw [setProgress,ih,List.length_cons,Nat.add_right_cancel_iff]

theorem cryptBlocks_nonpos (errors : ∀ n buf, crypt n buf ≤ 0) (curCnt : Nat) :
    (cryptBlocks crypt total bufs curCnt).1 ≤ 0 := by
  induction bufs generalizing curCnt with
  | nil => exact Int.le_refl 0
  | cons buf bufs ih =>
    rw [cryptBlocks]
    split
    · exact errors curCnt buf
    · exact ih (curCnt+1)

end Blocks

/-- Reports that may come before the last one. -/
def Climbs (reports : List Int) : Prop := reports.Pairwise (· ≤ ·) ∧ ∀ prog ∈ reports, Underway prog

theorem announced_iff {result : Reporting} {front : List Int} {last : Int}
    (reports : result.2 = front ++ [last]) :
    Announced result ↔ Climbs front ∧ (result.1 = 0 → last = 100) ∧ (result.1 ≠ 0 → last < 0) := by
  constructor
  · rintro ⟨before,final,split,sorted,underway,ends⟩
    obtain ⟨rfl,same⟩ := List.append_inj' (reports.symm.trans split) rfl
    obtain rfl := List.singleton_inj.mp same
    exact ⟨⟨sorted,underway⟩,ends⟩
  · intro ⟨⟨sorted,underway⟩,ends⟩
    exact ⟨front,last,reports,sorted,underway,ends⟩

theorem mem_percents {total : Int} {count : Nat} {prog : Int} :
    prog ∈ percents total count ↔ ∃ i, 1 ≤ i ∧ i ≤ count ∧ percent total i = prog := by
  rw [percents,List.mem_map]
  refine exists_congr fun i => ?_
  rw [List.mem_range'_1,and_assoc,Nat.add_comm,Nat.lt_succ_iff]

section Climbing

variable {behind : List Int} (sorted : behind.Pairwise (· ≤ ·)) (high : ∀ prog ∈ behind, 10 ≤ prog ∧ prog < 100)

include sorted high in
theorem le_head_iff (prog : Int) : prog ≤ behind.headD 99 ↔ (∀ later ∈ behind, prog ≤ later) ∧ prog < 100 := by
  cases behind with
  | nil =>
    have cap : prog ≤ 99 ↔ prog < 100 := Int.lt_add_one_iff.symm
    simpa using cap
  | cons first rest =>
    have least := (List.pairwise_cons.mp sorted).1
    have range := high first List.mem_cons_self
    constructor
    · intro below
      refine ⟨fun later among => ?_,lt_of_le_of_lt below range.2⟩
      rcases List.mem_cons.mp among with rfl | behind
      · exact below
      · exact le_trans below (least later behind)
    · intro ⟨below,_⟩
      exact below first List.mem_cons_self

include sorted high in
theorem climbs_of_between {percents : List Int} (ordered : percents.Pairwise (· ≤ ·))
    (between : ∀ prog ∈ percents, 10 ≤ prog ∧ prog ≤ behind.headD 99) :
    Climbs ([0,5,10] ++ percents ++ behind) := by
  have opened : ∀ prog ∈ ([0,5,10] : List Int), 0 ≤ prog ∧ prog ≤ 10 := by decide
  constructor
  · refine List.pairwise_append.mpr ⟨List.pairwise_append.mpr ⟨by decide,ordered,?_⟩,sorted,?_⟩
    · intro early among prog percent
      exact le_trans (opened early among).2 (between prog percent).1
    · intro early among late last
      rcases List.mem_append.mp among with first | percent
      · exact le_trans (opened early first).2 (high late last).1
      · exact ((le_head_iff sorted high early).mp (between early percent).2).1 late last
  · intro prog among
    rcases List.mem_append.mp among with front | last
    · rcases List.mem_append.mp front with first | percent
      · have range := opened prog first
        exact ⟨range.1,by omega⟩
      · have below := ((le_head_iff sorted high prog).mp (between prog percent).2).2
        exact ⟨le_trans (by decide) (between prog percent).1,below⟩
    · have range := high prog last
      exact ⟨by omega,range.2⟩

include sorted high in
/-- The percentages fit between what comes before the blocks and what comes behind them. -/
theorem climbs_iff (total : Int) (count : Nat) :
    Climbs ([0,5,10] ++ percents total count ++ behind) ↔
      count = 0 ∨ 80*(count : Int) < (behind.headD 99-9)*total := by
  have room : 9 < behind.headD 99 := by
    cases behind with
    | nil => decide
    | cons first rest =>
      have range := high first List.mem_cons_self
      exact Int.lt_of_add_one_le range.1
  constructor
  · intro ⟨ordered,underway⟩
    rcases Nat.eq_zero_or_pos count with none | some
    · exact Or.inl none
    · right
      have first : percent total 1 ∈ percents total count := mem_percents.mpr ⟨1,le_rfl,some,rfl⟩
      have last : percent total count ∈ percents total count := mem_percents.mpr ⟨count,some,le_rfl,rfl⟩
      obtain ⟨front,_,before⟩ := List.pairwise_append.mp ordered
      have ten : 10 ≤ percent total 1 := (List.pairwise_append.mp front).2.2 10 (by decide) _ first
      have positive : 0 < total := by
        by_contra nonpositive
        have behind := percent_lt_ten (Int.not_lt.mp nonpositive) (Nat.one_pos)
        omega
      refine (percent_le_iff positive count _).mp ((le_head_iff sorted high _).mpr ⟨?_,?_⟩)
      · intro later among
        exact before _ (List.mem_append_right _ last) later among
      · exact (underway _ (List.mem_append_left _ (List.mem_append_right _ last))).2
  · rintro (rfl | below)
    · exact climbs_of_between sorted high List.Pairwise.nil (by simp [percents])
    · have positive : 0 < total := by
        by_contra nonpositive
        have product := Int.mul_nonpos_of_nonneg_of_nonpos (by omega : 0 ≤ behind.headD 99-9)
          (Int.not_lt.mp nonpositive)
        omega
      refine climbs_of_between sorted high ?_ ?_
      · exact List.Pairwise.map _ (fun _ _ before => percent_mono positive (Nat.le_of_lt before))
          List.pairwise_lt_range'
      · intro prog among
        obtain ⟨i,_,inside,rfl⟩ := mem_percents.mp among
        exact ⟨ten_le_percent positive i,
          le_trans (percent_mono positive inside) ((percent_le_iff positive count _).mpr below)⟩

end Climbing

def Answers.Opened (answers : Answers) : Prop :=
  (answers.compared.2 = .same → answers.tmpFilepath = true) ∧ answers.srcOpens = true ∧ answers.dstOpens = true

namespace Call

variable (answers : Answers) (call : Call)

def blockCnt : Int := loopCnt answers.filesize call.blockSize

def cryptedCnt : Nat := crypted (call.crypt answers) answers.blocks 0

/-- RC4 does not begin with a file whose size is not known. -/
def Begins : Prop :=
  answers.compared.1 = 0 ∧ answers.Opened ∧ (call.func = .rc4 → 0 ≤ answers.filesize)

/-- How a call fares with the answers it gets. -/
inductive Fares : Outcome → Prop where
  | diffStateFailed (failed : answers.compared.1 ≠ 0) : Fares .diffStateFailed
  | openFailed (compared : answers.compared.1 = 0) (closed : ¬call.Begins answers) (err : Err) :
      Fares (.openFailed err)
  | sizeFailed (compared : answers.compared.1 = 0) (unsized : ¬call.Begins answers) (err : Err) :
      Fares (.cryptFailed [] err)
  | cryptFailed (begins : call.Begins answers) (stopped : call.cryptedCnt answers < answers.blocks.length)
      (err : Err) : Fares (.cryptFailed (percents (call.blockCnt answers) (call.cryptedCnt answers)) err)
  | copyFailed (begins : call.Begins answers) (all : call.cryptedCnt answers = answers.blocks.length)
      (base64 : call.func = .base64) (err : Err) :
      Fares (.copyFailed (percents (call.blockCnt answers) (call.cryptedCnt answers)) err)
  | crypted (begins : call.Begins answers) (all : call.cryptedCnt answers = answers.blocks.length) :
      Fares (.crypted (percents (call.blockCnt answers) (call.cryptedCnt answers)))

/-- The routine does what `outcome` tells of it. -/
structure Reports (result : Reporting) (outcome : Outcome) : Prop where
  fares : call.Fares answers outcome
  reports : result.2 = outcome.reports call.func
  ok : result.1 = 0 ↔ ∃ percents, outcome = .crypted percents

end Call

section Errors

theorem blockEncryptDecrypt_nonpos (malloc : Bool) (key : List UInt8) (keylen : Nat) (txt : List UInt8) :
    (Rc4.blockEncryptDecrypt malloc key keylen txt).1 ≤ 0 := by
  cases malloc with
  | false => exact (by decide : Rc4.errMallocFailed ≤ 0)
  | true => exact Int.le_refl 0

theorem rc4Blocks_nonpos (malloc : Nat → Bool) (key : List UInt8) (keylen : Nat) (txt : List UInt8)
    (txtLen : Int) (curBlockNum : Nat) : (Rc4.cryptBlocks malloc key keylen txt txtLen curBlockNum).1 ≤ 0 := by
  fun_induction Rc4.cryptBlocks malloc key keylen txt txtLen curBlockNum with
  | case1 txt txtLen curBlockNum more curPtr curBlockLen block written ok ih => exact ih
  | case2 txt txtLen curBlockNum more curPtr curBlockLen block written failed =>
    exact blockEncryptDecrypt_nonpos _ key keylen _
  | case3 => exact Int.le_refl 0

theorem crypt_nonpos (answers : Answers) (call : Call) (n : Nat) (buf : List UInt8) :
    call.crypt answers n buf ≤ 0 := by
  cases call with
  | rc4 key keylen =>
    have string : (Rc4.moCrypt_RC4_cryptString (fun _ => answers.malloc n) (some key) keylen (some buf)
        buf.length).1 ≤ 0 := by
      simp only [Rc4.moCrypt_RC4_cryptString]
      split
      · exact rc4Blocks_nonpos _ key keylen buf _ 0
      · exact (by decide : Rc4.errInvalidKey ≤ 0)
    simp only [Call.crypt,rc4Crypt]
    split_ifs
    · exact string
    · exact Int.le_refl 0
    · decide
  | base64 method =>
    simp only [Call.crypt,base64Crypt]
    split <;> decide

end Errors

section Cases

variable (answers : Answers)

theorem not_begins {call : Call} (closed : ¬answers.Opened) : ¬call.Begins answers :=
  fun begins => closed begins.2.1

theorem blocks_result (call : Call) :
    let crypted := cryptBlocks (call.crypt answers) (call.blockCnt answers) answers.blocks 0
    crypted.2 = percents (call.blockCnt answers) (call.cryptedCnt answers) ∧
      (crypted.1 = 0 → call.cryptedCnt answers = answers.blocks.length) ∧
      (crypted.1 ≠ 0 → crypted.1 < 0 ∧ call.cryptedCnt answers < answers.blocks.length) := by
  have ok : (cryptBlocks (call.crypt answers) (call.blockCnt answers) answers.blocks 0).1 = 0 ↔
      call.cryptedCnt answers = answers.blocks.length := cryptBlocks_ok_iff _ _ 0
  have range : call.cryptedCnt answers ≤ answers.blocks.length := crypted_le _ 0
  have nonpos := cryptBlocks_nonpos (call.blockCnt answers) answers.blocks (crypt_nonpos answers call) 0
  refine ⟨cryptBlocks_reports _ _ 0,ok.mp,fun failed => ⟨lt_of_le_of_ne nonpos failed,?_⟩⟩
  exact lt_of_le_of_ne range fun all => failed (ok.mpr all)

section Rc4Cases

variable {answers} (key : List UInt8) (keylen : Nat) (compared : answers.compared.1 = 0)
include compared

theorem rc4_opened (opened : answers.Opened) : rc4_cryptFile key keylen answers =
    let crypted := rc4_cryptFileBlockly key keylen answers
    if crypted.1 ≠ 0 then (crypted.1,[0,5,10] ++ crypted.2 ++ [crypted.1])
    else (0,[0,5,10] ++ crypted.2 ++ [95,100]) := by
  obtain ⟨tmp,src,dst⟩ := opened
  have named : ¬(answers.compared.2 = .same ∧ ¬answers.tmpFilepath = true) := fun ⟨same,unnamed⟩ => unnamed (tmp same)
  rw [rc4_cryptFile,if_neg (not_not.mpr compared),if_neg named,if_neg (not_not.mpr src),if_neg (not_not.mpr dst)]
  simp only [setProgress]
  split <;> rfl

theorem rc4_closed (closed : ¬answers.Opened) :
    ∃ err : Err, rc4_cryptFile key keylen answers = (err.val,[0,5,err.val]) := by
  rw [rc4_cryptFile,if_neg (not_not.mpr compared)]
  by_cases unnamed : answers.compared.2 = .same ∧ ¬answers.tmpFilepath = true
  · rw [if_pos unnamed]
    exact ⟨⟨Rc4File.errGenTmpFile,by decide⟩,rfl⟩
  rw [if_neg unnamed]
  by_cases src : answers.srcOpens = true
  · have dst : ¬answers.dstOpens = true := by
      intro dst
      refine closed ⟨fun same => ?_,src,dst⟩
      exact not_not.mp fun missing => unnamed ⟨same,missing⟩
    rw [if_neg (not_not.mpr src),if_pos dst]
    exact ⟨⟨Rc4File.errOpenFileFailed,by decide⟩,rfl⟩
  · rw [if_pos src]
    exact ⟨⟨Rc4File.errOpenFileFailed,by decide⟩,rfl⟩

end Rc4Cases

theorem rc4_cryptFile_reports (key : List UInt8) (keylen : Nat) :
    ∃ outcome, (Call.rc4 key keylen).Reports answers (rc4_cryptFile key keylen answers) outcome := by
  by_cases compared : answers.compared.1 = 0
  · by_cases opened : answers.Opened
    · rw [rc4_opened key keylen compared opened,rc4_cryptFileBlockly]
      by_cases sized : answers.filesize < 0
      · have late : ¬(Call.rc4 key keylen).Begins answers := fun begins => absurd (begins.2.2 rfl) (Int.not_le.mpr sized)
        refine ⟨_,.sizeFailed compared late ⟨Rc4.errInputParamNull,by decide⟩,?_,?_⟩
        · simp [sized,Outcome.reports,Call.func,Rc4.errInputParamNull]
        · simp [sized,Rc4.errInputParamNull]
      · have begins : (Call.rc4 key keylen).Begins answers := ⟨compared,opened,fun _ => Int.not_lt.mp sized⟩
        obtain ⟨reports,ok,failed⟩ := blocks_result answers (.rc4 key keylen)
        rw [if_neg sized]
        dsimp only
        split
        · rename_i stopped
          obtain ⟨negative,fewer⟩ := failed stopped
          refine ⟨_,.cryptFailed begins fewer ⟨_,negative⟩,?_,iff_of_false stopped (by simp)⟩
          simp only [Outcome.reports,Call.func,← reports]
          rfl
        · rename_i done
          refine ⟨_,.crypted begins (ok (not_not.mp done)),?_,iff_of_true rfl ⟨_,rfl⟩⟩
          simp only [Outcome.reports,Call.func,← reports]
          rfl
    · obtain ⟨err,result⟩ := rc4_closed key keylen compared opened
      rw [result]
      exact ⟨_,.openFailed compared (not_begins answers opened) err,rfl,iff_of_false err.property.ne (by simp)⟩
  · refine ⟨_,.diffStateFailed compared,?_,?_⟩
    · rw [rc4_cryptFile,if_pos compared]
      rfl
    · rw [rc4_cryptFile,if_pos compared]
      exact iff_of_false (by decide : Rc4File.errGetFileDiffStateFail ≠ 0) (by simp)

section Base64Cases

variable {answers} (method : MOCRYPT_METHOD)

/-- The 100 comes behind what a routine that fails has not reported. -/
def finished (result : Reporting) : Reporting := if result.1 = 0 then (0,result.2 ++ [100]) else result

theorem finished_failed {result : Reporting} (failed : result.1 ≠ 0) : finished result = result := if_neg failed

theorem base64_compared (compared : answers.compared.1 = 0) : base64_cryptFile method answers =
    let result := finished (if answers.compared.2 = .same then base64_cryptFileToSame method answers
      else base64_cryptFileToDiff method answers)
    (result.1,[0,5] ++ result.2) := by
  rw [base64_cryptFile,if_neg (not_not.mpr compared)]
  cases state : answers.compared.2 with
  | err => exact absurd state (answers.decided compared)
  | same => rfl
  | diff => rfl

theorem base64_opened (compared : answers.compared.1 = 0) (opened : answers.Opened) :
    base64_cryptFile method answers =
    let crypted := base64Blocks method answers
    if crypted.1 ≠ 0 then (crypted.1,[0,5,10] ++ crypted.2 ++ [crypted.1])
    else if answers.compared.2 = .same ∧ ¬(answers.srcReopens = true ∧ answers.tmpReopens = true) then
      (base64ErrFileOpenFail,[0,5,10] ++ crypted.2 ++ [90,base64ErrFileOpenFail])
    else (0,[0,5,10] ++ crypted.2 ++ [90,95,100]) := by
  obtain ⟨tmp,src,dst⟩ := opened
  rw [base64_compared method compared]
  by_cases same : answers.compared.2 = .same
  · rw [if_pos same,base64_cryptFileToSame,if_neg (not_not.mpr (tmp same)),if_neg (not_not.mpr src),
      if_neg (not_not.mpr dst)]
    by_cases failed : (base64Blocks method answers).1 = 0
    · by_cases reopens : answers.srcReopens = true <;> by_cases reads : answers.tmpReopens = true <;>
        simp [setProgress,finished,failed,same,reopens,reads,base64ErrFileOpenFail]
    · simp [setProgress,finished,failed]
  · rw [if_neg same,base64_cryptFileToDiff,if_neg (not_not.mpr src),if_neg (not_not.mpr dst)]
    by_cases failed : (base64Blocks method answers).1 = 0
    · simp [setProgress,finished,failed,same]
    · simp [setProgress,finished,failed]

theorem base64_closed (compared : answers.compared.1 = 0) (closed : ¬answers.Opened) :
    ∃ err : Err, base64_cryptFile method answers = (err.val,[0,5,err.val]) := by
  have missing : ∃ err : Err, (if answers.compared.2 = .same then base64_cryptFileToSame method answers
      else base64_cryptFileToDiff method answers) = fail err.val := by
    by_cases named : answers.compared.2 = .same ∧ ¬answers.tmpFilepath = true
    · rw [if_pos named.1,base64_cryptFileToSame,if_pos named.2]
      exact ⟨⟨base64ErrMallocFailed,by decide⟩,rfl⟩
    · refine ⟨⟨base64ErrFileOpenFail,by decide⟩,?_⟩
      rw [base64_cryptFileToSame,base64_cryptFileToDiff]
      by_cases src : answers.srcOpens = true
      · have dst : ¬answers.dstOpens = true := by
          intro dst
          refine closed ⟨fun same => ?_,src,dst⟩
          exact not_not.mp fun unnamed => named ⟨same,unnamed⟩
        rw [if_neg (not_not.mpr src),if_pos dst]
        split
        · rename_i same
          exact if_neg fun unnamed => named ⟨same,unnamed⟩
        · rfl
      · rw [if_pos src]
        split
        · rename_i same
          exact if_neg fun unnamed => named ⟨same,unnamed⟩
        · rfl
  obtain ⟨err,failed⟩ := missing
  refine ⟨err,?_⟩
  rw [base64_compared method compared,failed,finished_failed (show (fail err.val).1 ≠ 0 from err.property.ne)]
  rfl

end Base64Cases

theorem base64_cryptFile_reports (method : MOCRYPT_METHOD) :
    ∃ outcome, (Call.base64 method).Reports answers (base64_cryptFile method answers) outcome := by
  by_cases compared : answers.compared.1 = 0
  · by_cases opened : answers.Opened
    · have begins : (Call.base64 method).Begins answers := ⟨compared,opened,fun rc4 => by cases rc4⟩
      obtain ⟨reports,ok,failed⟩ := blocks_result answers (.base64 method)
      rw [base64_opened method compared opened]
      dsimp only
      split
      · rename_i stopped
        obtain ⟨negative,fewer⟩ := failed stopped
        refine ⟨_,.cryptFailed begins fewer ⟨_,negative⟩,?_,iff_of_false stopped (by simp)⟩
        simp only [Outcome.reports,Call.func,← reports]
        rfl
      · rename_i done
        have all := ok (not_not.mp done)
        split
        · refine ⟨_,.copyFailed begins all rfl ⟨base64ErrFileOpenFail,by decide⟩,?_,?_⟩
          · simp only [Outcome.reports,Call.func,← reports]
            rfl
          · exact iff_of_false (by decide : base64ErrFileOpenFail ≠ 0) (by simp)
        · refine ⟨_,.crypted begins all,?_,iff_of_true rfl ⟨_,rfl⟩⟩
          simp only [Outcome.reports,Call.func,← reports]
          rfl
    · obtain ⟨err,result⟩ := base64_closed method compared opened
      rw [result]
      exact ⟨_,.openFailed compared (not_begins answers opened) err,rfl,iff_of_false err.property.ne (by simp)⟩
  · refine ⟨_,.diffStateFailed compared,?_,?_⟩
    · rw [base64_cryptFile,if_pos compared]
      rfl
    · rw [base64_cryptFile,if_pos compared]
      exact iff_of_false (by decide : base64ErrGetFileDiffStateFail ≠ 0) (by simp)

end Cases

namespace Call

variable (answers : Answers) (call : Call)

theorem cryptFile_reports : ∃ outcome, call.Reports answers (call.cryptFile answers) outcome := by
  cases call with
  | rc4 key keylen => exact rc4_cryptFile_reports answers key keylen
  | base64 method => exact base64_cryptFile_reports answers method

/-- What the blocks leave up to the next report, in parts of the eighty percent. -/
def room : Int :=
  if call.cryptedCnt answers < answers.blocks.length then 90
  else match call.func with
    | .rc4 => 86
    | .base64 => 81

/-- The comparison of the paths succeeds where it is BASE64 that asks for it, and the blocks are
not too many for the size that was found. -/
def Paced : Prop :=
  (call.func = .base64 → answers.compared.1 = 0) ∧
    (call.Begins answers → call.cryptedCnt answers = 0 ∨
      80*(call.cryptedCnt answers : Int) < call.room answers*call.blockCnt answers)

end Call

/-- Where the last report tells how the routine ended, the others are to climb. -/
theorem announced_climbs {result : Reporting} {front : List Int} {last : Int} (reports : result.2 = front ++ [last])
    (ends : result.1 = 0 ∧ last = 100 ∨ result.1 ≠ 0 ∧ last < 0) : Announced result ↔ Climbs front := by
  refine (announced_iff reports).trans (and_iff_left ?_)
  rcases ends with ⟨ok,done⟩ | ⟨failed,negative⟩
  · exact ⟨fun _ => done,fun failed => absurd ok failed⟩
  · exact ⟨fun ok => absurd ok failed,fun _ => negative⟩

section Paced

variable {answers : Answers} {call : Call}

theorem paced_of_not_begins (compared : answers.compared.1 = 0) (closed : ¬call.Begins answers) :
    call.Paced answers :=
  ⟨fun _ => compared,fun begins => absurd begins closed⟩

theorem climbs_iff_paced (begins : call.Begins answers) {behind : List Int} (sorted : behind.Pairwise (· ≤ ·))
    (high : ∀ prog ∈ behind, 10 ≤ prog ∧ prog < 100) (room : behind.headD 99-9 = call.room answers) :
    Climbs ([0,5,10] ++ percents (call.blockCnt answers) (call.cryptedCnt answers) ++ behind) ↔
      call.Paced answers := by
  rw [climbs_iff sorted high,room]
  exact ⟨fun fits => ⟨fun _ => begins.1,fun _ => fits⟩,fun paced => paced.2 begins⟩

end Paced

theorem announced_iff_paced (answers : Answers) (call : Call) :
    Announced (call.cryptFile answers) ↔ call.Paced answers := by
  obtain ⟨outcome,fares,reports,ok⟩ := call.cryptFile_reports answers
  have error (failed : ¬∃ percents, outcome = .crypted percents) : (call.cryptFile answers).1 ≠ 0 :=
    mt ok.mp failed
  cases fares with
  | diffStateFailed failed =>
    cases func : call.func with
    | rc4 =>
      rw [func] at reports
      have split : (call.cryptFile answers).2 = [0] ++ [Rc4File.errGetFileDiffStateFail] := reports
      rw [announced_climbs split (Or.inr ⟨error (by simp),by decide⟩)]
      refine iff_of_true ⟨by decide,by decide⟩ ⟨fun base64 => ?_,fun begins => absurd begins.1 failed⟩
      rw [func] at base64
      cases base64
    | base64 =>
      rw [func] at reports
      have split : (call.cryptFile answers).2 = [] ++ [0] := reports
      rw [announced_iff split]
      exact iff_of_false (fun announced => absurd (announced.2.2 (error (by simp))) (by decide))
        fun paced => failed (paced.1 func)
  | openFailed compared closed err =>
    have split : (call.cryptFile answers).2 = [0,5] ++ [err.val] := by
      rw [reports]
      cases call.func <;> rfl
    rw [announced_climbs split (Or.inr ⟨error (by simp),err.property⟩)]
    exact iff_of_true ⟨by decide,by decide⟩ (paced_of_not_begins compared closed)
  | sizeFailed compared unsized err =>
    have split : (call.cryptFile answers).2 = [0,5,10] ++ [err.val] := by
      rw [reports]
      cases call.func <;> rfl
    rw [announced_climbs split (Or.inr ⟨error (by simp),err.property⟩)]
    exact iff_of_true ⟨by decide,by decide⟩ (paced_of_not_begins compared unsized)
  | cryptFailed begins stopped err =>
    have split : (call.cryptFile answers).2 =
        [0,5,10] ++ percents (call.blockCnt answers) (call.cryptedCnt answers) ++ [] ++ [err.val] := by
      rw [reports,List.append_nil]
      cases call.func <;> rfl
    rw [announced_climbs split (Or.inr ⟨error (by simp),err.property⟩)]
    exact climbs_iff_paced begins List.Pairwise.nil (by simp) (by rw [Call.room,if_pos stopped]; rfl)
  | copyFailed begins all base64 err =>
    have room : call.room answers = 81 := by rw [Call.room,if_neg all.not_lt,base64]
    have split : (call.cryptFile answers).2 =
        [0,5,10] ++ percents (call.blockCnt answers) (call.cryptedCnt answers) ++ [90] ++ [err.val] := by
      rw [reports,base64,Outcome.reports,List.append_assoc _ [90]]
      rfl
    rw [announced_climbs split (Or.inr ⟨error (by simp),err.property⟩)]
    exact climbs_iff_paced begins (by decide) (by decide) room.symm
  | crypted begins all =>
    have done : (call.cryptFile answers).1 = 0 := ok.mpr ⟨_,rfl⟩
    cases func : call.func with
    | rc4 =>
      have room : call.room answers = 86 := by rw [Call.room,if_neg all.not_lt,func]
      have split : (call.cryptFile answers).2 =
          [0,5,10] ++ percents (call.blockCnt answers) (call.cryptedCnt answers) ++ [95] ++ [100] := by
        rw [reports,func,Outcome.reports,List.append_assoc _ [95]]
        rfl
      rw [announced_climbs split (Or.inl ⟨done,rfl⟩)]
      exact climbs_iff_paced begins (by decide) (by decide) room.symm
    | base64 =>
      have room : call.room answers = 81 := by rw [Call.room,if_neg all.not_lt,func]
      have split : (call.cryptFile answers).2 =
          [0,5,10] ++ percents (call.blockCnt answers) (call.cryptedCnt answers) ++ [90,95] ++ [100] := by
        rw [reports,func,Outcome.reports,List.append_assoc _ [90,95]]
        rfl
      rw [announced_climbs split (Or.inl ⟨done,rfl⟩)]
      exact climbs_iff_paced begins (by decide) (by decide) room.symm

/-- A source that is read to its end in whole blocks, and whose size is what was found. -/
structure OwnSize (answers : Answers) (call : Call) (content : List UInt8) : Prop where
  size : answers.filesize = content.length
  blocks : answers.blocks = chunks call.blockSize content

theorem blockCnt_length {answers : Answers} {call : Call} {content : List UInt8}
    (own : OwnSize answers call content) : call.blockCnt answers = answers.blocks.length := by
  have nonneg : (0 : Int) ≤ content.length := Int.natCast_nonneg _
  rw [Call.blockCnt,own.size,own.blocks,chunks,List.length_map,List.length_range,loopCnt,
    Int.tmod_eq_emod_of_nonneg nonneg,Int.tdiv_eq_ediv_of_nonneg nonneg]
  cases call with
  | rc4 key keylen =>
    simp only [Call.blockSize,Rc4.blockSize]
    omega
  | base64 method =>
    simp only [Call.blockSize,Base64File.cryptFileBlockSize]
    omega

theorem room_ge (answers : Answers) (call : Call) : 81 ≤ call.room answers := by
  rw [Call.room]
  split
  · decide
  · cases call.func <;> decide

/-- Where the size is the one of the source, only the comparison that BASE64 keeps to itself is left. -/
theorem announced_own_size {answers : Answers} {call : Call} {content : List UInt8}
    (own : OwnSize answers call content) :
    Announced (call.cryptFile answers) ↔ (call.func = .base64 → answers.compared.1 = 0) := by
  rw [announced_iff_paced]
  refine and_iff_left fun _ => ?_
  have inside : call.cryptedCnt answers ≤ answers.blocks.length := crypted_le _ 0
  rcases Nat.eq_zero_or_pos (call.cryptedCnt answers) with none | some
  · exact Or.inl none
  · right
    rw [blockCnt_length own]
    calc 80*(call.cryptedCnt answers : Int) < 81*(answers.blocks.length : Int) := by omega
      _ ≤ call.room answers*answers.blocks.length :=
        Int.mul_le_mul_of_nonneg_right (room_ge answers call) (Int.natCast_nonneg _)

/-- Three blocks behind a link whose own text is all that counts as their size. -/
example : percents (loopCnt 5 768) 3 = [90,170,250] := by decide +kernel

/-- `none/f` is to be encrypted to `f`, and there is no directory `none`. -/
def unnamed : Answers where
  compared := getFilepathSameState ⟨fun _ => 0,fun _ => false,fun _ => false,fun _ => false,id⟩
    ['n','o','n','e','/','f'] ['f']
  decided := by decide
  tmpFilepath := true
  srcOpens := true
  dstOpens := true
  filesize := 0
  blocks := []
  malloc _ := true
  fwrite _ := true
  srcReopens := true
  tmpReopens := true

/-- The callback hears of the start and nothing else. -/
theorem comparison_unannounced : (Call.cryptFile unnamed (.base64 .encrypt)).2 = [0] ∧
    ¬Announced (Call.cryptFile unnamed (.base64 .encrypt)) := by
  have reports : (Call.cryptFile unnamed (.base64 .encrypt)).2 = [] ++ [0] := rfl
  refine ⟨reports,fun announced => ?_⟩
  have ends := ((announced_iff reports).mp announced).2.2
  exact absurd (ends (by decide)) (by decide)

end MoCodes.CryptFileTool.CryptProgress
