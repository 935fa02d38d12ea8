import MoCodes.Crypto.Md5
import MoCodes.Utils.File
import Mathlib.Algebra.Group.Int.Defs

/-! moCrypt_MD5_File of moCrypt_MD5.c on a little-endian host. fread returns whole units
except at the end of the file. What is done with a unit is a parameter of the routines, so
that the units themselves can be followed as well as the states. -/
namespace MoCodes.Crypto.Md5File
open MoCodes.Lib.Blocks MoCodes.Utils.File MoCodes.Crypto MoCodes.Crypto.Md5

def unitLenBytes : Nat := 64

def modLenBytes : Nat := 56

def errOk : Int := 0

def errInputNull : Int := 0 - 21000

def errMallocFail : Int := 0 - 21001

def errFileNotExist : Int := 0 - 21002

def errWrongFileMode : Int := 0 - 21003

def errOpenFileFail : Int := 0 - 21004

inductive FileMode where
  | regular
  | link
  | other
  deriving DecidableEq

/-- `opens` tells whether the file can be opened with "rb+". -/
structure Env where
  stat : Path → Option FileMode
  opens : Path → Bool
  content : Path → List UInt8
  malloc : Bool

variable {σ β : Type}

structure FILE_INFO (σ : Type) where
  curUnitData : List UInt8
  orgCompleteUnitsNum : UInt64
  lastUnitBytesNum : UInt8
  pAppendUnits : List UInt8
  states : σ

/-- `memcpy(memory + offset, bytes, length of bytes)`. -/
def memcpy (memory : List UInt8) (offset : Nat) (bytes : List UInt8) : List UInt8 :=
  memory.take offset ++ bytes ++ memory.drop (offset+bytes.length)

def checkFile (env : Env) (pFilepath : Path) : Int :=
  match env.stat pFilepath with
  | none => errFileNotExist
  | some mode => if mode ≠ .regular ∧ mode ≠ .link then errWrongFileMode else errOk

def initFileInfo (init : σ) : FILE_INFO σ :=
  ⟨List.replicate unitLenBytes 0,0,0,[],init⟩

/-- The `while` over the complete units, then what the last fread leaves. -/
def readUnits (update : List UInt8 → σ → σ) (content : List UInt8) (info : FILE_INFO σ) : FILE_INFO σ :=
  let read := content.take unitLenBytes
  if read.length = unitLenBytes then
    readUnits update (content.drop unitLenBytes)
      { info with
        orgCompleteUnitsNum := info.orgCompleteUnitsNum+1
        states := update read info.states
        curUnitData := List.replicate unitLenBytes 0 }
  else
    { info with
      curUnitData := memcpy info.curUnitData 0 read
      lastUnitBytesNum := UInt8.ofNat read.length }
termination_by content.length
decreasing_by
  rename_i full
  have size : (content.take unitLenBytes).length = unitLenBytes := full
  simp only [unitLenBytes,List.length_take] at size
  simp only [unitLenBytes,List.length_drop]
  omega

def updateUnits (update : List UInt8 → σ → σ) (units : List (List UInt8)) (states : σ) : σ :=
  units.foldl (fun states unit => update unit states) states

def updateFileStates (update : List UInt8 → σ → σ) (malloc : Bool) (content : List UInt8)
    (pInfo : FILE_INFO σ) : Int × FILE_INFO σ :=
  let info := readUnits update content pInfo
  let lastUnitBytesNum := info.lastUnitBytesNum.toNat
  let appendUnitNum := if lastUnitBytesNum < modLenBytes then 1 else 2
  if malloc then
    let cleared := List.replicate (appendUnitNum*unitLenBytes) 0
    let copied := memcpy cleared 0 (info.curUnitData.take lastUnitBytesNum)
    let marked := copied.set lastUnitBytesNum 0x80
    let orgBitsNum := ((info.orgCompleteUnitsNum*64)+info.lastUnitBytesNum.toUInt64) <<< 3
    let pAppendUnits := memcpy marked (appendUnitNum*unitLenBytes-8) (Rfc1321.lowBytes 8 orgBitsNum.toNat)
    (errOk,{ info with
      pAppendUnits := pAppendUnits
      states := updateUnits update (cut unitLenBytes appendUnitNum pAppendUnits) info.states })
  else (errMallocFail,info)

/-- moCrypt_MD5_File up to what is done with a unit and with the states at the end. -/
def md5File (init : σ) (update : List UInt8 → σ → σ) (finish : σ → β) (env : Env)
    (pSrcFilepath : Option Path) (pValue : Bool) : Int × Option β :=
  match pSrcFilepath,pValue with
  | some pSrcFilepath,true =>
    let ret := checkFile env pSrcFilepath
    if ret ≠ errOk then (ret,none)
    else if env.opens pSrcFilepath then
      let result := updateFileStates update env.malloc (env.content pSrcFilepath) (initFileInfo init)
      if result.1 ≠ errOk then (result.1,none) else (errOk,some (finish result.2.states))
    else (errOpenFileFail,none)
  | _,_ => (errInputNull,none)

def moCrypt_MD5_File (env : Env) (pSrcFilepath : Option Path) (pValue : Bool) : Int × Option (List UInt8) :=
  md5File initStates updateUnitStates final env pSrcFilepath pValue

theorem updateUnits_append (update : List UInt8 → σ → σ) (front back : List (List UInt8)) (states : σ) :
    updateUnits update (front++back) states = updateUnits update back (updateUnits update front states) := by
  rw [updateUnits,updateUnits,updateUnits,List.foldl_append]

theorem updateUnits_cons (update : List UInt8 → σ → σ) (unit : List UInt8) (units : List (List UInt8))
    (states : σ) : updateUnits update (unit::units) states = updateUnits update units (update unit states) :=
  rfl

theorem memcpy_start {old bytes : List UInt8} (size : old.length = bytes.length) (back : List UInt8) :
    memcpy (old++back) 0 bytes = bytes++back := by
  have covered : old.length = 0+bytes.length := by rw [size,Nat.zero_add]
  rw [memcpy,List.drop_left' covered,List.take_zero,List.nil_append]

theorem memcpy_end {front old bytes : List UInt8} {offset : Nat} (start : front.length = offset)
    (size : old.length = bytes.length) : memcpy (front++old) offset bytes = front++bytes := by
  have covered : (front++old).length = offset+bytes.length := by
    rw [List.length_append,start,size]
  rw [memcpy,List.take_left' start,List.drop_eq_nil_of_le (Nat.le_of_eq covered),List.append_nil]

theorem set_between {front back : List UInt8} {offset : Nat} (start : front.length = offset)
    (old new : UInt8) : (front++old::back).set offset new = front++new::back := by
  rw [List.set_append,if_neg (by omega),start,Nat.sub_self,List.set_cons_zero]

def appendUnits (lastUnitBytesNum : Nat) : Nat := if lastUnitBytesNum < modLenBytes then 1 else 2

theorem appendUnits_size {length left : Nat} (rest : length%64 = left) :
    appendUnits left*64 = left+(Rfc1321.padding length).length := by
  have below : left < 64 := rest ▸ Nat.mod_lt length (by decide)
  rw [Rfc1321.padding_length,rest,appendUnits]
  by_cases short : left < modLenBytes
  · have bound : left < 56 := short
    rw [if_pos short]
    omega
  · have bound : ¬left < 56 := short
    rw [if_neg short]
    omega

/-- The memory that is appended to a text whose last `last.length` bytes are left over. -/
theorem appended_padding {last : List UInt8} {length : Nat} (rest : length%64 = last.length) (bits : Nat) :
    let size := appendUnits last.length*unitLenBytes
    memcpy ((memcpy (List.replicate size 0) 0 last).set last.length 0x80) (size-8)
        (Rfc1321.lowBytes 8 bits) =
      last ++ 0x80::List.replicate ((119-length%64)%64) 0 ++ Rfc1321.lowBytes 8 bits := by
  intro size
  let zeros := List.replicate ((119-length%64)%64) (0 : UInt8)
  have total : size = last.length+(1+((119-length%64)%64+8)) := by
    have whole : size = last.length+(Rfc1321.padding length).length := appendUnits_size rest
    rw [Rfc1321.padding_length] at whole
    omega
  have cleared : List.replicate size (0 : UInt8) =
      List.replicate last.length 0 ++ 0::(zeros ++ List.replicate 8 0) := by
    rw [total,List.replicate_add,List.replicate_add 1,List.replicate_add ((119-length%64)%64)]
    rfl
  have offset : (last++0x80::zeros).length = size-8 := by
    rw [total,List.length_append,List.length_cons,List.length_replicate]
    omega
  have bytes : (List.replicate 8 (0 : UInt8)).length = (Rfc1321.lowBytes 8 bits).length := by
    rw [List.length_replicate,Rfc1321.lowBytes_length]
  have placed := memcpy_end offset bytes
  rw [List.append_assoc] at placed
  rw [cleared,memcpy_start List.length_replicate,set_between rfl]
  exact placed

theorem readUnits_result (update : List UInt8 → σ → σ) {last : List UInt8} (short : last.length < 64)
    (count : Nat) (front : List UInt8) (whole : front.length = count*64) (info : FILE_INFO σ)
    (clear : info.curUnitData = List.replicate 64 0) :
    readUnits update (front++last) info =
      { info with
        curUnitData := last ++ List.replicate (64-last.length) 0
        orgCompleteUnitsNum := info.orgCompleteUnitsNum+UInt64.ofNat count
        lastUnitBytesNum := UInt8.ofNat last.length
        states := updateUnits update (cut 64 count front) info.states } := by
  revert info
  refine blocks_induction (P := fun count front => ∀ info : FILE_INFO σ,
    info.curUnitData = List.replicate 64 0 → readUnits update (front++last) info =
      { info with
        curUnitData := last ++ List.replicate (64-last.length) 0
        orgCompleteUnitsNum := info.orgCompleteUnitsNum+UInt64.ofNat count
        lastUnitBytesNum := UInt8.ofNat last.length
        states := updateUnits update (cut 64 count front) info.states }) ?_ ?_ count front whole
  · intro info clear
    have read : last.take unitLenBytes = last := List.take_of_length_le (Nat.le_of_lt short)
    have split : List.replicate 64 (0 : UInt8) =
        List.replicate last.length 0 ++ List.replicate (64-last.length) 0 := by
      rw [← List.replicate_add,Nat.add_sub_cancel' (Nat.le_of_lt short)]
    have partly : last.length ≠ unitLenBytes := Nat.ne_of_lt short
    rw [List.nil_append,readUnits,read,if_neg partly,clear,split,memcpy_start List.length_replicate]
    simp [cut,updateUnits]
  · intro count first rest full _ ih info clear
    have unit : first.length = unitLenBytes := full
    have read : ((first++rest)++last).take unitLenBytes = first := by
      rw [List.append_assoc,List.take_left' unit]
    have left : ((first++rest)++last).drop unitLenBytes = rest++last := by
      rw [List.append_assoc,List.drop_left' unit]
    have counted : info.orgCompleteUnitsNum+1+UInt64.ofNat count =
        info.orgCompleteUnitsNum+UInt64.ofNat (count+1) := by
      rw [UInt64.ofNat_add,UInt64.add_assoc,UInt64.add_comm 1]
      rfl
    rw [readUnits,read,if_pos unit,left,ih _ rfl,counted,cut_succ full]
    rfl

theorem orgBitsNum_bits {count left : Nat} (short : left < 64) :
    (((UInt64.ofNat count*64)+(UInt8.ofNat left).toUInt64) <<< 3).toNat = 8*(count*64+left)%2^64 := by
  have byte : (UInt8.ofNat left).toNat = left := by
    rw [UInt8.toNat_ofNat']
    omega
  rw [UInt64.toNat_shiftLeft,UInt64.toNat_add,UInt64.toNat_mul,UInt64.toNat_ofNat',UInt8.toNat_toUInt64,
    byte,Nat.shiftLeft_eq]
  simp
  omega

theorem updateFileStates_blocks (update : List UInt8 → σ → σ) (content : List UInt8) (init : σ) :
    (updateFileStates update true content (initFileInfo init)).1 = errOk ∧
      (updateFileStates update true content (initFileInfo init)).2.states =
        updateUnits update (Rfc1321.blocks content) init := by
  obtain ⟨count,front,last,rfl,whole,short⟩ := blocks_split (by decide : 0 < 64) content
  have length : (front++last).length = count*64+last.length := by rw [List.length_append,whole]
  have rest : (front++last).length%64 = last.length := by
    rw [length]
    omega
  have read := readUnits_result update short count front whole (initFileInfo init) rfl
  have byte : (UInt8.ofNat last.length).toNat = last.length := by
    rw [UInt8.toNat_ofNat']
    omega
  have bits : (((UInt64.ofNat count*64)+(UInt8.ofNat last.length).toUInt64) <<< 3).toNat =
      8*(front++last).length%2^64 := by
    rw [length]
    exact orgBitsNum_bits short
  have appended := appended_padding rest
    (((UInt64.ofNat count*64)+(UInt8.ofNat last.length).toUInt64) <<< 3).toNat
  have low : Rfc1321.lowBytes 8 (8*(front++last).length%2^64) =
      Rfc1321.lowBytes 8 (8*(front++last).length) := Rfc1321.lowBytes_mod 8 _
  have padded : last ++ Rfc1321.padding (front++last).length = last ++
      0x80::List.replicate ((119-(front++last).length%64)%64) 0 ++
        Rfc1321.lowBytes 8 (8*(front++last).length%2^64) := by
    rw [low,Rfc1321.padding,List.append_assoc]
  have units : (last.length+(Rfc1321.padding (front++last).length).length)/64 = appendUnits last.length := by
    rw [← appendUnits_size rest]
    exact Nat.mul_div_cancel _ (by decide)
  have first : (initFileInfo init).orgCompleteUnitsNum+UInt64.ofNat count = UInt64.ofNat count :=
    UInt64.zero_add _
  rw [Rfc1321.blocks,Rfc1321.cut_padded whole,updateUnits_append,units,padded,← bits,← appended]
  simp only [updateFileStates,read,byte,List.take_left,first,if_true,true_and]
  rfl

/-- A regular file or a link that can be opened, with memory for the appended units. -/
def Readable (env : Env) (path : Path) : Prop :=
  (env.stat path = some .regular ∨ env.stat path = some .link) ∧ env.opens path = true ∧ env.malloc = true

theorem checkFile_ok_iff (env : Env) (path : Path) :
    checkFile env path = errOk ↔ env.stat path = some .regular ∨ env.stat path = some .link := by
  rw [checkFile]
  cases env.stat path with
  | none => simp [errFileNotExist,errOk]
  | some mode => cases mode <;> simp [errWrongFileMode,errOk]

theorem md5File_result (init : σ) (update : List UInt8 → σ → σ) (finish : σ → β) (env : Env)
    (path : Path) :
    let result := md5File init update finish env (some path) true
    (Readable env path → result =
        (errOk,some (finish (updateUnits update (Rfc1321.blocks (env.content path)) init)))) ∧
      (¬Readable env path → result.1 ≠ errOk) := by
  obtain ⟨ok,states⟩ := updateFileStates_blocks update (env.content path) init
  intro result
  constructor
  · intro ⟨mode,opens,malloc⟩
    have checked := (checkFile_ok_iff env path).mpr mode
    simp [result,md5File,checked,opens,malloc,ok,states]
  · intro unreadable
    by_cases checked : checkFile env path = errOk
    · by_cases opens : env.opens path = true
      · have none : env.malloc = false := by
          by_contra malloc
          exact unreadable ⟨(checkFile_ok_iff env path).mp checked,opens,by simpa using malloc⟩
        simp [result,md5File,checked,opens,none,updateFileStates,errMallocFail,errOk]
      · simp [result,md5File,checked,opens,errOpenFileFail,errOk]
    · simp [result,md5File,checked]

theorem updateUnits_compress (units : List (List UInt8)) (states : STATES) :
    view .abcd (updateUnits updateUnitStates units states) =
      units.foldl (fun buffer block => Rfc1321.compress (Rfc1321.word block) buffer) (view .abcd states) := by
  induction units generalizing states with
  | nil => rfl
  | cons unit units ih =>
    rw [updateUnits_cons,List.foldl_cons,ih (updateUnitStates unit states),updateUnitStates_compress]

/-- Of every file, however long, that can be read at all the value is the digest of RFC 1321;
the standard counts the bits modulo 2^64 as the code does. -/
theorem md5File_digest (env : Env) (path : Path) :
    let result := moCrypt_MD5_File env (some path) true
    (result.1 = errOk ↔ Readable env path) ∧
      (result.1 = errOk → result.2 = some (Rfc1321.digest (env.content path))) := by
  obtain ⟨read,failed⟩ := md5File_result initStates updateUnitStates final env path
  intro result
  have readable : result.1 = errOk → Readable env path := by
    intro ok
    by_contra unreadable
    exact failed unreadable ok
  have value : Readable env path → result = (errOk,some (Rfc1321.digest (env.content path))) := by
    intro reads
    have states := updateUnits_compress (Rfc1321.blocks (env.content path)) initStates
    simp only [result,moCrypt_MD5_File,read reads,final_output,states]
    rfl
  constructor
  · exact ⟨readable,fun reads => congrArg Prod.fst (value reads)⟩
  · exact fun ok => congrArg Prod.snd (value (readable ok))

end MoCodes.Crypto.Md5File
