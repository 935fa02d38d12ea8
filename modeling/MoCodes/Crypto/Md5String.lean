import MoCodes.Crypto.Md5File

/-! moCrypt_MD5_String of moCrypt_MD5.c. `pCont` is what lies in memory from the pointer on,
and an `int` that leaves its range wraps around. -/
namespace MoCodes.Crypto.Md5String
open MoCodes.Lib.Blocks MoCodes.Crypto MoCodes.Crypto.Md5 MoCodes.Crypto.Md5File
open MoCodes.Utils.File (Path)

variable {σ β : Type}

def toInt (n : Int) : Int := n.bmod (2^32)

def strlen (pCont : List UInt8) : Nat := (pCont.takeWhile (· != 0)).length

structure STR_INFO (σ : Type) where
  orgBitsNum : UInt64
  orgUnitsNum : UInt64
  appendUnitsNum : UInt8
  pOrgUnit : List UInt8
  pAppendUnit : List UInt8
  states : σ

def initStrInfo (init : σ) : STR_INFO σ := ⟨0,0,0,[],[],init⟩

def appendCont2Str (malloc : Bool) (pCont : List UInt8) (pInfo : STR_INFO σ) : Int × STR_INFO σ :=
  let orgStrLen := toInt (strlen pCont)
  let orgBitsNum := UInt64.ofInt (toInt (orgStrLen*2^3))
  let orgUnitsNum := UInt64.ofInt (orgStrLen.tdiv 64)
  let remainderBytesNum := UInt32.ofInt (orgStrLen.tmod 64)
  let appendUnitsNum : UInt8 := if remainderBytesNum.toNat < modLenBytes then 1 else 2
  let info := { pInfo with
    orgBitsNum := orgBitsNum
    orgUnitsNum := orgUnitsNum
    appendUnitsNum := appendUnitsNum
    pOrgUnit := pCont }
  if malloc then
    let size := appendUnitsNum.toNat*unitLenBytes
    let orgLastUnitDataBytes := (orgStrLen.tmod 64).toNat
    let lastUnitData := (pCont.drop (orgUnitsNum.toNat*unitLenBytes)).take orgLastUnitDataBytes
    let copied := memcpy (List.replicate size 0) 0 lastUnitData
    let marked := copied.set orgLastUnitDataBytes 0x80
    (errOk,{ info with
      pAppendUnit := memcpy marked (size-8) (Rfc1321.lowBytes 8 orgBitsNum.toNat) })
  else (errMallocFail,info)

def updateStrStates (update : List UInt8 → σ → σ) (pInfo : STR_INFO σ) : STR_INFO σ :=
  let states := updateUnits update (cut unitLenBytes pInfo.orgUnitsNum.toNat pInfo.pOrgUnit) pInfo.states
  { pInfo with
    states := updateUnits update (cut unitLenBytes pInfo.appendUnitsNum.toNat pInfo.pAppendUnit) states }

/-- moCrypt_MD5_String up to what is done with a unit and with the states at the end. -/
def md5String (init : σ) (update : List UInt8 → σ → σ) (finish : σ → β) (malloc : Bool)
    (pCont : Option (List UInt8)) (pValue : Bool) : Int × Option β :=
  match pCont,pValue with
  | some pCont,true =>
    let result := appendCont2Str malloc pCont (initStrInfo init)
    if result.1 ≠ errOk then (result.1,none)
    else (errOk,some (finish (updateStrStates update result.2).states))
  | _,_ => (errInputNull,none)

def moCrypt_MD5_String (malloc : Bool) (pCont : Option (List UInt8)) (pValue : Bool) :
    Int × Option (List UInt8) :=
  md5String initStates updateUnitStates final malloc pCont pValue

/-- The number of bits that a text of this length is given. -/
def stringBits (length : Nat) : Nat := (UInt64.ofInt (toInt (length*2^3))).toNat

/-- The units of a text: as the standard has them, but for the number of bits. -/
def stringUnits (text : List UInt8) : List (List UInt8) :=
  let pad := 0x80::List.replicate ((119-text.length%64)%64) 0 ++ Rfc1321.lowBytes 8 (stringBits text.length)
  cut 64 ((text++pad).length/64) (text++pad)

theorem toInt_small {n : Nat} (small : n < 2^31) : toInt n = n := by
  rw [toInt,Int.bmod]
  omega

theorem strlen_text {text : List UInt8} (nonzero : 0 ∉ text) (rest : List UInt8) :
    strlen (text++0::rest) = text.length := by
  have stop : (text++0::rest).takeWhile (· != 0) = text := by
    rw [List.takeWhile_append_of_pos]
    · simp
    · intro byte member
      simp only [bne_iff_ne,ne_eq]
      exact fun same => nonzero (same ▸ member)
  rw [strlen,stop]

theorem ofInt_toNat {n : Nat} (small : n < 2^64) : (UInt64.ofInt n).toNat = n := by
  rw [UInt64.ofInt,UInt64.toNat_ofNat']
  omega

/-- The bits are counted right up to the length where they leave an `int`. -/
theorem stringBits_iff {length : Nat} (held : length < 2^31) :
    stringBits length = 8*length ↔ length < 2^28 := by
  rw [stringBits,UInt64.ofInt,UInt64.toNat_ofNat',toInt,Int.bmod]
  omega

theorem stringBits_lt (length : Nat) : stringBits length < 256^8 := UInt64.toNat_lt _

section Text

variable {text : List UInt8} (nonzero : 0 ∉ text) (held : text.length < 2^31)
include nonzero held

theorem md5String_result (init : σ) (update : List UInt8 → σ → σ) (finish : σ → β) (after : List UInt8) :
    md5String init update finish true (some (text++0::after)) true =
      (errOk,some (finish (updateUnits update (stringUnits text) init))) := by
  obtain ⟨count,front,last,same,whole,short⟩ := blocks_split (by decide : 0 < 64) text
  have length : text.length = count*64+last.length := by rw [same,List.length_append,whole]
  have rest : text.length%64 = last.length := by
    rw [length]
    omega
  have wide : text.length < 2^64 := by omega
  have quotient : (UInt64.ofInt ((text.length : Int).tdiv 64)).toNat = count := by
    rw [Int.tdiv_eq_ediv_of_nonneg (Int.natCast_nonneg _)]
    have whole : (text.length : Int)/64 = (count : Nat) := by omega
    rw [whole]
    exact ofInt_toNat (by omega)
  have remainder : (text.length : Int).tmod 64 = (last.length : Nat) := by
    rw [Int.tmod_eq_emod_of_nonneg (Int.natCast_nonneg _)]
    omega
  have byte : (UInt32.ofInt (last.length : Nat)).toNat = last.length := by
    rw [UInt32.ofInt,UInt32.toNat_ofNat']
    omega
  have units : (if last.length < modLenBytes then (1 : UInt8) else 2).toNat = appendUnits last.length := by
    rw [appendUnits]
    split <;> rfl
  have tail : ((text++0::after).drop (count*unitLenBytes)).take last.length = last := by
    have start : front.length = count*unitLenBytes := whole
    rw [same,List.append_assoc,List.drop_left' start,List.take_left' rfl]
  have body : cut unitLenBytes count (text++0::after) = cut 64 count front := by
    have cutFront := cut_append 0 (last++0::after) whole
    rw [Nat.add_zero] at cutFront
    rw [same,List.append_assoc,unitLenBytes,cutFront]
    simp [cut]
  have appended := appended_padding rest (stringBits text.length)
  have size : (last.length+(0x80::List.replicate ((119-text.length%64)%64) 0 ++
      Rfc1321.lowBytes 8 (stringBits text.length)).length)/64 = appendUnits last.length := by
    have counted := appendUnits_size rest
    rw [Rfc1321.padding_length] at counted
    rw [List.length_append,List.length_cons,List.length_replicate,Rfc1321.lowBytes_length]
    omega
  have fed : stringUnits text = cut 64 count front ++ cut 64 (appendUnits last.length)
      (last ++ 0x80::List.replicate ((119-text.length%64)%64) 0 ++
        Rfc1321.lowBytes 8 (stringBits text.length)) := by
    have padded := Rfc1321.cut_padded whole last (0x80::List.replicate ((119-text.length%64)%64) 0 ++
      Rfc1321.lowBytes 8 (stringBits text.length))
    rw [← same,size,← List.append_assoc last] at padded
    exact padded
  rw [fed,updateUnits_append,← appended]
  simp only [md5String,appendCont2Str,updateStrStates,strlen_text nonzero,toInt_small held,quotient,
    remainder,byte,units,if_true,Int.toNat_natCast,tail,stringBits]
  rw [if_neg (by simp),body]
  rfl

omit nonzero in
/-- The units are the blocks of the standard as long as the bits fit an `int`. -/
theorem stringUnits_iff : stringUnits text = Rfc1321.blocks text ↔ text.length < 2^28 := by
  have count : (Rfc1321.lowBytes 8 (stringBits text.length)).length =
      (Rfc1321.lowBytes 8 (8*text.length)).length := by
    rw [Rfc1321.lowBytes_length,Rfc1321.lowBytes_length]
  have total : (text ++ Rfc1321.padding text.length).length%64 = 0 := by
    rw [List.length_append,Rfc1321.padding_length]
    omega
  rw [← stringBits_iff held]
  constructor
  · intro same
    have whole : ∀ padded : List UInt8, padded.length%64 = 0 →
        (cut 64 (padded.length/64) padded).flatten = padded :=
      fun padded blocks => flatten_cut (by omega)
    have padded := congrArg List.flatten same
    rw [stringUnits,Rfc1321.blocks,whole _ total,whole] at padded
    · rw [Rfc1321.padding,List.append_cancel_left_eq,List.append_cancel_left_eq] at padded
      exact Rfc1321.lowBytes_inj (stringBits_lt _) (by omega) padded
    · rw [List.length_append,List.length_append,count,← List.length_append,← List.length_append]
      exact total
  · intro bits
    rw [stringUnits,bits]
    rfl

end Text

def recordUnit (unit : List UInt8) (seen : List (List UInt8)) : List (List UInt8) := seen++[unit]

theorem recordUnit_units (units seen : List (List UInt8)) : updateUnits recordUnit units seen = seen++units := by
  induction units generalizing seen with
  | nil => rw [List.append_nil]; rfl
  | cons unit units ih => rw [updateUnits_cons,ih,recordUnit,List.append_assoc]; rfl

/-- A text in memory and a file of the same content: the same units are updated, and the same
value comes out. -/
def Agree (env : Env) (path : Path) (pCont : List UInt8) : Prop :=
  md5String [] recordUnit id true (some pCont) true = md5File [] recordUnit id env (some path) true ∧
    moCrypt_MD5_String true (some pCont) true = moCrypt_MD5_File env (some path) true

section Agreement

variable {env : Env} {path : Path} {text : List UInt8} (readable : Readable env path)
  (content : env.content path = text) (nonzero : 0 ∉ text) (held : text.length < 2^31)
  (after : List UInt8)
include readable content nonzero held

theorem agree_short (agree : Agree env path (text++0::after)) : text.length < 2^28 := by
  have file := (md5File_result [] recordUnit id env path).1 readable
  have string := md5String_result nonzero held [] recordUnit id after
  have same := agree.1
  rw [file,string,content,recordUnit_units,recordUnit_units] at same
  rw [← stringUnits_iff held]
  simpa using same

theorem short_agree (short : text.length < 2^28) : Agree env path (text++0::after) := by
  have same := (stringUnits_iff held).mpr short
  have result : ∀ {σ β : Type} (init : σ) (update : List UInt8 → σ → σ) (finish : σ → β),
      md5String init update finish true (some (text++0::after)) true =
        md5File init update finish env (some path) true := by
    intro σ β init update finish
    rw [(md5File_result init update finish env path).1 readable,
      md5String_result nonzero held init update finish after,content,same]
  exact ⟨result [] recordUnit id,result initStates updateUnitStates final⟩

/-- The two routines agree on every text whose bits an `int` can count, and on no longer one. -/
theorem md5String_agree_iff : Agree env path (text++0::after) ↔ text.length < 2^28 :=
  ⟨agree_short readable content nonzero held after,short_agree readable content nonzero held after⟩

end Agreement

def plainEnv (content : List UInt8) : Env := ⟨fun _ => some .regular,fun _ => true,fun _ => content,true⟩

theorem md5String_agree_iff_byte :
    Readable (plainEnv [97]) ['f'] ∧ (plainEnv [97]).content ['f'] = [97] ∧ 0 ∉ [(97 : UInt8)] ∧
      [(97 : UInt8)].length < 2^31 ∧
      (Agree (plainEnv [97]) ['f'] ([97]++0::[]) ↔ [(97 : UInt8)].length < 2^28) :=
  ⟨⟨.inl rfl,rfl,rfl⟩,rfl,by decide,by decide,
    md5String_agree_iff ⟨.inl rfl,rfl,rfl⟩ rfl (by decide) (by decide) []⟩

/-- A text of 2^28 letters: its 2^31 bits become a negative `int`. -/
theorem md5String_long_text :
    ¬Agree (plainEnv (List.replicate (2^28) 97)) ['f'] (List.replicate (2^28) 97 ++ 0::[]) := by
  intro agree
  have size : (List.replicate (2^28) (97 : UInt8)).length = 2^28 := List.length_replicate
  have nonzero : 0 ∉ List.replicate (2^28) (97 : UInt8) :=
    fun member => absurd (List.eq_of_mem_replicate member) (by decide)
  have held : 2^28 < 2^31 := by decide
  have short : (List.replicate (2^28) (97 : UInt8)).length < 2^28 :=
    agree_short ⟨.inl rfl,rfl,rfl⟩ rfl nonzero (size.symm ▸ held) [] agree
  rw [size] at short
  exact Nat.lt_irrefl _ short

end MoCodes.Crypto.Md5String
