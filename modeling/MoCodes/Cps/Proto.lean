import MoCodes.Utils.SearchBf
import Mathlib.Data.List.GetD
import Mathlib.Data.Nat.Find

/-! The messages of the CPS protocol as they lie in memory: little-endian fields at the
offsets the structures of moCpsUtils.h have, and the format checks both sides make. -/
namespace MoCodes.Cps
open MoCodes.Utils.Search MoCodes.Lib.Matching

/-- The bytes of "MOCPS_CLIENT". -/
def markClient : List UInt8 := [77,79,67,80,83,95,67,76,73,69,78,84]

/-- The bytes of "MOCPS_SERVER". -/
def markServer : List UInt8 := [77,79,67,80,83,95,83,69,82,86,69,82]

inductive CmdId where
  | keyAgree | heartbeat | byebye | sendDataport | getFileinfo | getData
  deriving DecidableEq,Repr

def CmdId.ofWire : Nat → Option CmdId
  | 0 => some .keyAgree
  | 1 => some .heartbeat
  | 2 => some .byebye
  | 3 => some .sendDataport
  | 4 => some .getFileinfo
  | 5 => some .getData
  | _ => none

inductive CryptAlgo where
  | idle | des | des3 | aes | rc4 | max
  deriving DecidableEq,Repr

/-- Every known algorithm is compiled to a copy; the others are refused. -/
def CryptAlgo.known : CryptAlgo → Bool
  | .idle => false
  | .max => false
  | _ => true

def readLE : List UInt8 → Nat
  | [] => 0
  | byte :: bytes => byte.toNat+256*readLE bytes

theorem readLE_second {bytes : List UInt8} (low : readLE bytes < 256) (long : 1 < bytes.length) :
    bytes[1]? = some 0 := by
  match bytes with
  | [] => simp at long
  | [_] => simp at long
  | first :: second :: rest =>
    simp only [readLE] at low
    have zero : second.toNat = (0 : UInt8).toNat := by
      show second.toNat = 0
      omega
    rw [List.getElem?_cons_succ,List.getElem?_cons_zero,UInt8.toNat_inj.mp zero]

def field (bytes : List UInt8) (offset size : Nat) : Nat := readLE ((bytes.drop offset).take size)

theorem readLE_lt (bytes : List UInt8) : readLE bytes < 256^bytes.length := by
  induction bytes with
  | nil => decide
  | cons byte bytes ih =>
    have small := byte.toNat_lt
    rw [readLE,List.length_cons,Nat.pow_succ]
    omega

theorem field_lt (bytes : List UInt8) (offset size : Nat) : field bytes offset size < 256^size :=
  Nat.lt_of_lt_of_le (readLE_lt _) (Nat.pow_le_pow_right (by decide) (List.length_take_le _ _))

def bodyBlkMaxSize : Nat := 1024

/-- The fields of MOCPS_DATA_RESPONSE_HEADER that the client reads. -/
structure DataHeader where
  cmdId : Nat
  seqId : Nat
  totalLen : Nat
  curBlkIdx : Nat
  curBlkLen : Nat
  deriving DecidableEq,Repr

def dataHeaderSize : Nat := 48

def dataHeader (bytes : List UInt8) : DataHeader where
  cmdId := field bytes 16 4
  seqId := field bytes 20 4
  totalLen := field bytes 24 8
  curBlkIdx := field bytes 32 8
  curBlkLen := field bytes 40 4

def getSum (bytes : List UInt8) : UInt8 := bytes.foldl (· + ·) 0

/-- `strcmp` compares up to and with the end of the mark. -/
def sameMark (bytes mark : List UInt8) : Bool := bytes.take (mark.length+1) == mark ++ [0]

def isRightFormatHeader (bytes : List UInt8) : Bool :=
  sameMark bytes markServer && (CmdId.ofWire (field bytes 16 4)).isSome &&
    getSum (bytes.take 44) == bytes.getD 44 0

def ctrlRequestSize : Nat := 32

/-- moUtils_Check_checkCrc is a stub. -/
def checkCrc (_ : List UInt8) : Int := 0

def requestCmdId (bytes : List UInt8) : Option CmdId := CmdId.ofWire (field bytes 20 4)

def isRightFormatRequest (bytes : List UInt8) : Bool :=
  sameMark bytes markClient && (requestCmdId bytes).isSome && decide (0 ≤ checkCrc (bytes.take 28))

theorem cmdId_bound {n : Nat} (known : (CmdId.ofWire n).isSome = true) : n < 6 := by
  unfold CmdId.ofWire at known
  split at known <;> first | omega | cases known

def findMark (buf mark : List UInt8) : Int :=
  searchBF (bytesOf buf) buf.length (bytesOf mark) mark.length

/-- What a `readn` of `len` bytes gets from the bytes still to come; fewer than asked
for means that the peer has closed. -/
def readn (stream : List UInt8) (len : Nat) : List UInt8 × List UInt8 :=
  (stream.take len,stream.drop len)

theorem readn_shorter {stream : List UInt8} {len : Nat} (room : 0 < len)
    (whole : (readn stream len).1.length = len) : (readn stream len).2.length < stream.length := by
  simp only [readn,List.length_take,List.length_drop] at whole ⊢
  omega

theorem occurs_take {buf mark : List UInt8} {i : Nat} (inside : i+mark.length ≤ buf.length) :
    OccursAt (bytesOf buf) (bytesOf mark) mark.length i ↔ (buf.drop i).take mark.length = mark := by
  unfold OccursAt bytesOf
  constructor
  · intro occurs
    apply List.ext_getElem
    · simp; omega
    · intro k left right
      have same := occurs k right
      rw [List.getD_eq_getElem _ _ (by omega),List.getD_eq_getElem _ _ right] at same
      simpa using same
  · intro same k bound
    have left : k < ((buf.drop i).take mark.length).length := by rw [same]; exact bound
    have here : ((buf.drop i).take mark.length)[k] = mark[k] := by simp only [same]
    rw [List.getD_eq_getElem _ _ (by omega),List.getD_eq_getElem _ _ bound]
    simpa using here

theorem checkLen_mark {buf mark : List UInt8} (nonempty : mark ≠ []) (inside : mark.length ≤ buf.length) :
    checkLen buf.length mark.length = none :=
  checkLen_none.mpr ⟨List.length_pos_iff.mpr nonempty,inside⟩

theorem sameMark_take {bytes mark : List UInt8} (same : sameMark bytes mark = true) :
    bytes.take mark.length = mark ∧ mark.length < bytes.length := by
  have equal : bytes.take (mark.length+1) = mark ++ [0] := by simpa [sameMark] using same
  have length := congrArg List.length equal
  constructor
  · have front := congrArg (List.take mark.length) equal
    rw [List.take_take,Nat.min_eq_left (Nat.le_succ _),List.take_left' rfl] at front
    exact front
  · simp only [List.length_take,List.length_append,List.length_singleton] at length
    omega

section Marks

def MarkAt (bytes mark : List UInt8) (i : Nat) : Prop := (bytes.drop i).take mark.length = mark

variable {bytes mark : List UInt8} {i : Nat}

theorem markAt_inside (nonempty : mark ≠ []) (here : MarkAt bytes mark i) : i+mark.length ≤ bytes.length := by
  have length := congrArg List.length here
  have positive := List.length_pos_iff.mpr nonempty
  simp only [List.length_take,List.length_drop] at length
  omega

theorem markAt_byte (here : MarkAt bytes mark i) {k : Nat} (bound : k < mark.length) :
    bytes[i+k]? = mark[k]? := by
  have same := congrArg (·[k]?) here
  simpa [List.getElem?_take,List.getElem?_drop,bound] using same

theorem markAt_drop (bytes mark : List UInt8) (n i : Nat) : MarkAt (bytes.drop n) mark i ↔ MarkAt bytes mark (n+i) := by
  rw [MarkAt,MarkAt,List.drop_drop]

theorem markAt_take {n : Nat} (inside : i+mark.length ≤ n) : MarkAt (bytes.take n) mark i ↔ MarkAt bytes mark i := by
  rw [MarkAt,MarkAt,List.drop_take,List.take_take,Nat.min_eq_left (by omega)]

theorem markAt_left {rest : List UInt8} (inside : i+mark.length ≤ bytes.length) :
    MarkAt (bytes ++ rest) mark i ↔ MarkAt bytes mark i := by
  rw [← markAt_take inside,List.take_left' rfl]

theorem findMark_at (nonempty : mark ≠ []) (here : MarkAt bytes mark i)
    (before : ∀ r < i, ¬ MarkAt bytes mark r) : findMark bytes mark = toInt i := by
  have inside := markAt_inside nonempty here
  refine searchBF_first (checkLen_mark nonempty (by omega)) ⟨by omega,(occurs_take inside).mpr here,?_⟩
  intro r below occurs
  exact before r below ((occurs_take (by omega)).mp occurs)

theorem findMark_absent (nonempty : mark ≠ []) (room : mark.length ≤ bytes.length)
    (absent : ∀ i, ¬ MarkAt bytes mark i) : findMark bytes mark = errPatNotExist := by
  refine searchBF_absent (checkLen_mark nonempty room) ?_
  intro r bound occurs
  exact absent r ((occurs_take (by omega)).mp occurs)

theorem findMark_front (nonempty : mark ≠ []) (same : sameMark bytes mark = true) :
    findMark bytes mark = 0 := by
  have front : MarkAt bytes mark 0 := (sameMark_take same).1
  exact findMark_at nonempty front (fun r below => absurd below (Nat.not_lt_zero r))

theorem findMark_inside (nonempty : mark ≠ []) (room : mark.length ≤ bytes.length) (small : bytes.length < 2^31) :
    (findMark bytes mark).toNat+mark.length ≤ bytes.length := by
  classical
  by_cases somewhere : ∃ i, MarkAt bytes mark i
  · have here := Nat.find_spec somewhere
    have before : ∀ r < Nat.find somewhere, ¬ MarkAt bytes mark r := fun r => Nat.find_min somewhere
    have inside := markAt_inside nonempty here
    rwa [findMark_at nonempty here before,toInt,if_pos (by omega),Int.toNat_natCast]
  · rw [findMark_absent nonempty room fun i here => somewhere ⟨i,here⟩,show errPatNotExist.toNat = 0 from rfl]
    omega

end Marks

end MoCodes.Cps
