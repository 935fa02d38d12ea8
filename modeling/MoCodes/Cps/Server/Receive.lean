import MoCodes.Cps.Proto
import Mathlib.Data.Nat.Find

/-! How the server takes a request from the bytes of a control socket: a window of the size
of a request, the mark inside it, and as many bytes more as there are before the mark. -/
namespace MoCodes.Cps.Server
open MoCodes.Utils.Search

inductive RecvErr where
  | readn | decrypt | noMark | readnLeft | decryptLeft
  deriving DecidableEq,Repr

/-- A window of one request; where the mark is behind its front, the bytes before the
mark are dropped and as many more are read. -/
def recvRequest (decrypt : List UInt8 → Option (List UInt8)) (stream : List UInt8) :
    Except RecvErr (List UInt8) × List UInt8 :=
  let got := (readn stream ctrlRequestSize).1
  let stream := (readn stream ctrlRequestSize).2
  if got.length ≠ ctrlRequestSize then (.error .readn,stream)
  else match decrypt got with
    | none => (.error .decrypt,stream)
    | some recvBuf =>
      let ret := findMark recvBuf markClient
      if ret < 0 then (.error .noMark,stream)
      else if ret = 0 then (.ok recvBuf,stream)
      else
        let left := (readn stream ret.toNat).1
        let stream := (readn stream ret.toNat).2
        if left.length ≠ ret.toNat then (.error .readnLeft,stream)
        else match decrypt left with
          | none => (.error .decryptLeft,stream)
          | some left => (.ok (recvBuf.drop ret.toNat ++ left),stream)

variable {decrypt : List UInt8 → Option (List UInt8)} {stream : List UInt8}

theorem recvRequest_short (short : stream.length < ctrlRequestSize) :
    recvRequest decrypt stream = (.error .readn,[]) := by
  have size : (readn stream ctrlRequestSize).1.length ≠ ctrlRequestSize := by
    rw [readn,List.length_take]
    omega
  simp only [recvRequest]
  rw [if_pos size,readn,List.drop_of_length_le (by omega)]

theorem readn_full {n : Nat} (full : n ≤ stream.length) : (readn stream n).1.length = n := by
  rw [readn,List.length_take]
  omega

theorem take_left {i n : Nat} (inside : i ≤ n) :
    (stream.drop i).take (n-i) ++ (stream.drop n).take i = (stream.drop i).take n := by
  have whole : n = n-i+i := by omega
  have behind : stream.drop n = (stream.drop i).drop (n-i) := by
    rw [List.drop_drop]
    congr 1
    omega
  rw [behind,← List.take_add,← whole]

theorem recvRequest_lost (copy : ∀ bytes, decrypt bytes = some bytes)
    (full : ctrlRequestSize ≤ stream.length)
    (lost : ∀ i, i+markClient.length ≤ ctrlRequestSize → ¬ MarkAt stream markClient i) :
    recvRequest decrypt stream = (.error .noMark,stream.drop ctrlRequestSize) := by
  have size := readn_full full
  have nowhere : findMark (readn stream ctrlRequestSize).1 markClient = errPatNotExist := by
    apply findMark_absent (by decide) (by rw [size]; decide)
    intro i here
    have inside := markAt_inside (by decide) here
    rw [size] at inside
    exact lost i inside ((markAt_take inside).mp here)
  simp only [recvRequest]
  rw [if_neg (not_not.mpr size),copy]
  simp only
  rw [nowhere,if_pos (by decide)]
  rfl

structure FirstMark (stream : List UInt8) (i : Nat) : Prop where
  inside : i+markClient.length ≤ ctrlRequestSize
  here : MarkAt stream markClient i
  first : ∀ r < i, ¬ MarkAt stream markClient r

/-- The window shows a mark, and all bytes of the request that starts with it come. -/
def StartsRequest (stream bytes : List UInt8) : Prop :=
  ∃ i, FirstMark stream i ∧ i+ctrlRequestSize ≤ stream.length ∧
    bytes = (stream.drop i).take ctrlRequestSize

theorem firstMark_window {i : Nat} (mark : FirstMark stream i) :
    findMark (readn stream ctrlRequestSize).1 markClient = i := by
  have bound : i ≤ ctrlRequestSize := Nat.le_trans (Nat.le_add_right _ _) mark.inside
  have small : i < 2^31 := Nat.lt_of_le_of_lt bound (by decide)
  rw [readn,findMark_at (by decide) ((markAt_take mark.inside).mpr mark.here),toInt,if_pos small]
  intro r below there
  have inside := mark.inside
  exact mark.first r below ((markAt_take (by omega)).mp there)

theorem recvRequest_found (copy : ∀ bytes, decrypt bytes = some bytes) {i : Nat}
    (full : i+ctrlRequestSize ≤ stream.length) (mark : FirstMark stream i) :
    recvRequest decrypt stream =
      (.ok ((stream.drop i).take ctrlRequestSize),stream.drop (i+ctrlRequestSize)) := by
  have window : ctrlRequestSize ≤ stream.length := by omega
  have bound : i ≤ ctrlRequestSize := Nat.le_trans (Nat.le_add_right _ _) mark.inside
  simp only [recvRequest]
  rw [if_neg (not_not.mpr (readn_full window)),copy]
  simp only
  rw [firstMark_window mark,if_neg (by omega)]
  by_cases front : i = 0
  · rw [if_pos (by omega),front,Nat.zero_add]
    rfl
  · have left : (readn (readn stream ctrlRequestSize).2 (i : Int).toNat).1.length = (i : Int).toNat := by
      apply readn_full
      rw [readn,List.length_drop]
      omega
    rw [if_neg (by omega),if_neg (not_not.mpr left),copy]
    simp only [readn,Int.toNat_natCast,List.drop_drop]
    rw [List.drop_take,take_left bound,Nat.add_comm]

theorem recvRequest_left (copy : ∀ bytes, decrypt bytes = some bytes) {i : Nat}
    (window : ctrlRequestSize ≤ stream.length) (short : stream.length < i+ctrlRequestSize)
    (mark : FirstMark stream i) : ∃ rest, recvRequest decrypt stream = (.error .readnLeft,rest) := by
  have left : (readn (readn stream ctrlRequestSize).2 (i : Int).toNat).1.length ≠ (i : Int).toNat := by
    simp only [readn,List.length_take,List.length_drop]
    omega
  simp only [recvRequest]
  rw [if_neg (not_not.mpr (readn_full window)),copy]
  simp only
  rw [firstMark_window mark,if_neg (by omega),if_neg (by omega),if_pos left]
  exact ⟨_,rfl⟩

theorem recvRequest_cases (copy : ∀ bytes, decrypt bytes = some bytes) (stream : List UInt8) :
    (∃ bytes rest, StartsRequest stream bytes ∧ recvRequest decrypt stream = (.ok bytes,rest)) ∨
      ∃ err rest, recvRequest decrypt stream = (.error err,rest) := by
  by_cases window : ctrlRequestSize ≤ stream.length
  · by_cases marked : ∃ i, i+markClient.length ≤ ctrlRequestSize ∧ MarkAt stream markClient i
    · classical
      have inside := (Nat.find_spec marked).1
      have mark : FirstMark stream (Nat.find marked) := by
        refine ⟨inside,(Nat.find_spec marked).2,fun r below there => ?_⟩
        exact Nat.find_min marked below ⟨by omega,there⟩
      by_cases full : Nat.find marked+ctrlRequestSize ≤ stream.length
      · exact .inl ⟨_,_,⟨_,mark,full,rfl⟩,recvRequest_found copy full mark⟩
      · obtain ⟨rest,failed⟩ := recvRequest_left copy window (Nat.lt_of_not_le full) mark
        exact .inr ⟨_,rest,failed⟩
    · refine .inr ⟨_,_,recvRequest_lost copy window ?_⟩
      intro i inside here
      exact marked ⟨i,inside,here⟩
  · exact .inr ⟨_,_,recvRequest_short (by omega)⟩

end MoCodes.Cps.Server
