import MoCodes.MoCloud.PrintInt

/-! The captures of moFaceRec and the names of their files, fileMgr.cpp. -/
namespace MoCodes.MoFaceRec
open MoCloud

/-- The faces of a capture, which its files do not depend on, are left out. -/
structure CaptFileInfo where
  mWidth : Int32
  mHeight : Int32
  mTimestamp : Int64
  mCameraIp : UInt64
  mCameraName : Text
  deriving DecidableEq

def maxFilenameLen : Nat := 256

/-- `c_str()`, as `%s` prints it. -/
def cString (name : Text) : Text := name.takeWhile fun char => char ≠ 0

theorem cString_plain {name : Text} (plain : 0 ∉ name) : cString name = name :=
  List.takeWhile_eq_self_iff.mpr fun _ among => decide_eq_true fun zero => plain (zero ▸ among)

/-- `snprintf` with CAPT_FILE_FORMAT or YUV_FILE_FORMAT, which differ in the suffix. -/
def formatFilename (suffix : String) (fileInfo : CaptFileInfo) : Text :=
  (printInt fileInfo.mTimestamp.toInt ++ text "_w" ++ printInt fileInfo.mWidth.toInt ++ text "_h" ++
    printInt fileInfo.mHeight.toInt ++ text "_ip" ++ printInt fileInfo.mCameraIp.toNat ++ text "_n" ++
    cString fileInfo.mCameraName ++ text "_capture" ++ text suffix).take (maxFilenameLen-1)

def getCaptFilename : CaptFileInfo → Text := formatFilename ".jpg"

def getYuvFilename : CaptFileInfo → Text := formatFilename ".yuv"

namespace CaptFileInfo

variable (fileInfo cmp : CaptFileInfo)

/-- `operator ==`. -/
def isEqual : Bool := fileInfo.mTimestamp = cmp.mTimestamp && fileInfo.mCameraIp = cmp.mCameraIp

/-- `operator <`. -/
def isLess : Bool := fileInfo.mTimestamp < cmp.mTimestamp

theorem isEqual_comm : fileInfo.isEqual cmp = cmp.isEqual fileInfo := by
  simp [isEqual,eq_comm]

variable {fileInfo cmp}

theorem isEqual_trans {other : CaptFileInfo} (first : fileInfo.isEqual cmp) (second : cmp.isEqual other) :
    fileInfo.isEqual other := by
  simp only [isEqual,Bool.and_eq_true,decide_eq_true_eq] at first second ⊢
  exact ⟨first.1.trans second.1,first.2.trans second.2⟩

end CaptFileInfo

section Names

theorem append_cons_inj {α : Type} {front front' rest rest' : List α} {stop : α} (absent : stop ∉ front)
    (absent' : stop ∉ front') (same : front ++ stop :: rest = front' ++ stop :: rest') :
    front = front' ∧ rest = rest' := by
  induction front generalizing front' with
  | nil =>
    cases front' with
    | nil => exact ⟨rfl,(List.cons.inj same).2⟩
    | cons first front' => exact absurd (List.cons.inj same).1 fun equal => absent' (equal ▸ List.mem_cons_self)
  | cons first front ih =>
    cases front' with
    | nil => exact absurd (List.cons.inj same).1 fun equal => absent (equal ▸ List.mem_cons_self)
    | cons first' front' =>
      rw [List.cons_append,List.cons_append] at same
      obtain ⟨rfl,later⟩ := List.cons.inj same
      obtain ⟨rfl,rest⟩ := ih (fun member => absent (List.mem_cons_of_mem _ member))
        (fun member => absent' (List.mem_cons_of_mem _ member)) later
      exact ⟨rfl,rest⟩

/-- What has been printed ends at the first `_`. -/
theorem printInt_append_inj {value value' : Int} {rest rest' : Text}
    (same : printInt value ++ 95 :: rest = printInt value' ++ 95 :: rest') : value = value' ∧ rest = rest' := by
  have plain : ∀ value, (95 : UInt8) ∉ printInt value := by
    intro value member
    rcases printInt_chars member with minus | ⟨_,most⟩
    · exact absurd minus (by decide)
    · exact absurd most (by decide)
  obtain ⟨printed,rest⟩ := append_cons_inj (plain value) (plain value') same
  exact ⟨printInt_injective printed,rest⟩

/-- The part of a file name before the name of the camera, which is never cut off. -/
theorem formatFilename_eq (suffix : String) (fileInfo : CaptFileInfo) :
    ∃ rest, formatFilename suffix fileInfo = printInt fileInfo.mTimestamp.toInt ++ 95 :: 119 ::
      (printInt fileInfo.mWidth.toInt ++ 95 :: 104 :: (printInt fileInfo.mHeight.toInt ++ 95 :: 105 :: 112 ::
        (printInt fileInfo.mCameraIp.toNat ++ 95 :: 110 :: rest))) := by
  have times : (printInt fileInfo.mTimestamp.toInt).length ≤ 20 := by
    apply printInt_length_le (by decide)
    have low := fileInfo.mTimestamp.le_toInt
    have high := fileInfo.mTimestamp.toInt_lt
    omega
  have widths : (printInt fileInfo.mWidth.toInt).length ≤ 11 := by
    apply printInt_length_le (by decide)
    have low := fileInfo.mWidth.le_toInt
    have high := fileInfo.mWidth.toInt_lt
    omega
  have heights : (printInt fileInfo.mHeight.toInt).length ≤ 11 := by
    apply printInt_length_le (by decide)
    have low := fileInfo.mHeight.le_toInt
    have high := fileInfo.mHeight.toInt_lt
    omega
  have addresses : (printInt fileInfo.mCameraIp.toNat).length ≤ 21 := by
    apply printInt_length_le (by decide)
    have high := fileInfo.mCameraIp.toNat_lt
    omega
  have kept : ∀ front rest : Text, front.length ≤ 72 → (front ++ rest).take (maxFilenameLen-1) =
      front ++ rest.take (maxFilenameLen-1-front.length) := by
    intro front rest short
    rw [List.take_append,List.take_of_length_le (by simp only [maxFilenameLen]; omega)]
  rw [formatFilename,List.append_assoc _ (text "_capture"),List.append_assoc _ (cString _),kept _ _ ?_]
  · exact ⟨_,by simp only [List.append_assoc]; rfl⟩
  · simp only [List.length_append]
    have marks : (text "_w").length + (text "_h").length + (text "_ip").length + (text "_n").length = 9 := rfl
    omega

/-- Captures of different times, sizes or addresses never have one file. -/
theorem formatFilename_inj {suffix suffix' : String} {fileInfo cmp : CaptFileInfo}
    (same : formatFilename suffix fileInfo = formatFilename suffix' cmp) :
    fileInfo.mTimestamp = cmp.mTimestamp ∧ fileInfo.mWidth = cmp.mWidth ∧ fileInfo.mHeight = cmp.mHeight ∧
      fileInfo.mCameraIp = cmp.mCameraIp := by
  obtain ⟨rest,printed⟩ := formatFilename_eq suffix fileInfo
  obtain ⟨rest',printed'⟩ := formatFilename_eq suffix' cmp
  rw [printed,printed'] at same
  obtain ⟨times,same⟩ := printInt_append_inj same
  obtain ⟨widths,same⟩ := printInt_append_inj (List.cons.inj same).2
  obtain ⟨heights,same⟩ := printInt_append_inj (List.cons.inj same).2
  obtain ⟨addresses,_⟩ := printInt_append_inj (List.cons.inj (List.cons.inj same).2).2
  exact ⟨Int64.toInt.inj times,Int32.toInt.inj widths,Int32.toInt.inj heights,
    UInt64.toNat.inj (Int.ofNat.inj addresses)⟩

end Names

-- Nothing but the theorem above is used of the names.
attribute [irreducible] formatFilename

end MoCodes.MoFaceRec
