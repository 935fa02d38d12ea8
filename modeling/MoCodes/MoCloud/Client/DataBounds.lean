import MoCodes.Cps.Client.Bounds
import MoCodes.MoCloud.Client.DwldSlots
import MoCodes.MoCloud.Client.HeaderResync
import MoCodes.MoCloud.Client.UnitList

/-! What recvDataThr of cliData.c touches for a header: its buffer of one unit, by the readn of
the body, and the entries of gDwldFileInfo, by saveDataToBuffer and sem_post. The header has
been accepted by its mark and its checksum alone. The readn of moCloudUtils.c is the loop of
moCpsUtils.c. -/
namespace MoCodes.MoCloud.Client.DataBounds
open Lib.Layout Lib.Loop Lib.Transfer Utils.Search RecvData DwldSlots HeaderResync
open MoCodes.Cps.Client (ReadnWrites readnWrites_below readnWrites_all readnWrites_negative)
open MoCodes.Cps.CpsUtils (readn Incoming readn_delivers transfer_returns retOf)

/-- `gDwldFileInfo[fileId]`; `none` is an access that is not in the array. -/
def entry (fileId : Int) : Option FileId :=
  if inside : 0 ≤ fileId ∧ fileId < dwldTaskMaxNum then some ⟨fileId.toNat,by omega⟩ else none

/-- The list of each entry, and how often its semaphore has been posted. -/
structure Entries where
  lists : FileId → UnitList.State
  posts : FileId → Nat

/-- `unfinished`: the search for a node goes on, or goes astray. -/
inductive Saved where
  | outside
  | unfinished
  | dropped (ret : Int)
  | posted (entries : Entries)

/-- saveDataToBuffer on the array, whose every access is to the entry of the header, and the
sem_post behind it. -/
def saveData (entries : Entries) (header : DataHeader) (body : List UInt8) (malloc : Option Nat) (turns : Nat) :
    Saved :=
  match entry header.fileId with
  | none => .outside
  | some fileId =>
    let list := entries.lists fileId
    match UnitList.saveDataToBuffer list.isStopWriteFileThr list.heap list.pDwldUnitListHead header body malloc turns with
    | some (some (ret,heap)) =>
      if ret ≠ 0 then .dropped ret
      else
        match entry header.fileId with
        | none => .outside
        | some fileId =>
          .posted
            { lists := Function.update entries.lists fileId { list with heap := heap }
              posts := Function.update entries.posts fileId (entries.posts fileId+1) }
    | _ => .unfinished

/-- Each byte that is read lies in the buffer, whatever the reads answer; and once the body is
complete, each entry that is used is one of the array. -/
structure AccessesInside (header : DataHeader) : Prop where
  body : ∀ answers i, ReadnWrites answers header.bodyLen i → i < dataUnitLen
  entries : ∀ answers sent held fuel got, readn answers sent header.bodyLen held fuel = some (header.bodyLen,got) →
    ∀ entries body malloc turns, saveData entries header body malloc turns ≠ .outside

section Accesses

variable {header : DataHeader}

theorem entry_isSome (fileId : Int) : (entry fileId).isSome ↔ 0 ≤ fileId ∧ fileId < dwldTaskMaxNum := by
  rw [entry]
  split
  · next inside => simp [inside]
  · next outside => simp [outside]

theorem saveData_inside_iff : (∀ entries body malloc turns, saveData entries header body malloc turns ≠ .outside) ↔
    0 ≤ header.fileId ∧ header.fileId < dwldTaskMaxNum := by
  rw [← entry_isSome]
  constructor
  · intro inside
    by_contra outside
    have none_at : entry header.fileId = none := by simpa using outside
    refine inside ⟨fun _ => UnitList.start 0 ⟨false,false,0,0,[]⟩,fun _ => 0⟩ [] none 0 ?_
    rw [saveData,none_at]
  · intro found entries body malloc turns
    obtain ⟨fileId,here⟩ := Option.isSome_iff_exists.mp found
    rw [saveData,here]
    dsimp only
    split
    · split_ifs
      · exact nofun
      · exact nofun
    · exact nofun

theorem body_inside_iff (n : Nat) :
    (∀ answers i, ReadnWrites answers (n : Int) i → i < dataUnitLen) ↔ n ≤ dataUnitLen := by
  constructor
  · intro inside
    by_contra larger
    exact absurd (inside _ dataUnitLen (readnWrites_all (not_le.mp larger))) (Nat.lt_irrefl _)
  · intro small answers i writes
    exact Nat.lt_of_lt_of_le (readnWrites_below writes) small

theorem readn_not_negative {answers : Nat → Answer} {sent : Bytes} {len : Int} {held got : Incoming} {fuel : Nat}
    (negative : len < 0) : readn answers sent len held fuel ≠ some (len,got) := by
  intro read
  obtain ⟨ended,returns,same⟩ := transfer_returns read
  rw [returns_unique returns (returns_done (body_nothing negative.le held)),retOf,Int.sub_self] at same
  have zero := congrArg Prod.fst same
  omega

theorem readn_whole (n : Nat) : ∃ answers fuel got,
    readn answers (fun _ => 0) n ⟨fun _ => 0,0⟩ fuel = some ((n : Int),got) := by
  have delivers : Delivers (fun _ => .moved (n+1)) n :=
    ⟨1,fun _ _ => .inr (Nat.succ_pos n),by simp [offered,Answer.size]⟩
  obtain ⟨fuel,read⟩ := readn_delivers (fun _ => 0) ⟨fun _ => 0,0⟩ delivers
  exact ⟨_,fuel,_,read⟩

/-- A body is read to the buffer, and its unit goes to the entry, of any size and number. -/
theorem accessesInside_iff (header : DataHeader) : AccessesInside header ↔
    header.bodyLen < 0 ∨
      header.bodyLen ≤ dataUnitLen ∧ 0 ≤ header.fileId ∧ header.fileId < dwldTaskMaxNum := by
  rcases lt_or_ge header.bodyLen 0 with negative | nonneg
  · refine iff_of_true ⟨fun answers i writes => ?_,fun answers sent held fuel got read => ?_⟩ (.inl negative)
    · exact absurd writes (readnWrites_negative negative)
    · exact absurd read (readn_not_negative negative)
  obtain ⟨n,len⟩ := Int.eq_ofNat_of_zero_le nonneg
  have small : n ≤ dataUnitLen ↔ header.bodyLen ≤ dataUnitLen := by
    rw [len]
    exact Int.ofNat_le.symm
  rw [or_iff_right (not_lt.mpr nonneg),← small,← body_inside_iff,← saveData_inside_iff]
  constructor
  · rintro ⟨body,entries⟩
    rw [len] at body entries
    obtain ⟨answers,fuel,got,read⟩ := readn_whole n
    exact ⟨body,entries answers _ _ fuel got read⟩
  · rintro ⟨body,entries⟩
    rw [← len] at body
    exact ⟨body,fun _ _ _ _ _ _ => entries⟩

def headerOf (fileId bodyLen : Int) : List UInt8 :=
  padded 16 markDwld ++ writeInt 4 fileId ++ padded 4 [] ++ writeInt 4 0 ++ writeInt 4 bodyLen ++ padded 4 [0xa]

/-- A file number and a length that the client does not have are accepted as well. -/
theorem accesses_outside :
    (getDataHeader (headerOf 8 1) = .ok (headerOf 8 1) [] ∧ ¬ AccessesInside (parseHeader (headerOf 8 1))) ∧
      getDataHeader (headerOf 3 1025) = .ok (headerOf 3 1025) [] ∧ ¬ AccessesInside (parseHeader (headerOf 3 1025)) := by
  refine ⟨⟨by decide +kernel,fun inside => ?_⟩,by decide +kernel,fun inside => ?_⟩
  · obtain ⟨answers,fuel,got,read⟩ := readn_whole 1
    have entries := saveData_inside_iff.mp (inside.entries answers _ _ fuel got read)
    exact absurd entries (by decide)
  · exact absurd (inside.body _ 1024 (readnWrites_all (Nat.lt_succ_self 1024))) (Nat.lt_irrefl _)

end Accesses

end MoCodes.MoCloud.Client.DataBounds
