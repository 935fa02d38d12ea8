import MoCodes.MoCloud.Proto
import Mathlib.Logic.Function.Basic

/-! The slots of cliData.c, and a call of cliDataStartDwld with the mutexes it takes. -/
namespace MoCodes.MoCloud.Client.DwldSlots

abbrev FileId := Fin dwldTaskMaxNum

def firstId : FileId := ⟨0,by decide⟩

def dirpathMaxLen : Nat := 256

def filepathMaxLen : Nat := dirpathMaxLen+filenameMaxLen

/-- DWLD_FILE_INFO; `locked` tells that writeFileThrMutex has been left locked. -/
structure DwldFileInfo where
  isUsing : Bool := false
  fileKey : FileinfoKey := ⟨0,[]⟩
  fileLength : Nat := 0
  localFilepath : Text := []
  fd : Option Nat := none
  pProgressNotifyFunc : Bool := false
  writeFileThrId : Option Nat := none
  isStopWriteFileThr : Bool := false
  locked : Bool := false

abbrev Slots := FileId → DwldFileInfo

/-- What the system answers. -/
structure World where
  access : Text → Int
  fopen : Text → Text → Option Nat
  pthreadCreate : Int
  thread : Nat

/-- A call that comes to a mutex that is left locked waits for ever. -/
inductive Outcome where
  | waits (slots : Slots)
  | returns (ret : Int) (pFileId : Option FileId) (slots : Slots)

def Outcome.slots : Outcome → Slots
  | .waits slots => slots
  | .returns _ _ slots => slots

section Call

variable (slots : Slots) (fileId : FileId) (world : World)

def set (info : DwldFileInfo) : Slots := Function.update slots fileId info

def lock (next : Slots → Outcome) : Outcome :=
  if (slots fileId).locked then .waits slots else next (set slots fileId { slots fileId with locked := true })

def unlock : Slots := set slots fileId { slots fileId with locked := false }

/-- The loop of cliDataStartDwld over the slots that are left. -/
def findUnused (slots : Slots) : List FileId → (Slots → Option FileId → Outcome) → Outcome
  | [],next => next slots none
  | i :: rest,next =>
    lock slots i fun slots =>
      if !(slots i).isUsing then next (unlock (set slots i { slots i with isUsing := true }) i) (some i)
      else findUnused slots rest next

/-- The code, and `writeFileThrId`; the errors of pthread_create are positive. -/
def startWriteFileThr (info : DwldFileInfo) : Int × DwldFileInfo :=
  (if world.pthreadCreate < 0 then -1 else 0,{ info with writeFileThrId := some world.thread })

/-- A file that is still open in the slot is closed first. -/
def insertFileDwldTask (key : FileinfoKey) (filesize : Nat) (pLocalFilepath : Text) (next : Int → Slots → Outcome) :
    Outcome :=
  lock slots fileId fun slots =>
    let mode := if world.access pLocalFilepath < 0 then text "wb+" else text "rb+"
    match world.fopen pLocalFilepath mode with
    | none => next (-2) (unlock (set slots fileId { slots fileId with fd := none }) fileId)
    | some fd =>
      let (ret,info) := startWriteFileThr world { slots fileId with fd := some fd, isStopWriteFileThr := false }
      if ret < 0 then next (-3) (unlock (set slots fileId { info with fd := none }) fileId)
      else
        let info :=
          { info with
            fileKey := key
            fileLength := filesize
            localFilepath := pLocalFilepath.take (filepathMaxLen-1) }
        next 0 (unlock (set slots fileId info) fileId)

def isDwlding (key : FileinfoKey) : Bool :=
  (List.finRange dwldTaskMaxNum).any fun i => (slots i).isUsing && (slots i).fileKey == key

def cliDataStartDwld (key : FileinfoKey) (filesize : Nat) (pLocalFilepath : Option Text) (pProgressNotifyFunc : Bool) :
    Outcome :=
  match pLocalFilepath with
  | none => .returns (-1) none slots
  | some pLocalFilepath =>
    if isDwlding slots key then .returns (-2) none slots
    else
      findUnused slots (List.finRange dwldTaskMaxNum) fun slots found =>
        match found with
        | none => .returns (-3) none slots
        | some fileId =>
          insertFileDwldTask slots fileId world key filesize pLocalFilepath fun ret slots =>
            if ret < 0 then
              lock slots fileId fun slots =>
                .returns (-3) none (unlock (set slots fileId { slots fileId with isUsing := false }) fileId)
            else .returns 0 (some fileId) (set slots fileId { slots fileId with pProgressNotifyFunc := pProgressNotifyFunc })

end Call

section Locks

variable {slots : Slots} {fileId : FileId} {world : World}

def locks (slots : Slots) (i : FileId) : Bool := (slots i).locked

theorem locks_set (info : DwldFileInfo) : locks (set slots fileId info) = Function.update (locks slots) fileId info.locked := by
  funext i
  by_cases here : i = fileId
  · subst here
    rw [locks,set,Function.update_self,Function.update_self]
  · rw [locks,set,Function.update_of_ne here,Function.update_of_ne here,locks]

theorem locks_unlock : locks (unlock slots fileId) = Function.update (locks slots) fileId false := locks_set _

theorem locks_same {info : DwldFileInfo} (same : info.locked = (slots fileId).locked) :
    locks (set slots fileId info) = locks slots := by
  rw [locks_set,same]
  exact Function.update_eq_self fileId (locks slots)

/-- What is done to one slot between taking its mutex and letting it go. -/
theorem section_locks {info : DwldFileInfo} (free : (slots fileId).locked = false) :
    locks (unlock (set (set slots fileId { slots fileId with locked := true }) fileId info) fileId) = locks slots := by
  rw [locks_unlock,locks_set,locks_set,Function.update_idem,Function.update_idem]
  exact (congrArg (Function.update (locks slots) fileId) free.symm).trans (Function.update_eq_self fileId (locks slots))

variable {P : (FileId → Bool) → Prop}

theorem lock_keeps {next : Slots → Outcome} (stays : P (locks slots))
    (goes : (slots fileId).locked = false → P (locks (next (set slots fileId { slots fileId with locked := true })).slots)) :
    P (locks (lock slots fileId next).slots) := by
  rw [lock]
  split_ifs with held
  · exact stays
  · exact goes (Bool.eq_false_iff.mpr held)

theorem insertFileDwldTask_keeps {key : FileinfoKey} {filesize : Nat} {pLocalFilepath : Text}
    {next : Int → Slots → Outcome} (stays : P (locks slots))
    (goes : ∀ ret later, locks later = locks slots → P (locks (next ret later).slots)) :
    P (locks (insertFileDwldTask slots fileId world key filesize pLocalFilepath next).slots) := by
  refine lock_keeps stays fun free => ?_
  dsimp only
  split
  · exact goes _ _ (section_locks free)
  · split_ifs
    · exact goes _ _ (section_locks free)
    · exact goes _ _ (section_locks free)

/-- Behind the loop every mutex that is taken is let go. -/
theorem start_keeps {key : FileinfoKey} {filesize : Nat} {pLocalFilepath : Text} {pProgressNotifyFunc : Bool}
    (stays : P (locks slots)) :
    P (locks (insertFileDwldTask slots fileId world key filesize pLocalFilepath fun ret slots =>
      if ret < 0 then
        lock slots fileId fun slots =>
          .returns (-3) none (unlock (set slots fileId { slots fileId with isUsing := false }) fileId)
      else .returns 0 (some fileId) (set slots fileId { slots fileId with pProgressNotifyFunc := pProgressNotifyFunc })).slots) := by
  refine insertFileDwldTask_keeps stays fun ret later same => ?_
  rw [← same] at stays
  split_ifs
  · refine lock_keeps stays fun free => ?_
    rw [Outcome.slots,section_locks free]
    exact stays
  · rw [Outcome.slots,locks_same]
    · exact stays
    · rfl

/-- A mutex that is left locked stays so. -/
theorem findUnused_held {rest : List FileId} {next : Slots → Option FileId → Outcome} {i : FileId}
    (held : locks slots i = true) (goes : ∀ later found, locks later i = true → locks (next later found).slots i = true) :
    locks (findUnused slots rest next).slots i = true := by
  induction rest generalizing slots with
  | nil => exact goes slots none held
  | cons first rest ih =>
    rw [findUnused]
    refine lock_keeps (P := fun locks => locks i = true) held fun free => ?_
    have other : i ≠ first := by
      rintro rfl
      exact absurd held (Bool.eq_false_iff.mp free)
    have still : locks (set slots first { slots first with locked := true }) i = true := by
      rw [locks_set,Function.update_of_ne other,held]
    split_ifs
    · refine goes _ _ ?_
      rw [section_locks free]
      exact held
    · exact ih still

end Locks

section Release

variable (slots : Slots) (world : World) (key : FileinfoKey) (filesize : Nat) (pLocalFilepath : Option Text)
  (pProgressNotifyFunc : Bool)

/-- The call is over, or waits for ever, with no mutex locked that it has taken. -/
def Releases : Prop := locks (cliDataStartDwld slots world key filesize pLocalFilepath pProgressNotifyFunc).slots = locks slots

/-- The loop leaves a slot in use with its mutex locked, so the first slot has to be free, unless
the call comes to an end before it or waits there. -/
theorem cliDataStartDwld_releases_iff : Releases slots world key filesize pLocalFilepath pProgressNotifyFunc ↔
    pLocalFilepath = none ∨ isDwlding slots key = true ∨ (slots firstId).isUsing = false ∨ (slots firstId).locked = true := by
  have first : List.finRange dwldTaskMaxNum = firstId :: (List.finRange dwldTaskMaxNum).tail := rfl
  unfold Releases cliDataStartDwld
  cases pLocalFilepath with
  | none => exact iff_of_true rfl (Or.inl rfl)
  | some pLocalFilepath =>
    dsimp only
    by_cases dwlding : isDwlding slots key = true
    · rw [if_pos dwlding]
      exact iff_of_true rfl (Or.inr (Or.inl dwlding))
    rw [if_neg dwlding,first,findUnused]
    by_cases held : (slots firstId).locked = true
    · rw [lock,if_pos held]
      exact iff_of_true rfl (Or.inr (Or.inr (Or.inr held)))
    have free : (slots firstId).locked = false := Bool.eq_false_iff.mpr held
    have taken : set slots firstId { slots firstId with locked := true } firstId = { slots firstId with locked := true } := Function.update_self ..
    rw [lock,if_neg held]
    dsimp only
    rw [taken]
    by_cases using_ : (slots firstId).isUsing = true
    · have left : locks (set slots firstId { slots firstId with locked := true }) firstId = true := by
        rw [locks_set,Function.update_self]
      rw [if_neg (by simp [using_])]
      refine iff_of_false (fun same => ?_) (by simp [dwlding,using_,free])
      refine held ((congrFun same firstId).symm.trans ?_)
      refine findUnused_held left fun later found kept => ?_
      cases found with
      | none => exact kept
      | some fileId => exact start_keeps (P := fun locks => locks firstId = true) kept
    · have unused : (slots firstId).isUsing = false := Bool.eq_false_iff.mpr using_
      rw [if_pos (by simp [unused])]
      refine iff_of_true ?_ (Or.inr (Or.inr (Or.inl unused)))
      exact start_keeps (P := fun after => after = locks slots) (section_locks free)

end Release

def accepting : World := ⟨fun _ => 0,fun _ _ => some 3,0,7⟩

def firstInUse : Slots := set (fun _ => {}) firstId { isUsing := true, fileKey := ⟨filetypeVideo,text "a"⟩ }

/-- The second of two downloads leaves the mutex of the first one locked. -/
theorem second_start_locks :
    (cliDataStartDwld firstInUse accepting ⟨filetypeVideo,text "b"⟩ 5 (some (text "b")) true).slots firstId =
        { firstInUse firstId with locked := true } ∧
      ¬ Releases firstInUse accepting ⟨filetypeVideo,text "b"⟩ 5 (some (text "b")) true := by
  refine ⟨rfl,fun released => ?_⟩
  have left := congrFun released firstId
  exact absurd left (by decide)

end MoCodes.MoCloud.Client.DwldSlots
