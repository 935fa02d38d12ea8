import MoCodes.Lib.Transition
import MoCodes.MoCloud.Client.DwldSlots

/-! The slots of cliData.c as they go from one download to another, while any number of callers
are in cliDataStartDwld and cliDataStopDwld and the write threads run. Downloads are numbered as
they are given their slots; a file and a thread are those of their download. -/
namespace MoCodes.MoCloud.Client.SlotReuse
open Lib.Transition DwldSlots

/-- Where a write thread stands; at `eof` it has taken the unit that tells the end of file, and
at `told` it is in setDwldProgress. -/
inductive Writer where
  | wait | look | handle | eof | told | leave | exited
  deriving DecidableEq

/-- Where a call of cliDataStopDwld stands that has found the slot in use. -/
inductive StopPlace where
  | thread | halt | post | join
  | joining (writeFileThrId : Option Nat)
  | reset | close | release
  deriving DecidableEq

/-- `download` is the one that had the slot when the call found it in use. -/
structure Stop where
  fileId : FileId
  download : Nat
  place : StopPlace
  deriving DecidableEq

/-- Where a caller stands. -/
inductive Call where
  | search (i : Nat)
  | insert (fileId : FileId) (download : Nat)
  | undo (fileId : FileId) (download : Nat)
  | stop (stop : Stop)
  deriving DecidableEq

/-- `download` is the last one that was given the slot. -/
structure Slot where
  isUsing : Bool := false
  isStopWriteFileThr : Bool := false
  fd : Option Nat := none
  writeFileThrId : Option Nat := none
  writeFileThrsem : Nat := 0
  locked : Bool := false
  download : Option Nat := none

/-- There is no `writer` before the thread is made; `stop` is the cliDataStopDwld that the thread
itself is in. -/
structure Download where
  fileId : FileId := firstId
  writer : Option Writer := none
  stop : Option StopPlace := none
  isEof : Bool := false
  joined : Bool := false
  closed : Bool := false

variable {n : Nat}

structure State (n : Nat) where
  slots : FileId → Slot
  calls : Fin n → Option Call
  downloads : Nat → Download
  given : Nat

inductive Event (n : Nat) where
  | cliDataStartDwld (caller : Fin n)
  | search (caller : Fin n)
  | insertFileDwldTask (caller : Fin n) (opened : Bool)
  | undo (caller : Fin n)
  | cliDataStopDwld (caller : Fin n) (fileId : FileId)
  | stop (caller : Fin n)
  /-- the unit at the end of the buffer tells whether the file ends -/
  | writeFileThr (thread : Nat) (curInfo : Option Bool)
  | stopAtEof (thread : Nat)
  | ownStop (thread : Nat)
  | semPost (fileId : FileId)

namespace State

variable (state : State n)

def setSlot (fileId : FileId) (slot : Slot) : State n :=
  { state with slots := Function.update state.slots fileId slot }

def setCall (caller : Fin n) (call : Option Call) : State n :=
  { state with calls := Function.update state.calls caller call }

def setDownload (number : Nat) (download : Download) : State n :=
  { state with downloads := Function.update state.downloads number download }

/-- The mutex of a slot in use is left locked. -/
def search (caller : Fin n) (i : Nat) : State n :=
  if inside : i < dwldTaskMaxNum then
    let fileId : FileId := ⟨i,inside⟩
    let slot := state.slots fileId
    if slot.isUsing then (state.setSlot fileId { slot with locked := true }).setCall caller (some (.search (i+1)))
    else
      { ((state.setSlot fileId { slot with isUsing := true, download := some state.given }).setCall caller
          (some (.insert fileId state.given))).setDownload state.given { fileId := fileId } with
        given := state.given+1 }
  else state.setCall caller none

/-- `fclose` of what the slot has open. -/
def close (fileId : FileId) : State n :=
  let slot := state.slots fileId
  match slot.fd with
  | none => state
  | some number =>
    (state.setSlot fileId { slot with fd := none }).setDownload number { state.downloads number with closed := true }

def insertFileDwldTask (caller : Fin n) (fileId : FileId) (number : Nat) (opened : Bool) : State n :=
  let closed := state.close fileId
  if opened then
    let slot := { closed.slots fileId with
      fd := some number, isStopWriteFileThr := false, writeFileThrId := some number }
    ((closed.setSlot fileId slot).setDownload number { closed.downloads number with writer := some .wait }).setCall
      caller none
  else closed.setCall caller (some (.undo fileId number))

/-- The next step of a cliDataStopDwld that `self` has called, if that is a write thread. -/
def stopStep (self : Option Nat) (fileId : FileId) : StopPlace → State n × Option StopPlace
  | .thread => (state,some (if (state.slots fileId).writeFileThrId = none then .release else .halt))
  | .halt => (state.setSlot fileId { state.slots fileId with isStopWriteFileThr := true },some .post)
  | .post =>
    let slot := state.slots fileId
    (state.setSlot fileId { slot with writeFileThrsem := slot.writeFileThrsem+1 },some .join)
  | .join => (state,some (.joining (state.slots fileId).writeFileThrId))
  | .joining none => (state,some .reset)
  | .joining (some thread) =>
    -- a thread cannot join itself
    if self = some thread then (state,some .reset)
    else (state.setDownload thread { state.downloads thread with joined := true },some .reset)
  | .reset => (state.setSlot fileId { state.slots fileId with writeFileThrId := none },some .close)
  | .close => (state.close fileId,some .release)
  | .release => (state.setSlot fileId { state.slots fileId with isUsing := false },none)

def setWriter (thread : Nat) (writer : Writer) : State n :=
  state.setDownload thread { state.downloads thread with writer := some writer }

def writeFileThr (thread : Nat) (curInfo : Option Bool) : Writer → State n
  | .wait =>
    let fileId := (state.downloads thread).fileId
    let slot := state.slots fileId
    (state.setSlot fileId { slot with writeFileThrsem := slot.writeFileThrsem-1 }).setWriter thread .look
  | .look =>
    let fileId := (state.downloads thread).fileId
    let slot := state.slots fileId
    if slot.isStopWriteFileThr then (state.setSlot fileId { slot with isUsing := false }).setWriter thread .leave
    else
      match curInfo with
      | none => state
      | some false => state.setWriter thread .handle
      | some true => state.setDownload thread { state.downloads thread with writer := some .eof, isEof := true }
  | .handle => state.setWriter thread .look
  | .eof =>
    let fileId := (state.downloads thread).fileId
    (state.setSlot fileId { state.slots fileId with isStopWriteFileThr := true }).setWriter thread .told
  | .told => state.setWriter thread .look
  | .leave =>
    let fileId := (state.downloads thread).fileId
    (state.setSlot fileId { state.slots fileId with isUsing := false }).setWriter thread .exited
  | .exited => state

def next : Event n → State n
  | .cliDataStartDwld caller => state.setCall caller (some (.search 0))
  | .search caller =>
    match state.calls caller with
    | some (.search i) => state.search caller i
    | _ => state
  | .insertFileDwldTask caller opened =>
    match state.calls caller with
    | some (.insert fileId number) => state.insertFileDwldTask caller fileId number opened
    | _ => state
  | .undo caller =>
    match state.calls caller with
    | some (.undo fileId _) =>
      (state.setSlot fileId { state.slots fileId with isUsing := false }).setCall caller none
    | _ => state
  | .cliDataStopDwld caller fileId =>
    match (state.slots fileId).isUsing,(state.slots fileId).download with
    | true,some number => state.setCall caller (some (.stop ⟨fileId,number,.thread⟩))
    | _,_ => state
  | .stop caller =>
    match state.calls caller with
    | some (.stop stop) =>
      let (after,place) := state.stopStep none stop.fileId stop.place
      after.setCall caller (place.map fun place => .stop { stop with place := place })
    | _ => state
  | .writeFileThr thread curInfo =>
    match (state.downloads thread).writer with
    | some writer => state.writeFileThr thread curInfo writer
    | none => state
  | .stopAtEof thread =>
    let download := state.downloads thread
    if (state.slots download.fileId).isUsing then state.setDownload thread { download with stop := some .thread }
    else state
  | .ownStop thread =>
    match (state.downloads thread).stop with
    | some place =>
      let (after,place) := state.stopStep (some thread) (state.downloads thread).fileId place
      after.setDownload thread { after.downloads thread with stop := place }
    | none => state
  | .semPost fileId =>
    let slot := state.slots fileId
    state.setSlot fileId { slot with writeFileThrsem := slot.writeFileThrsem+1 }

/-- The mutex of the slot can be had. -/
def Free (fileId : FileId) : Prop := (state.slots fileId).locked = false

instance (fileId : FileId) : Decidable (state.Free fileId) := inferInstanceAs (Decidable (_ = _))

def CanStop (self : Option Nat) (fileId : FileId) : StopPlace → Prop
  | .joining (some thread) => self = some thread ∨ (state.downloads thread).writer = some .exited
  | .release => state.Free fileId
  | _ => True

instance (self : Option Nat) (fileId : FileId) (place : StopPlace) : Decidable (state.CanStop self fileId place) := by
  unfold CanStop
  split <;> infer_instance

def CanWrite (thread : Nat) : Writer → Prop
  | .wait => 0 < (state.slots (state.downloads thread).fileId).writeFileThrsem
  | .look => state.Free (state.downloads thread).fileId
  | .leave => state.Free (state.downloads thread).fileId
  | .told => (state.downloads thread).stop = none
  | .exited => False
  | _ => True

instance (thread : Nat) (writer : Writer) : Decidable (state.CanWrite thread writer) := by
  unfold CanWrite
  split <;> infer_instance

/-- The call can take the step. -/
def CanGo : Event n → Call → Prop
  | .search _,.search i => ∀ fileId : FileId, fileId.val = i → state.Free fileId
  | .insertFileDwldTask _ _,.insert fileId _ => state.Free fileId
  | .undo _,.undo fileId _ => state.Free fileId
  | .stop _,.stop other => state.CanStop none other.fileId other.place
  | _,_ => False

instance (event : Event n) (call : Call) : Decidable (state.CanGo event call) := by
  unfold CanGo
  split <;> infer_instance

def Enabled : Event n → Prop
  | .cliDataStartDwld caller => state.calls caller = none
  | .search caller => ∃ call ∈ state.calls caller, state.CanGo (.search caller) call
  | .insertFileDwldTask caller opened => ∃ call ∈ state.calls caller, state.CanGo (.insertFileDwldTask caller opened) call
  | .undo caller => ∃ call ∈ state.calls caller, state.CanGo (.undo caller) call
  | .cliDataStopDwld caller _ => state.calls caller = none
  | .stop caller => ∃ call ∈ state.calls caller, state.CanGo (.stop caller) call
  | .writeFileThr thread _ => ∃ writer ∈ (state.downloads thread).writer, state.CanWrite thread writer
  | .stopAtEof thread => (state.downloads thread).writer = some .told ∧ (state.downloads thread).stop = none
  | .ownStop thread => ∃ place ∈ (state.downloads thread).stop,
      state.CanStop (some thread) (state.downloads thread).fileId place
  | .semPost _ => True

instance (event : Event n) : Decidable (state.Enabled event) := by
  cases event <;> unfold Enabled <;> infer_instance

end State

def system (n : Nat) : System (State n) (Event n) := ⟨State.Enabled,State.next⟩

instance (state : State n) (event : Event n) : Decidable ((system n).Enabled state event) :=
  inferInstanceAs (Decidable (state.Enabled event))

def start (n : Nat) : State n where
  slots := fun _ => {}
  calls := fun _ => none
  downloads := fun _ => {}
  given := 0

/-- The slot that a call works on. -/
def Call.slot : Call → Option FileId
  | .search _ => none
  | .insert fileId _ => some fileId
  | .undo fileId _ => some fileId
  | .stop other => some other.fileId

/-- No call works on the slot. -/
def State.Idle (state : State n) (fileId : FileId) : Prop :=
  ∀ caller, ∀ call ∈ state.calls caller, call.slot ≠ some fileId

instance (state : State n) (fileId : FileId) : Decidable (state.Idle fileId) :=
  inferInstanceAs (Decidable (∀ _, _))

/-- An earlier download of a slot has had its thread joined and its file closed, and what a
call of cliDataStopDwld can close and reset in the slot is of the download that it stops. -/
structure Safe (state : State n) : Prop where
  handed : ∀ number, (state.downloads number).writer ≠ none →
    (state.slots (state.downloads number).fileId).download ≠ some number →
    (state.downloads number).joined = true ∧ (state.downloads number).closed = true
  stopped : ∀ caller stop, state.calls caller = some (.stop stop) →
    (∀ number ∈ (state.slots stop.fileId).fd, number = stop.download) ∧
      ∀ number ∈ (state.slots stop.fileId).writeFileThrId, number = stop.download
  ended : ∀ thread, (state.downloads thread).stop ≠ none →
    (∀ number ∈ (state.slots (state.downloads thread).fileId).fd, number = thread) ∧
      ∀ number ∈ (state.slots (state.downloads thread).fileId).writeFileThrId, number = thread

/-- No slot is given away while a cliDataStopDwld of it is in progress, nor after a download in
it that has come to its end of file; cliDataStopDwld is not called for a slot that another call
works on. -/
def Orderly (state : State n) : Event n → Prop
  | .search caller => ∀ fileId : FileId, state.calls caller = some (.search fileId.val) →
      (state.slots fileId).isUsing = false →
      state.Idle fileId ∧ ∀ number ∈ (state.slots fileId).download, (state.downloads number).isEof = false
  | .cliDataStopDwld _ fileId => state.Idle fileId
  | _ => True

instance (state : State n) (event : Event n) : Decidable (Orderly state event) := by
  unfold Orderly
  split <;> infer_instance

section Alone

variable {calls : Fin n → Option Call} {fileId : FileId} {caller : Fin n} {call old : Call}

/-- The only call that works on the slot, if there is one. -/
def Alone (calls : Fin n → Option Call) (fileId : FileId) : Option Call → Prop
  | none => ∀ caller, ∀ call ∈ calls caller, call.slot ≠ some fileId
  | some call => call.slot = some fileId ∧ ∃ caller, calls caller = some call ∧
    ∀ other, other ≠ caller → ∀ call ∈ calls other, call.slot ≠ some fileId

theorem alone_caller {found : Option Call} (alone : Alone calls fileId found) (there : calls caller = some call)
    (works : call.slot = some fileId) : found = some call := by
  cases found with
  | none => exact absurd works (alone caller call there)
  | some first =>
    obtain ⟨_,one,at_one,others⟩ := alone
    by_cases same : caller = one
    · rw [← at_one,← same,there]
    · exact absurd works (others caller same call there)

theorem alone_elsewhere {new found : Option Call} (alone : Alone calls fileId found)
    (before : ∀ call ∈ calls caller, call.slot ≠ some fileId) (after : ∀ call ∈ new, call.slot ≠ some fileId) :
    Alone (Function.update calls caller new) fileId found := by
  cases found with
  | none =>
    intro one call there
    by_cases same : one = caller
    · subst same
      rw [Function.update_self] at there
      exact after call there
    · rw [Function.update_of_ne same] at there
      exact alone one call there
  | some first =>
    obtain ⟨works,one,at_one,others⟩ := alone
    have apart : one ≠ caller := by
      rintro rfl
      exact before first at_one works
    refine ⟨works,one,by rw [Function.update_of_ne apart,at_one],fun other different call there => ?_⟩
    by_cases same : other = caller
    · subst same
      rw [Function.update_self] at there
      exact after call there
    · rw [Function.update_of_ne same] at there
      exact others other different call there

theorem alone_next {new : Option Call} (alone : Alone calls fileId (some old)) (there : calls caller = some old)
    (stays : ∀ call ∈ new, call.slot = some fileId) : Alone (Function.update calls caller new) fileId new := by
  obtain ⟨works,one,at_one,others⟩ := alone
  have here : caller = one := by
    by_contra different
    exact others caller different old there works
  subst here
  have apart : ∀ other, other ≠ caller → ∀ call ∈ Function.update calls caller new other, call.slot ≠ some fileId := by
    intro other different call there
    rw [Function.update_of_ne different] at there
    exact others other different call there
  cases new with
  | none =>
    intro one call there
    by_cases same : one = caller
    · subst same
      rw [Function.update_self] at there
      cases there
    · exact apart one same call there
  | some call => exact ⟨stays call rfl,caller,Function.update_self ..,apart⟩

/-- A call comes to a slot that no call works on. -/
theorem alone_enter (idle : Alone calls fileId none) (works : call.slot = some fileId) :
    Alone (Function.update calls caller (some call)) fileId (some call) := by
  refine ⟨works,caller,Function.update_self ..,fun other different call there => ?_⟩
  rw [Function.update_of_ne different] at there
  exact idle other call there

end Alone

end MoCodes.MoCloud.Client.SlotReuse
