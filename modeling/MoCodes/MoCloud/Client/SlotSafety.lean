import MoCodes.MoCloud.Client.SlotReuse

/-! What each step leaves of the phases that a slot goes through, and that the slots of cliData.c
are safe while they are given away and stopped in order. -/
namespace MoCodes.MoCloud.Client.SlotReuse
open Lib.Transition DwldSlots

variable {n : Nat}

section Phases

/-- Nothing of a download is left in the slot. -/
def Empty (slot : Slot) : Prop := slot.fd = none ∧ slot.writeFileThrId = none

/-- The file and the thread of the download are those of the slot. -/
def Filled (slot : Slot) (number : Nat) : Prop := slot.fd = some number ∧ slot.writeFileThrId = some number

/-- The write thread works, and nobody has told it to stop. -/
def Running (slot : Slot) (number : Nat) (own : Download) : Prop :=
  (own.writer ≠ some .leave ∧ own.writer ≠ some .exited) ∧ slot.isUsing = true ∧ slot.isStopWriteFileThr = false ∧
    Filled slot number

/-- What a cliDataStopDwld has done so far. -/
def Stopping (slot : Slot) (number : Nat) (own : Download) : StopPlace → Prop
  | .thread => Running slot number own
  | .halt => Running slot number own
  | .post => Filled slot number
  | .join => Filled slot number
  | .joining thread => thread = some number ∧ Filled slot number
  | .reset => own.joined = true ∧ Filled slot number
  | .close => own.joined = true ∧ slot.fd = some number ∧ slot.writeFileThrId = none
  | .release => own.joined = true ∧ own.closed = true ∧ Empty slot

/-- A call that works on a slot after its download has come to the end of file. -/
def Late (fileId : FileId) (number : Nat) : Option Call → Prop
  | none => True
  | some call => ∃ place : StopPlace, call = .stop ⟨fileId,number,place⟩ ∧
    ∀ thread, place = .joining (some thread) → thread = number

/-- What a slot and its last download are like, by the call that works on the slot. -/
inductive Phase (slot : Slot) (fileId : FileId) (number : Nat) (own : Download) : Option Call → Prop where
  | given {call : Call} : call = .insert fileId number ∨ call = .undo fileId number → own.writer = none →
      own.isEof = false → slot.isUsing = true → Empty slot → Phase slot fileId number own (some call)
  | undone : own.writer = none → own.isEof = false → slot.isUsing = false → Empty slot →
      Phase slot fileId number own none
  | running : own.isEof = false → own.writer ≠ none → Running slot number own → Phase slot fileId number own none
  | stopping {place : StopPlace} : own.isEof = false → own.writer ≠ none → Stopping slot number own place →
      Phase slot fileId number own (some (.stop ⟨fileId,number,place⟩))
  | finished : own.isEof = false → own.writer ≠ none → own.joined = true → own.closed = true → slot.isUsing = false →
      Empty slot → Phase slot fileId number own none
  | ended {call : Option Call} : own.isEof = true → own.writer ≠ none → (∀ x ∈ slot.fd, x = number) →
      (∀ x ∈ slot.writeFileThrId, x = number) → Late fileId number call → Phase slot fileId number own call

/-- What holds of one download by itself. -/
structure Sound (number : Nat) (own : Download) : Prop where
  exited : own.joined = true → own.writer = some .exited
  told : own.writer = some .eof ∨ own.writer = some .told ∨ own.stop ≠ none → own.isEof = true
  made : own.isEof = true → own.writer ≠ none
  own : ∀ thread, own.stop = some (.joining (some thread)) → thread = number

/-- One slot. -/
def SlotKept (state : State n) (fileId : FileId) : Prop :=
  match (state.slots fileId).download with
  | none => (state.slots fileId).isUsing = false ∧ Empty (state.slots fileId) ∧ Alone state.calls fileId none
  | some number => number < state.given ∧ (state.downloads number).fileId = fileId ∧
    ∃ call, Alone state.calls fileId call ∧ Phase (state.slots fileId) fileId number (state.downloads number) call

structure Kept (state : State n) : Prop where
  fresh : ∀ number, state.given ≤ number → state.downloads number = {}
  sound : ∀ number, Sound number (state.downloads number)
  past : ∀ number, (state.downloads number).writer ≠ none →
    (state.slots (state.downloads number).fileId).download ≠ some number →
    (state.downloads number).joined = true ∧ (state.downloads number).closed = true ∧
      (state.downloads number).isEof = false
  slot : ∀ fileId, SlotKept state fileId

end Phases

section Steps

variable {state : State n} {fileId : FileId} {number : Nat} {caller : Fin n}

@[simp] theorem State.setDownload_self (own : Download) : (state.setDownload number own).downloads number = own :=
  Function.update_self ..

@[simp] theorem State.setDownload_setDownload (own after : Download) :
    (state.setDownload number own).setDownload number after = state.setDownload number after := by
  rw [State.setDownload,State.setDownload,State.setDownload,Function.update_idem]

theorem phase_own {slot : Slot} {own : Download} {call : Option Call} (phase : Phase slot fileId number own call) :
    (∀ x ∈ slot.fd, x = number) ∧ ∀ x ∈ slot.writeFileThrId, x = number := by
  have empty : Empty slot → (∀ x ∈ slot.fd, x = number) ∧ ∀ x ∈ slot.writeFileThrId, x = number := by
    rintro ⟨fd,thread⟩
    rw [fd,thread]
    exact ⟨by simp,by simp⟩
  have filled : Filled slot number → (∀ x ∈ slot.fd, x = number) ∧ ∀ x ∈ slot.writeFileThrId, x = number := by
    rintro ⟨fd,thread⟩
    rw [fd,thread]
    exact ⟨by simp,by simp⟩
  cases phase with
  | given _ _ _ _ rest => exact empty rest
  | undone _ _ _ rest => exact empty rest
  | running _ _ rest => exact filled rest.2.2.2
  | stopping isEof made rest =>
    rename_i place
    cases place with
    | thread => exact filled rest.2.2.2
    | halt => exact filled rest.2.2.2
    | post => exact filled rest
    | join => exact filled rest
    | joining _ => exact filled rest.2
    | reset => exact filled rest.2
    | close =>
      obtain ⟨_,fd,thread⟩ := rest
      rw [fd,thread]
      exact ⟨by simp,by simp⟩
    | release => exact empty rest.2.2
  | finished _ _ _ _ _ rest => exact empty rest
  | ended _ _ fd thread => exact ⟨fd,thread⟩

theorem kept_change {slot : Slot} {own : Download} {calls : Fin n → Option Call} (kept : Kept state)
    (last : (state.slots fileId).download = some number) (same : slot.download = some number)
    (at_slot : own.fileId = fileId) (sound : Sound number own)
    (elsewhere : ∀ other, other ≠ fileId → ∀ call, Alone state.calls other call → Alone calls other call)
    (phase : ∃ call, Alone calls fileId call ∧ Phase slot fileId number own call) :
    Kept
      { state with
        slots := Function.update state.slots fileId slot
        calls := calls
        downloads := Function.update state.downloads number own } := by
  have here := kept.slot fileId
  rw [SlotKept,last] at here
  obtain ⟨given,placed,_⟩ := here
  have download : ∀ other, (Function.update state.slots fileId slot other).download = (state.slots other).download := by
    intro other
    by_cases equal : other = fileId
    · rw [equal,Function.update_self,same,last]
    · rw [Function.update_of_ne equal]
  refine ⟨fun other late => ?_,fun other => ?_,fun other made past => ?_,fun other => ?_⟩
  · have apart : other ≠ number := Nat.ne_of_gt (Nat.lt_of_lt_of_le given late)
    exact (Function.update_of_ne apart ..).trans (kept.fresh other late)
  · dsimp only
    by_cases equal : other = number
    · subst equal
      rw [Function.update_self]
      exact sound
    · rw [Function.update_of_ne equal]
      exact kept.sound other
  · dsimp only at made past ⊢
    rw [download] at past
    by_cases equal : other = number
    · subst equal
      rw [Function.update_self,at_slot] at past
      exact absurd last past
    · rw [Function.update_of_ne equal] at made past ⊢
      exact kept.past other made past
  · rw [SlotKept]
    dsimp only
    rw [download]
    by_cases equal : other = fileId
    · subst equal
      rw [last]
      dsimp only
      rw [Function.update_self,Function.update_self]
      exact ⟨given,at_slot,phase⟩
    · have there := kept.slot other
      rw [SlotKept] at there
      rw [Function.update_of_ne equal]
      cases found : (state.slots other).download with
      | none =>
        rw [found] at there
        exact ⟨there.1,there.2.1,elsewhere other equal none there.2.2⟩
      | some one =>
        rw [found] at there
        obtain ⟨below,at_other,call,alone,phase⟩ := there
        have apart : one ≠ number := by
          rintro rfl
          exact equal (at_other.symm.trans placed)
        dsimp only
        rw [Function.update_of_ne apart]
        exact ⟨below,at_other,call,elsewhere other equal call alone,phase⟩

/-- What a phase looks at in the slot. -/
def SameView (slot other : Slot) : Prop :=
  other.isUsing = slot.isUsing ∧ other.isStopWriteFileThr = slot.isStopWriteFileThr ∧ other.fd = slot.fd ∧
    other.writeFileThrId = slot.writeFileThrId

theorem phase_view {slot other : Slot} {own : Download} {call : Option Call} (phase : Phase slot fileId number own call)
    (same : SameView slot other) : Phase other fileId number own call := by
  obtain ⟨isUsing,isStop,fd,thread⟩ := same
  have empty : Empty slot → Empty other := fun old => ⟨fd.trans old.1,thread.trans old.2⟩
  have filled : Filled slot number → Filled other number := fun old => ⟨fd.trans old.1,thread.trans old.2⟩
  have running : Running slot number own → Running other number own :=
    fun old => ⟨old.1,isUsing.trans old.2.1,isStop.trans old.2.2.1,filled old.2.2.2⟩
  cases phase with
  | given call writer isEof used rest => exact .given call writer isEof (isUsing.trans used) (empty rest)
  | undone writer isEof used rest => exact .undone writer isEof (isUsing.trans used) (empty rest)
  | running isEof made rest => exact .running isEof made (running rest)
  | stopping isEof made rest =>
    refine .stopping isEof made ?_
    rename_i place
    cases place with
    | thread => exact running rest
    | halt => exact running rest
    | post => exact filled rest
    | join => exact filled rest
    | joining _ => exact ⟨rest.1,filled rest.2⟩
    | reset => exact ⟨rest.1,filled rest.2⟩
    | close => exact ⟨rest.1,fd.trans rest.2.1,thread.trans rest.2.2⟩
    | release => exact ⟨rest.1,rest.2.1,empty rest.2.2⟩
  | finished isEof made joined closed used rest => exact .finished isEof made joined closed (isUsing.trans used) (empty rest)
  | ended isEof made old older late => exact .ended isEof made (fd ▸ old) (thread ▸ older) late

theorem kept_calls {calls : Fin n → Option Call} (kept : Kept state)
    (elsewhere : ∀ other call, Alone state.calls other call → Alone calls other call) :
    Kept { state with calls := calls } := by
  refine ⟨kept.fresh,kept.sound,kept.past,fun other => ?_⟩
  have there := kept.slot other
  rw [SlotKept] at there ⊢
  dsimp only
  split
  · rename_i found
    rw [found] at there
    exact ⟨there.1,there.2.1,elsewhere other none there.2.2⟩
  · rename_i one found
    rw [found] at there
    obtain ⟨below,at_other,call,alone,phase⟩ := there
    exact ⟨below,at_other,call,elsewhere other call alone,phase⟩

theorem kept_idle {new : Option Call} (kept : Kept state) (before : ∀ call ∈ state.calls caller, call.slot = none)
    (after : ∀ call ∈ new, call.slot = none) : Kept (state.setCall caller new) := by
  refine kept_calls kept fun other call alone => alone_elsewhere alone ?_ ?_
  · intro call there
    rw [before call there]
    exact Option.some_ne_none _ |>.symm
  · intro call there
    rw [after call there]
    exact Option.some_ne_none _ |>.symm

theorem kept_view {slot : Slot} (kept : Kept state) (same : SameView (state.slots fileId) slot)
    (download : slot.download = (state.slots fileId).download) : Kept (state.setSlot fileId slot) := by
  have here := kept.slot fileId
  rw [SlotKept] at here
  cases last : (state.slots fileId).download with
  | none =>
    rw [last] at here download
    have found : (state.setSlot fileId slot).slots fileId = slot := Function.update_self ..
    have others : ∀ other, ((state.setSlot fileId slot).slots other).download = (state.slots other).download := by
      intro other
      by_cases equal : other = fileId
      · rw [equal,found,download,last]
      · exact congrArg Slot.download (Function.update_of_ne equal ..)
    refine ⟨kept.fresh,kept.sound,fun number made past => ?_,fun other => ?_⟩
    · rw [others] at past
      exact kept.past number made past
    · by_cases equal : other = fileId
      · subst equal
        rw [SlotKept,others,last,found]
        exact ⟨same.1.trans here.1,⟨same.2.2.1.trans here.2.1.1,same.2.2.2.trans here.2.1.2⟩,here.2.2⟩
      · have there := kept.slot other
        rw [SlotKept] at there ⊢
        have found : (state.setSlot fileId slot).slots other = state.slots other := Function.update_of_ne equal ..
        rw [found]
        exact there
  | some number =>
    rw [last] at here
    obtain ⟨_,placed,call,alone,phase⟩ := here
    have changed := kept_change kept last (download.trans last) placed (kept.sound number) (fun _ _ _ => id)
      ⟨call,alone,phase_view phase same⟩
    rw [Function.update_eq_self] at changed
    exact changed

theorem kept_step {slot : Slot} {own : Download} {old : Call} {new : Option Call} (kept : Kept state)
    (there : state.calls caller = some old) (works : old.slot = some fileId)
    (last : (state.slots fileId).download = some number) (phase : Phase slot fileId number own new)
    (same : slot.download = some number) (at_slot : own.fileId = fileId) (sound : Sound number own)
    (stays : ∀ call ∈ new, call.slot = some fileId) :
    Kept
      { state with
        slots := Function.update state.slots fileId slot
        calls := Function.update state.calls caller new
        downloads := Function.update state.downloads number own } := by
  have here := kept.slot fileId
  rw [SlotKept,last] at here
  obtain ⟨_,_,call,alone,_⟩ := here
  obtain rfl := alone_caller alone there works
  refine kept_change kept last same at_slot sound (fun other different call alone => ?_)
    ⟨new,alone_next alone there stays,phase⟩
  refine alone_elsewhere alone (fun call found => ?_) fun call found => ?_
  · rw [there] at found
    obtain rfl := Option.some.inj found
    rw [works]
    exact fun equal => different (Option.some.inj equal).symm
  · rw [stays call found]
    exact fun equal => different (Option.some.inj equal).symm

theorem call_phase {call : Call} (kept : Kept state) (there : state.calls caller = some call)
    (works : call.slot = some fileId) : ∃ number, (state.slots fileId).download = some number ∧
      (state.downloads number).fileId = fileId ∧ Phase (state.slots fileId) fileId number (state.downloads number) (some call) := by
  have here := kept.slot fileId
  rw [SlotKept] at here
  split at here
  · exact absurd works (here.2.2 caller call there)
  · rename_i number last
    obtain ⟨_,placed,found,alone,phase⟩ := here
    obtain rfl := alone_caller alone there works
    exact ⟨number,last,placed,phase⟩

theorem alone_idle {calls : Fin n → Option Call} {found : Option Call} (alone : Alone calls fileId found)
    (idle : Alone calls fileId none) : found = none := by
  cases found with
  | none => rfl
  | some call =>
    obtain ⟨works,one,there,_⟩ := alone
    exact absurd works (idle one call there)

/-- What is in a slot that no call works on and that is not in use. -/
theorem unused_past (kept : Kept state) (idle : state.Idle fileId) (unused : (state.slots fileId).isUsing = false)
    (last : (state.slots fileId).download = some number) (isEof : (state.downloads number).isEof = false)
    (made : (state.downloads number).writer ≠ none) :
    (state.downloads number).joined = true ∧ (state.downloads number).closed = true := by
  have here := kept.slot fileId
  rw [SlotKept,last] at here
  obtain ⟨_,_,call,alone,phase⟩ := here
  obtain rfl := alone_idle alone idle
  cases phase with
  | undone writer => exact absurd writer made
  | running _ _ rest => exact absurd rest.2.1 (Bool.eq_false_iff.mp unused)
  | finished _ _ joined closed => exact ⟨joined,closed⟩
  | ended ended => exact absurd ended (Bool.eq_false_iff.mp isEof)

theorem give_kept (kept : Kept state) (searching : ∀ call ∈ state.calls caller, call.slot = none)
    (idle : state.Idle fileId) (unused : (state.slots fileId).isUsing = false)
    (noEof : ∀ number ∈ (state.slots fileId).download, (state.downloads number).isEof = false) :
    Kept
      { slots := Function.update state.slots fileId
          { state.slots fileId with isUsing := true, download := some state.given }
        calls := Function.update state.calls caller (some (.insert fileId state.given))
        downloads := Function.update state.downloads state.given { fileId := fileId }
        given := state.given+1 } := by
  have here := kept.slot fileId
  rw [SlotKept] at here
  have empty : Empty (state.slots fileId) := by
    split at here
    · exact here.2.1
    · rename_i number last
      obtain ⟨_,_,call,alone,phase⟩ := here
      obtain rfl := alone_idle alone idle
      cases phase with
      | undone _ _ _ rest => exact rest
      | running _ _ rest => exact absurd rest.2.1 (Bool.eq_false_iff.mp unused)
      | finished _ _ _ _ _ rest => exact rest
      | ended ended => exact absurd ended (Bool.eq_false_iff.mp (noEof number last))
  have elsewhere : ∀ other, other ≠ fileId → ∀ call, Alone state.calls other call →
      Alone (Function.update state.calls caller (some (.insert fileId state.given))) other call := by
    intro other different call alone
    refine alone_elsewhere alone (fun call there => ?_) fun call there => ?_
    · rw [searching call there]
      exact Option.some_ne_none _ |>.symm
    · obtain rfl := Option.some.inj there
      exact fun equal => different (Option.some.inj equal).symm
  refine ⟨fun other late => ?_,fun other => ?_,fun other made past => ?_,fun other => ?_⟩
  · dsimp only at late ⊢
    rw [Function.update_of_ne (by omega)]
    exact kept.fresh other (by omega)
  · dsimp only
    by_cases equal : other = state.given
    · subst equal
      rw [Function.update_self]
      exact ⟨by simp,by simp,by simp,by simp⟩
    · rw [Function.update_of_ne equal]
      exact kept.sound other
  · dsimp only at made past ⊢
    by_cases equal : other = state.given
    · subst equal
      rw [Function.update_self] at made
      exact absurd rfl made
    · rw [Function.update_of_ne equal] at made past ⊢
      by_cases at_slot : (state.downloads other).fileId = fileId
      · by_cases last : (state.slots fileId).download = some other
        · have isEof := noEof other last
          obtain ⟨joined,closed⟩ := unused_past kept idle unused last isEof made
          exact ⟨joined,closed,isEof⟩
        · exact kept.past other made (by rw [at_slot]; exact last)
      · rw [Function.update_of_ne at_slot] at past
        exact kept.past other made past
  · rw [SlotKept]
    dsimp only
    by_cases equal : other = fileId
    · subst equal
      rw [Function.update_self]
      dsimp only
      rw [Function.update_self]
      exact ⟨Nat.lt_succ_self _,rfl,_,alone_enter idle rfl,.given (Or.inl rfl) rfl rfl rfl empty⟩
    · rw [Function.update_of_ne equal]
      have there := kept.slot other
      rw [SlotKept] at there
      split
      · rename_i found
        rw [found] at there
        exact ⟨there.1,there.2.1,elsewhere other equal none there.2.2⟩
      · rename_i one found
        rw [found] at there
        obtain ⟨below,at_other,call,alone,phase⟩ := there
        rw [Function.update_of_ne (Nat.ne_of_lt below)]
        exact ⟨Nat.lt_succ_of_lt below,at_other,call,elsewhere other equal call alone,phase⟩

theorem search_kept {i : Nat} (kept : Kept state) (there : state.calls caller = some (.search i))
    (ordered : ∀ fileId : FileId, fileId.val = i → (state.slots fileId).isUsing = false →
      state.Idle fileId ∧ ∀ number ∈ (state.slots fileId).download, (state.downloads number).isEof = false) :
    Kept (state.search caller i) := by
  have searching : ∀ call ∈ state.calls caller, call.slot = none := by
    intro call found
    rw [there] at found
    obtain rfl := Option.some.inj found
    rfl
  unfold State.search
  split
  · rename_i inside
    dsimp only
    split_ifs with used
    · have viewed : Kept (state.setSlot ⟨i,inside⟩ { state.slots ⟨i,inside⟩ with locked := true }) :=
        kept_view kept ⟨rfl,rfl,rfl,rfl⟩ rfl
      refine kept_idle viewed searching fun call found => ?_
      obtain rfl := Option.some.inj found
      rfl
    · have unused : (state.slots ⟨i,inside⟩).isUsing = false := Bool.eq_false_iff.mpr used
      obtain ⟨idle,noEof⟩ := ordered ⟨i,inside⟩ rfl unused
      exact give_kept kept searching idle unused noEof
  · exact kept_idle kept searching (by simp)

theorem close_empty (empty : (state.slots fileId).fd = none) : state.close fileId = state := by
  rw [State.close]
  dsimp only
  rw [empty]

theorem close_filled (filled : (state.slots fileId).fd = some number) : state.close fileId =
    (state.setSlot fileId { state.slots fileId with fd := none }).setDownload number
      { state.downloads number with closed := true } := by
  rw [State.close]
  dsimp only
  rw [filled]

theorem sound_marks {own after : Download} (sound : Sound number own)
    (same : after.writer = own.writer ∧ after.stop = own.stop ∧ after.isEof = own.isEof)
    (exited : after.joined = true → own.joined = true ∨ own.writer = some .exited) : Sound number after := by
  obtain ⟨writer,stop,isEof⟩ := same
  refine ⟨fun joined => ?_,?_,?_,?_⟩
  · rw [writer]
    exact (exited joined).elim sound.exited id
  · rw [writer,stop,isEof]
    exact sound.told
  · rw [writer,isEof]
    exact sound.made
  · rw [stop]
    exact sound.own

theorem sound_writer {own : Download} {writer : Writer} (sound : Sound number own) (going : own.writer ≠ some .exited)
    (told : writer = .eof ∨ writer = .told → own.isEof = true) : Sound number { own with writer := some writer } where
  exited := fun joined => absurd (sound.exited joined) going
  told := fun there => by
    rcases there with there | there | stopping
    · exact told (Or.inl (Option.some.inj there))
    · exact told (Or.inr (Option.some.inj there))
    · exact sound.told (Or.inr (Or.inr stopping))
  made := fun _ => Option.some_ne_none _
  own := sound.own

theorem insertFileDwldTask_kept {opened : Bool} (kept : Kept state)
    (there : state.calls caller = some (.insert fileId number)) :
    Kept (state.insertFileDwldTask caller fileId number opened) := by
  obtain ⟨found,last,placed,phase⟩ := call_phase kept there rfl
  cases phase with
  | ended _ _ _ _ late =>
    obtain ⟨_,other,_⟩ := late
    cases other
  | given call writer isEof used empty =>
    obtain rfl : number = found := by
      rcases call with same | same
      · exact (Call.insert.inj same).2
      · cases same
    rw [State.insertFileDwldTask,close_empty empty.1]
    dsimp only
    split_ifs with opens
    · refine kept_step kept there rfl last
        (.running isEof (Option.some_ne_none _) ⟨⟨by simp,by simp⟩,used,rfl,rfl,rfl⟩) last placed
        (sound_writer (kept.sound number) ?_ ?_) (by simp)
      · rw [writer]
        simp
      · simp
    · have moved := kept_step kept there rfl last
        (.given (Or.inr rfl) writer isEof used empty : Phase _ fileId number _ (some (.undo fileId number))) last placed
        (kept.sound number) (by simp [Call.slot])
      rw [Function.update_eq_self,Function.update_eq_self] at moved
      exact moved

theorem undo_kept (kept : Kept state) (there : state.calls caller = some (.undo fileId number)) :
    Kept ((state.setSlot fileId { state.slots fileId with isUsing := false }).setCall caller none) := by
  obtain ⟨found,last,placed,phase⟩ := call_phase kept there rfl
  cases phase with
  | ended _ _ _ _ late =>
    obtain ⟨_,other,_⟩ := late
    cases other
  | given call writer isEof used empty =>
    have moved := kept_step kept there rfl last
      (.undone writer isEof rfl empty : Phase { state.slots fileId with isUsing := false } fileId found _ none) last placed
      (kept.sound found) (by simp)
    rw [Function.update_eq_self] at moved
    exact moved

theorem enter_kept (kept : Kept state) (free : state.calls caller = none) (idle : state.Idle fileId)
    (used : (state.slots fileId).isUsing = true) (last : (state.slots fileId).download = some number) :
    Kept (state.setCall caller (some (.stop ⟨fileId,number,.thread⟩))) := by
  have here := kept.slot fileId
  rw [SlotKept,last] at here
  obtain ⟨_,placed,call,alone,phase⟩ := here
  obtain rfl := alone_idle alone idle
  have entered : Phase (state.slots fileId) fileId number (state.downloads number)
      (some (.stop ⟨fileId,number,.thread⟩)) := by
    cases phase with
    | undone _ _ unused => exact absurd used (Bool.eq_false_iff.mp unused)
    | running isEof made rest => exact .stopping isEof made rest
    | finished _ _ _ _ unused => exact absurd used (Bool.eq_false_iff.mp unused)
    | ended isEof made fd thread => exact .ended isEof made fd thread ⟨.thread,rfl,by simp⟩
  have elsewhere : ∀ other, other ≠ fileId → ∀ call, Alone state.calls other call →
      Alone (Function.update state.calls caller (some (.stop ⟨fileId,number,.thread⟩))) other call := by
    intro other different call alone
    refine alone_elsewhere alone (fun call there => ?_) fun call there => ?_
    · rw [free] at there
      cases there
    · obtain rfl := Option.some.inj there
      exact fun equal => different (Option.some.inj equal).symm
  have changed := kept_change kept last last placed (kept.sound number) elsewhere ⟨_,alone_enter idle rfl,entered⟩
  rw [Function.update_eq_self,Function.update_eq_self] at changed
  exact changed

theorem phase_stop {slot : Slot} {own : Download} {stop : Stop}
    (phase : Phase slot fileId number own (some (.stop stop))) : stop.download = number := by
  obtain ⟨_,_,_⟩ := stop
  cases phase with
  | given call => rcases call with other | other <;> cases other
  | stopping => rfl
  | ended _ _ _ _ late =>
    obtain ⟨_,other,_⟩ := late
    rw [Call.stop.inj other]

section Stop

variable {slot : Slot} {own : Download} {place : StopPlace} (kept : Kept state)
  (there : state.calls caller = some (.stop ⟨fileId,number,place⟩))
  (last : (state.slots fileId).download = some number) (placed : (state.downloads number).fileId = fileId)
include kept there last placed

theorem stop_slot {next : Option StopPlace}
    (phase : Phase slot fileId number (state.downloads number) (next.map fun place => .stop ⟨fileId,number,place⟩))
    (same : slot.download = some number) :
    Kept ((state.setSlot fileId slot).setCall caller (next.map fun place => .stop ⟨fileId,number,place⟩)) := by
  have moved := kept_step kept there rfl last phase same placed (kept.sound number) (by
    intro call found
    obtain ⟨_,_,rfl⟩ := Option.map_eq_some_iff.mp found
    rfl)
  rw [Function.update_eq_self] at moved
  exact moved

theorem stop_place {next : StopPlace}
    (phase : Phase (state.slots fileId) fileId number (state.downloads number) (some (.stop ⟨fileId,number,next⟩))) :
    Kept (state.setCall caller (some (.stop ⟨fileId,number,next⟩))) := by
  have moved := @stop_slot n state fileId number caller _ place kept there last placed (some next) phase last
  rw [State.setSlot,Function.update_eq_self] at moved
  exact moved

theorem stop_joined (exited : (state.downloads number).writer = some .exited)
    (phase : Phase (state.slots fileId) fileId number { state.downloads number with joined := true }
      (some (.stop ⟨fileId,number,.reset⟩))) :
    Kept ((state.setDownload number { state.downloads number with joined := true }).setCall caller
      (some (.stop ⟨fileId,number,.reset⟩))) := by
  have moved := kept_step kept there rfl last phase last placed
    (sound_marks (kept.sound number) ⟨rfl,rfl,rfl⟩ fun _ => Or.inr exited) (by simp [Call.slot])
  rw [Function.update_eq_self] at moved
  exact moved

theorem stop_closed (filled : (state.slots fileId).fd = some number)
    (phase : Phase { state.slots fileId with fd := none } fileId number { state.downloads number with closed := true }
      (some (.stop ⟨fileId,number,.release⟩))) :
    Kept ((state.close fileId).setCall caller (some (.stop ⟨fileId,number,.release⟩))) := by
  rw [close_filled filled]
  exact kept_step kept there rfl last phase last placed
    (sound_marks (kept.sound number) ⟨rfl,rfl,rfl⟩ Or.inl) (by simp [Call.slot])

theorem stop_kept (can : state.CanStop none fileId place)
    (phase : Phase (state.slots fileId) fileId number (state.downloads number) (some (.stop ⟨fileId,number,place⟩))) :
    Kept ((state.stopStep none fileId place).1.setCall caller
      ((state.stopStep none fileId place).2.map fun place => .stop ⟨fileId,number,place⟩)) := by
  cases phase with
  | given call =>
    rcases call with other | other <;> cases other
  | stopping isEof made rest =>
    cases place with
    | thread =>
      have here : (state.stopStep none fileId .thread).2 = some .halt := by
        rw [State.stopStep,rest.2.2.2.2]
        rfl
      rw [here]
      exact stop_place kept there last placed (.stopping isEof made rest)
    | halt => exact stop_slot kept there last placed (.stopping isEof made rest.2.2.2) last
    | post => exact stop_slot kept there last placed (.stopping isEof made rest) last
    | join => exact stop_place kept there last placed (.stopping isEof made ⟨rest.2,rest⟩)
    | joining thread =>
      obtain ⟨rfl,rest⟩ := rest
      rw [State.stopStep,if_neg (by simp)]
      exact stop_joined kept there last placed (can.resolve_left (by simp)) (.stopping isEof made ⟨rfl,rest⟩)
    | reset => exact stop_slot kept there last placed (.stopping isEof made ⟨rest.1,rest.2.1,rfl⟩) last
    | close =>
      exact stop_closed kept there last placed rest.2.1 (.stopping isEof made ⟨rest.1,rfl,rfl,rest.2.2⟩)
    | release => exact stop_slot kept there last placed (.finished isEof made rest.1 rest.2.1 rfl rest.2.2) last
  | ended isEof made fd thread late =>
    cases place with
    | thread => exact stop_place kept there last placed (.ended isEof made fd thread ⟨_,rfl,by split <;> simp⟩)
    | halt => exact stop_slot kept there last placed (.ended isEof made fd thread ⟨_,rfl,by simp⟩) last
    | post => exact stop_slot kept there last placed (.ended isEof made fd thread ⟨_,rfl,by simp⟩) last
    | join =>
      refine stop_place kept there last placed (.ended isEof made fd thread ⟨_,rfl,fun other same => thread other ?_⟩)
      exact StopPlace.joining.inj same
    | joining found =>
      cases found with
      | none => exact stop_place kept there last placed (.ended isEof made fd thread ⟨_,rfl,by simp⟩)
      | some found =>
        obtain ⟨place,same,mine⟩ := late
        obtain ⟨_,_,rfl⟩ := Stop.mk.inj (Call.stop.inj same)
        obtain rfl := mine found rfl
        rw [State.stopStep,if_neg (by simp)]
        exact stop_joined kept there last placed (can.resolve_left (by simp)) (.ended isEof made fd thread ⟨_,rfl,by simp⟩)
    | reset => exact stop_slot kept there last placed (.ended isEof made fd (by simp) ⟨_,rfl,by simp⟩) last
    | close =>
      cases opened : (state.slots fileId).fd with
      | none =>
        rw [State.stopStep,close_empty opened]
        exact stop_place kept there last placed (.ended isEof made fd thread ⟨_,rfl,by simp⟩)
      | some other =>
        obtain rfl := fd other opened
        exact stop_closed kept there last placed opened (.ended isEof made (by simp) thread ⟨_,rfl,by simp⟩)
    | release => exact stop_slot kept there last placed (.ended isEof made fd thread trivial) last

end Stop

section Threads

variable {slot : Slot} {own : Download} {call : Option Call} {thread : Nat}

theorem phase_writer {writer : Writer} (phase : Phase slot fileId number own call) (made : own.writer ≠ none)
    (works : writer ≠ .leave ∧ writer ≠ .exited) : Phase slot fileId number { own with writer := some writer } call := by
  have running : Running slot number own → Running slot number { own with writer := some writer } :=
    fun old => ⟨⟨fun leave => works.1 (Option.some.inj leave),fun exited => works.2 (Option.some.inj exited)⟩,old.2⟩
  cases phase with
  | given _ none => exact absurd none made
  | undone none => exact absurd none made
  | running isEof _ rest => exact .running isEof (Option.some_ne_none _) (running rest)
  | stopping isEof old rest =>
    refine .stopping isEof (Option.some_ne_none _) ?_
    rename_i place
    cases place with
    | thread => exact running rest
    | halt => exact running rest
    | _ => exact rest
  | finished isEof _ joined closed used rest => exact .finished isEof (Option.some_ne_none _) joined closed used rest
  | ended isEof _ fd thread late => exact .ended isEof (Option.some_ne_none _) fd thread late

/-- A thread that was told to stop gives the slot up. -/
theorem phase_exit {writer : Writer} (phase : Phase slot fileId number own call) (made : own.writer ≠ none)
    (told : slot.isStopWriteFileThr = true ∨ own.writer = some .leave) :
    Phase { slot with isUsing := false } fileId number { own with writer := some writer } call := by
  have running : ¬ Running slot number own := by
    intro rest
    rcases told with told | left
    · exact absurd told (Bool.eq_false_iff.mp rest.2.2.1)
    · exact rest.1.1 left
  cases phase with
  | given _ none => exact absurd none made
  | undone none => exact absurd none made
  | running _ _ rest => exact absurd rest running
  | stopping isEof old rest =>
    refine .stopping isEof (Option.some_ne_none _) ?_
    rename_i place
    cases place with
    | thread => exact absurd rest running
    | halt => exact absurd rest running
    | _ => exact rest
  | finished isEof _ joined closed _ rest => exact .finished isEof (Option.some_ne_none _) joined closed rfl rest
  | ended isEof _ fd thread late => exact .ended isEof (Option.some_ne_none _) fd thread late

theorem phase_late (phase : Phase slot fileId number own call) (made : own.writer ≠ none) : Late fileId number call := by
  cases phase with
  | given _ none => exact absurd none made
  | undone none => exact absurd none made
  | running => trivial
  | stopping isEof old rest =>
    rename_i place
    refine ⟨place,rfl,fun thread same => ?_⟩
    subst same
    exact Option.some.inj rest.1
  | finished => trivial
  | ended _ _ _ _ late => exact late

/-- A thread that has not exited works on the last download of its slot. -/
theorem thread_last (kept : Kept state) (made : (state.downloads thread).writer ≠ none)
    (going : (state.downloads thread).writer ≠ some .exited ∨ (state.downloads thread).isEof = true) :
    (state.slots (state.downloads thread).fileId).download = some thread := by
  by_contra past
  obtain ⟨joined,_,isEof⟩ := kept.past thread made past
  rcases going with going | ended
  · exact going ((kept.sound thread).exited joined)
  · rw [isEof] at ended
    cases ended

theorem kept_thread (kept : Kept state) (last : (state.slots (state.downloads thread).fileId).download = some thread)
    (same : slot.download = some thread) (at_slot : own.fileId = (state.downloads thread).fileId)
    (sound : Sound thread own)
    (phase : ∀ call, Phase (state.slots (state.downloads thread).fileId) (state.downloads thread).fileId thread
      (state.downloads thread) call → Phase slot (state.downloads thread).fileId thread own call) :
    Kept ((state.setSlot (state.downloads thread).fileId slot).setDownload thread own) := by
  have here := kept.slot (state.downloads thread).fileId
  rw [SlotKept,last] at here
  obtain ⟨_,_,call,alone,old⟩ := here
  exact kept_change kept last same at_slot sound (fun _ _ _ => id) ⟨call,alone,phase call old⟩

theorem kept_download (kept : Kept state) (last : (state.slots (state.downloads thread).fileId).download = some thread)
    (at_slot : own.fileId = (state.downloads thread).fileId) (sound : Sound thread own)
    (phase : ∀ call, Phase (state.slots (state.downloads thread).fileId) (state.downloads thread).fileId thread
      (state.downloads thread) call →
        Phase (state.slots (state.downloads thread).fileId) (state.downloads thread).fileId thread own call) :
    Kept (state.setDownload thread own) := by
  have changed := kept_thread kept last last at_slot sound phase
  rw [State.setSlot,Function.update_eq_self] at changed
  exact changed

theorem writeFileThr_kept {writer : Writer} {curInfo : Option Bool} (kept : Kept state)
    (there : (state.downloads thread).writer = some writer) (running : writer ≠ .exited) :
    Kept (state.writeFileThr thread curInfo writer) := by
  have made : (state.downloads thread).writer ≠ none := by
    rw [there]
    exact Option.some_ne_none _
  have going : (state.downloads thread).writer ≠ some .exited := by
    rw [there]
    exact fun same => running (Option.some.inj same)
  have last := thread_last kept made (Or.inl going)
  have sound := kept.sound thread
  have goes : ∀ {next : Writer}, (next ≠ .leave ∧ next ≠ .exited) →
      (next = .eof ∨ next = .told → (state.downloads thread).isEof = true) → Kept (state.setWriter thread next) :=
    fun works told => kept_download kept last rfl (sound_writer sound going told) fun call phase =>
      phase_writer phase made works
  cases writer with
  | wait =>
    refine kept_thread kept last last rfl (sound_writer sound going (by simp)) fun call phase => ?_
    exact phase_view (phase_writer phase made (by simp)) ⟨rfl,rfl,rfl,rfl⟩
  | look =>
    unfold State.writeFileThr
    dsimp only
    split_ifs with told
    · exact kept_thread kept last last rfl (sound_writer sound going (by simp)) fun call phase =>
        phase_exit phase made (Or.inl told)
    · cases curInfo with
      | none => exact kept
      | some isEof =>
        cases isEof with
        | false => exact goes (by simp) (by simp)
        | true =>
          refine kept_download kept last rfl ⟨fun joined => ?_,fun _ => rfl,fun _ => Option.some_ne_none _,sound.own⟩
            fun call phase => ?_
          · exact absurd (sound.exited joined) going
          · obtain ⟨fd,id⟩ := phase_own phase
            exact .ended rfl (Option.some_ne_none _) fd id (phase_late phase made)
  | handle => exact goes (by simp) (by simp)
  | eof =>
    have isEof : (state.downloads thread).isEof = true := sound.told (Or.inl there)
    refine kept_thread kept last last rfl (sound_writer sound going fun _ => isEof) fun call phase => ?_
    obtain ⟨fd,id⟩ := phase_own phase
    exact .ended isEof (Option.some_ne_none _) fd id (phase_late phase made)
  | told => exact goes (by simp) (by simp)
  | leave =>
    exact kept_thread kept last last rfl (sound_writer sound going (by simp)) fun call phase =>
      phase_exit phase made (Or.inr there)
  | exited => exact absurd rfl running

/-- The thread of a download that has come to its end calls cliDataStopDwld itself. -/
theorem stopAtEof_kept (kept : Kept state) (told : (state.downloads thread).writer = some .told) :
    Kept (state.setDownload thread { state.downloads thread with stop := some .thread }) := by
  have sound := kept.sound thread
  have isEof : (state.downloads thread).isEof = true := sound.told (Or.inr (Or.inl told))
  have made := sound.made isEof
  refine kept_download kept (thread_last kept made (Or.inr isEof)) rfl
    ⟨sound.exited,fun _ => isEof,sound.made,by simp⟩ fun call phase => ?_
  obtain ⟨fd,id⟩ := phase_own phase
  exact .ended isEof made fd id (phase_late phase made)

theorem ownStop_kept {place : StopPlace} (kept : Kept state) (there : (state.downloads thread).stop = some place) :
    Kept ((state.stopStep (some thread) (state.downloads thread).fileId place).1.setDownload thread
      { (state.stopStep (some thread) (state.downloads thread).fileId place).1.downloads thread with
        stop := (state.stopStep (some thread) (state.downloads thread).fileId place).2 }) := by
  have sound := kept.sound thread
  have isEof : (state.downloads thread).isEof = true := sound.told (Or.inr (Or.inr (by rw [there]; simp)))
  have made := sound.made isEof
  have last := thread_last kept made (Or.inr isEof)
  have here := kept.slot (state.downloads thread).fileId
  rw [SlotKept,last] at here
  obtain ⟨_,_,_,_,phase⟩ := here
  obtain ⟨fd,id⟩ := phase_own phase
  have place_only : ∀ {next : Option StopPlace}, (∀ x, next = some (.joining (some x)) → x = thread) →
      Kept (state.setDownload thread { state.downloads thread with stop := next }) :=
    fun mine => kept_download kept last rfl ⟨sound.exited,fun _ => isEof,sound.made,mine⟩ fun call phase =>
      .ended isEof made fd id (phase_late phase made)
  have slot_too : ∀ {slot : Slot} {next : Option StopPlace}, (∀ x, next = some (.joining (some x)) → x = thread) →
      slot.download = (state.slots (state.downloads thread).fileId).download → (∀ x ∈ slot.fd, x = thread) →
      (∀ x ∈ slot.writeFileThrId, x = thread) →
      Kept ((state.setSlot (state.downloads thread).fileId slot).setDownload thread
        { state.downloads thread with stop := next }) :=
    fun mine same fd id => kept_thread kept last (same.trans last) rfl ⟨sound.exited,fun _ => isEof,sound.made,mine⟩
      fun call phase => .ended isEof made fd id (phase_late phase made)
  cases place with
  | thread =>
    refine place_only fun x same => ?_
    simp only [State.stopStep] at same
    split at same <;> cases same
  | halt => exact slot_too (by simp [State.stopStep]) rfl fd id
  | post => exact slot_too (by simp [State.stopStep]) rfl fd id
  | join =>
    refine place_only fun x same => id x ?_
    exact StopPlace.joining.inj (Option.some.inj same)
  | joining found =>
    cases found with
    | none => exact place_only (by simp [State.stopStep])
    | some found =>
      obtain rfl := sound.own found there
      rw [State.stopStep,if_pos rfl]
      exact place_only (by simp)
  | reset => exact slot_too (by simp [State.stopStep]) rfl fd (by simp)
  | close =>
    rw [State.stopStep]
    cases opened : (state.slots (state.downloads thread).fileId).fd with
    | none =>
      rw [close_empty opened]
      exact place_only (by simp)
    | some other =>
      obtain rfl := fd other opened
      rw [close_filled opened,State.setDownload_self,State.setDownload_setDownload]
      exact kept_thread kept last last rfl ⟨sound.exited,fun _ => isEof,sound.made,by simp⟩ fun call phase =>
        .ended isEof made (by simp) id (phase_late phase made)
  | release => exact slot_too (by simp [State.stopStep]) rfl fd id

end Threads

theorem step_kept {event : Event n} (kept : Kept state) (enabled : state.Enabled event) (ordered : Orderly state event) :
    Kept (state.next event) := by
  cases event with
  | cliDataStartDwld caller =>
    refine kept_idle kept (fun call there => ?_) fun call there => ?_
    · rw [show state.calls caller = none from enabled] at there
      cases there
    · obtain rfl := Option.some.inj there
      rfl
  | search caller =>
    obtain ⟨call,there,can⟩ := enabled
    cases call with
    | search i =>
      rw [State.next,there]
      refine search_kept kept there fun fileId same unused => ?_
      subst same
      exact ordered fileId there unused
    | _ => exact can.elim
  | insertFileDwldTask caller opened =>
    obtain ⟨call,there,can⟩ := enabled
    cases call with
    | insert fileId number =>
      rw [State.next,there]
      exact insertFileDwldTask_kept kept there
    | _ => exact can.elim
  | undo caller =>
    obtain ⟨call,there,can⟩ := enabled
    cases call with
    | undo fileId number =>
      rw [State.next,there]
      exact undo_kept kept there
    | _ => exact can.elim
  | cliDataStopDwld caller fileId =>
    rw [State.next]
    split
    · rename_i used last
      exact enter_kept kept enabled ordered used last
    · exact kept
  | stop caller =>
    obtain ⟨call,there,can⟩ := enabled
    cases call with
    | stop stop =>
      obtain ⟨fileId,number,place⟩ := stop
      obtain ⟨found,last,placed,phase⟩ := call_phase kept there rfl
      obtain rfl : number = found := phase_stop phase
      rw [State.next,there]
      exact stop_kept kept there last placed can phase
    | _ => exact can.elim
  | writeFileThr thread curInfo =>
    obtain ⟨writer,there,can⟩ := enabled
    have found : (state.downloads thread).writer = some writer := there
    rw [State.next,found]
    refine writeFileThr_kept kept found ?_
    rintro rfl
    exact can
  | stopAtEof thread =>
    rw [State.next]
    split_ifs
    · exact stopAtEof_kept kept enabled.1
    · exact kept
  | ownStop thread =>
    obtain ⟨place,there,_⟩ := enabled
    have found : (state.downloads thread).stop = some place := there
    rw [State.next,found]
    exact ownStop_kept kept found
  | semPost fileId => exact kept_view kept ⟨rfl,rfl,rfl,rfl⟩ rfl

theorem safe_of_kept (kept : Kept state) : Safe state where
  handed := fun number made past => ⟨(kept.past number made past).1,(kept.past number made past).2.1⟩
  stopped := fun caller stop there => by
    obtain ⟨number,_,_,phase⟩ := call_phase kept there rfl
    obtain ⟨fd,thread⟩ := phase_own phase
    rw [phase_stop phase]
    exact ⟨fd,thread⟩
  ended := fun thread stopping => by
    have sound := kept.sound thread
    have isEof := sound.told (Or.inr (Or.inr stopping))
    have here := kept.slot (state.downloads thread).fileId
    rw [SlotKept,thread_last kept (sound.made isEof) (Or.inr isEof)] at here
    obtain ⟨_,_,_,_,phase⟩ := here
    exact phase_own phase

theorem start_kept : Kept (start n) := by
  refine ⟨fun _ _ => rfl,fun _ => ⟨by simp [start],by simp [start],by simp [start],by simp [start]⟩,
    fun _ made => absurd rfl made,fun fileId => ?_⟩
  exact ⟨rfl,⟨rfl,rfl⟩,fun _ _ none => by cases none⟩

/-- In every run in which slots are given away and stopped in order, a slot comes to a new
download only when the thread of the one before has been joined and its file closed. -/
theorem slots_safe (run : (system n).Run Orderly (start n) state) : Safe state :=
  safe_of_kept (run_invariant start_kept step_kept run)

end Steps

/-- The two callers of the runs below. -/
def one : Fin 2 := ⟨0,Nat.zero_lt_two⟩

def other : Fin 2 := ⟨1,Nat.one_lt_two⟩

/-- Two downloads in the first slot, the second after the first has been stopped. -/
def oneAfterTheOther : List (Event 2) :=
  [.cliDataStartDwld one,.search one,.insertFileDwldTask one true,.semPost firstId,.writeFileThr 0 none,
    .writeFileThr 0 (some false),.writeFileThr 0 none,.cliDataStopDwld other firstId,.stop other,.stop other,
    .stop other,.stop other,.writeFileThr 0 none,.writeFileThr 0 none,.stop other,.stop other,.stop other,
    .stop other,.cliDataStartDwld one,.search one,.insertFileDwldTask one true]

theorem slots_safe_oneAfterTheOther : Safe (oneAfterTheOther.foldl (system 2).next (start 2)) :=
  slots_safe (run_of_events (by decide) .start)

/-- The write thread gives the slot up, another download gets it, and then the thread is joined. -/
def beforeTheJoin : List (Event 2) :=
  [.cliDataStartDwld one,.search one,.insertFileDwldTask one true,.cliDataStopDwld other firstId,.stop other,
    .stop other,.stop other,.stop other,.semPost firstId,.writeFileThr 0 none,.writeFileThr 0 none,
    .cliDataStartDwld one,.search one,.insertFileDwldTask one true,.writeFileThr 0 none,.stop other,.stop other]

/-- cliDataStopDwld of the first download is about to close the file of the second. -/
theorem stop_closes_new_download : (system 2).Follows anyEvent (start 2) beforeTheJoin ∧
    (beforeTheJoin.foldl (system 2).next (start 2)).calls other = some (.stop ⟨firstId,0,.close⟩) ∧
    ((beforeTheJoin.foldl (system 2).next (start 2)).slots firstId).fd = some 1 ∧
      ¬ Safe (beforeTheJoin.foldl (system 2).next (start 2)) := by
  have closing : (beforeTheJoin.foldl (system 2).next (start 2)).calls other = some (.stop ⟨firstId,0,.close⟩) := by
    decide
  have opened : ((beforeTheJoin.foldl (system 2).next (start 2)).slots firstId).fd = some 1 := by decide
  refine ⟨by decide,closing,opened,fun safe => ?_⟩
  exact absurd ((safe.stopped other _ closing).1 1 opened) (by decide)

end MoCodes.MoCloud.Client.SlotReuse
