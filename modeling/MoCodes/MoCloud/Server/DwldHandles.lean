import MoCodes.MoCloud.Server.CliCtrl
import MoCodes.Lib.Descriptors
import MoCodes.Lib.Transition

/-! The descriptors that downloads of all clients read from. `doStopDwld` closes that of a thread
which may still run, and then sets the handle, step by step while the other threads go on. The
files do not change. -/
namespace MoCodes.MoCloud.Server.DwldHandles
open Lib.Transition Lib.Descriptors

/-- What a descriptor stands for: a file that was opened and the place in it, or something else. -/
inductive OpenFile where
  | file (path : Text) (pos : Nat)
  | other
  deriving DecidableEq

/-- How far `doStopDwld` is: behind `close`, behind the handle set to -1, behind `stop`, behind the
`join` and the `erase`. -/
inductive StopPlace where
  | running | closed | cleared | stopped | erased
  deriving DecidableEq

/-- `handle` is what the thread has taken from `mReadHdl` for the call that it makes next. -/
structure Dwld where
  client : Nat
  path : Text
  thread : CliData
  handle : Option Int := none
  stop : StopPlace := .running
  deriving DecidableEq

/-- All the downloads that were ever started; with what was sent goes the place of its download. -/
structure Downloads where
  descriptors : Table OpenFile
  dwlds : List Dwld := []
  sent : List (Nat × Sent) := []

/-- The steps of `doStopDwld` for one download, and those of its thread, which takes the handle
before it calls `lseek` or `read`. -/
inductive Action where
  | close | clear | stop | join | fetch
  | run (count taken : Nat)

inductive DwldEvent where
  | start (client : Nat) (db : DbCtrl) (mDataSockId : Int) (info : DwldReqInfo) (pthreadCreate : Bool)
  | act (place : Nat) (action : Action)

namespace OpenFile

def path : OpenFile → Option Text
  | .file path _ => some path
  | .other => none

def moveTo (pos : Nat) : OpenFile → OpenFile
  | .file path _ => .file path pos
  | .other => .other

end OpenFile

def openedAt (descriptors : Table OpenFile) (fd : Int) : Option OpenFile :=
  if fd < 0 then none else opened descriptors fd.toNat

namespace Downloads

variable (disk : Text → Option Text) (mDirpath : Text) (state : Downloads)

/-- `open` for reading. -/
def openSys (path : Text) : Int := if (disk path).isSome then lowest state.descriptors else -1

/-- `lseek`: the place, or -1 for what is no file or a place before it. -/
def lseek (fd pos : Int) : Int :=
  if 0 ≤ pos ∧ ((openedAt state.descriptors fd).bind OpenFile.path).isSome then pos else -1

/-- `read` of a unit, which gives at most `count` bytes. -/
def read (fd : Int) (count : Nat) : Option Text :=
  match openedAt state.descriptors fd with
  | some (.file path pos) => (disk path).map fun content => (content.drop pos).take (min count dataUnitLen)
  | _ => none

def answer (thread : CliData) (fd : Int) (count taken : Nat) : DataAnswer where
  lseek := state.lseek fd (toInt (thread.unitId*dataUnitLen))
  read := state.read disk fd count
  taken := taken

/-- Where the call of the thread leaves the file that it is made on. -/
def moved (thread : CliData) (fd : Int) (count : Nat) : Table OpenFile :=
  match thread.place,openedAt state.descriptors fd with
  | .seek,some (.file _ _) =>
    let pos := state.lseek fd (toInt (thread.unitId*dataUnitLen))
    if pos < 0 then state.descriptors else change (OpenFile.moveTo pos.toNat) fd.toNat state.descriptors
  | .read,some (.file _ pos) =>
    let data := (state.read disk fd count).getD []
    change (OpenFile.moveTo (pos+data.length)) fd.toNat state.descriptors
  | _,_ => state.descriptors

/-- The thread of the client is in `doStopDwld`. -/
def busy (client : Nat) : Bool :=
  state.dwlds.any fun dwld => dwld.client = client ∧ dwld.stop ∈ [StopPlace.closed,.cleared,.stopped]

def mCliDataList (client : Nat) : List CliData :=
  (state.dwlds.filter fun dwld => dwld.client = client ∧ dwld.stop ≠ .erased).map Dwld.thread

/-- `doStartDwld` up to the new thread. -/
def start (client : Nat) (db : DbCtrl) (mDataSockId : Int) (info : DwldReqInfo) (pthreadCreate : Bool) :
    Option Downloads :=
  if state.busy client ∨ dwldTaskMaxNum ≤ (state.mCliDataList client).length ∨
    (state.mCliDataList client).any fun thread => thread.isOf info.key then none
  else
    match openFile db mDirpath (state.openSys disk) info.key,getAbsFilepath mDirpath info.key with
    | some (.ok fd),some path =>
      let thread := newCliData mDataSockId info fd pthreadCreate .login
      some
        { state with
          descriptors := give (.file path 0) state.descriptors
          dwlds := state.dwlds ++ [{client, path, thread}] }
    | _,_ => none

def put (place : Nat) (dwld : Dwld) : Downloads := {state with dwlds := state.dwlds.set place dwld}

def act (place : Nat) (dwld : Dwld) : Action → Option Downloads
  | .close =>
    if dwld.stop = .running ∧ !state.busy dwld.client then
      if dwld.thread.mReadHdl < 0 then some (state.put place {dwld with stop := .cleared})
      else
        some
          { state.put place {dwld with stop := .closed} with
            descriptors := close dwld.thread.mReadHdl.toNat state.descriptors }
    else none
  | .clear =>
    if dwld.stop = .closed then
      some (state.put place {dwld with stop := .cleared, thread := {dwld.thread with mReadHdl := -1}})
    else none
  | .stop =>
    if dwld.stop = .cleared then
      some (state.put place {dwld with stop := .stopped, thread := {dwld.thread with mIsRun := false}})
    else none
  | .join =>
    if dwld.stop = .stopped ∧ dwld.thread.place = .ended then
      some (state.put place {dwld with stop := .erased})
    else none
  | .fetch =>
    if dwld.thread.place ∈ [DataPlace.seek,.read] ∧ dwld.handle = none then
      some (state.put place {dwld with handle := some dwld.thread.mReadHdl})
    else none
  | .run count taken =>
    if dwld.thread.place = .ended ∨ dwld.thread.place ∈ [DataPlace.seek,.read] ∧ dwld.handle = none then none
    else
      let fd := dwld.handle.getD (-1)
      let (thread,sent) := dwld.thread.run (state.answer disk dwld.thread fd count taken)
      some
        { descriptors := state.moved disk dwld.thread fd count
          dwlds := state.dwlds.set place {dwld with thread, handle := none}
          sent := state.sent ++ sent.map (Prod.mk place) }

def step : DwldEvent → Option Downloads
  | .start client db mDataSockId info pthreadCreate =>
    state.start disk mDirpath client db mDataSockId info pthreadCreate
  | .act place action => (state.dwlds[place]?).bind fun dwld => state.act disk place dwld action

end Downloads

def dwldSystem (disk : Text → Option Text) (mDirpath : Text) : System Downloads DwldEvent where
  Enabled state event := (state.step disk mDirpath event).isSome
  next state event := (state.step disk mDirpath event).getD state

instance (disk : Text → Option Text) (mDirpath : Text) (state : Downloads) (event : DwldEvent) :
    Decidable ((dwldSystem disk mDirpath).Enabled state event) :=
  inferInstanceAs (Decidable (Option.isSome _))

namespace Dwld

variable (disk : Text → Option Text) (dwld : Dwld)

/-- The thread, if it has not ended, has the descriptor in `mReadHdl` or took it for its next call. -/
def Uses (fd : Int) : Prop :=
  dwld.thread.place ≠ .ended ∧ (dwld.thread.mReadHdl = fd ∨ dwld.handle = some fd)

instance (fd : Int) : Decidable (dwld.Uses fd) := inferInstanceAs (Decidable (_ ∧ (_ ∨ _)))

/-- The bytes stand in the file that was opened for the download. -/
def OfFile (bytes : Text) : Prop := ∃ content ∈ disk dwld.path, bytes <:+: content

instance (bytes : Text) : Decidable (dwld.OfFile disk bytes) :=
  inferInstanceAs (Decidable (∃ content ∈ disk dwld.path, bytes <:+: content))

/-- A header has the fileId of the download, and what follows it is of the download's file. -/
def Own : Sent → Prop
  | .dataHeader header _ => header.fileId = dwld.thread.mFileId
  | .data bytes => dwld.OfFile disk bytes
  | _ => False

end Dwld

/-- All that was sent for a download is its own. -/
def Downloads.Safe (disk : Text → Option Text) (state : Downloads) : Prop :=
  ∀ place sent, (place,sent) ∈ state.sent → ∃ dwld ∈ state.dwlds[place]?, dwld.Own disk sent

/-- No file is opened at a descriptor that a download thread still uses. -/
def Downloads.Unused (state : Downloads) : DwldEvent → Prop
  | .start .. => ∀ dwld ∈ state.dwlds, ¬ dwld.Uses (lowest state.descriptors)
  | .act _ _ => True

instance (state : Downloads) : DecidablePred state.Unused
  | .start .. => inferInstanceAs (Decidable (∀ dwld ∈ state.dwlds, ¬ dwld.Uses (lowest state.descriptors)))
  | .act _ _ => isTrue trivial

section Thread

variable {thread : CliData} {answer : DataAnswer} {bytes : Text} {sent : Sent}

/-- What a thread has read and has yet to send. -/
def carried : DataPlace → Option Text
  | .sendHeader data => some data
  | .sendBody data => some data
  | _ => none

theorem run_fields : (thread.run answer).1.mReadHdl = thread.mReadHdl ∧
    (thread.run answer).1.mFileId = thread.mFileId := by
  unfold CliData.run
  split
  · exact ⟨rfl,rfl⟩
  · exact ⟨rfl,rfl⟩
  · split <;> exact ⟨rfl,rfl⟩
  · exact ⟨rfl,rfl⟩
  · split_ifs <;> exact ⟨rfl,rfl⟩
  · exact ⟨rfl,rfl⟩
  · exact ⟨rfl,rfl⟩

theorem run_carried (carries : carried (thread.run answer).1.place = some bytes) :
    carried thread.place = some bytes ∨
      thread.place = .read ∧ ∃ data ∈ answer.read, bytes = data.take dataUnitLen := by
  unfold CliData.run at carries
  split at carries
  · dsimp only at carries
    split_ifs at carries <;> cases carries
  · dsimp only at carries
    split_ifs at carries <;> cases carries
  · rename_i place
    split at carries
    · cases carries
    · rename_i data read
      dsimp only at carries
      split_ifs at carries
      · cases carries
      · exact Or.inr ⟨place,data,read,(Option.some.inj carries).symm⟩
  · rename_i data place
    rw [place]
    exact Or.inl carries
  · split_ifs at carries <;> cases carries
  · cases carries
  · exact Or.inl carries

theorem run_sent (sends : sent ∈ (thread.run answer).2) :
    (∃ header taken, sent = .dataHeader header taken ∧ header.fileId = thread.mFileId) ∨
      ∃ data bytes, sent = .data bytes ∧ carried thread.place = some data ∧ bytes <+: data := by
  unfold CliData.run at sends
  split at sends
  · cases sends
  · cases sends
  · split at sends <;> cases sends
  · rw [List.mem_singleton.mp sends]
    exact Or.inl ⟨_,_,rfl,rfl⟩
  · rename_i data place
    right
    rw [place]
    split_ifs at sends
    · rw [List.mem_singleton.mp sends]
      exact ⟨data,_,rfl,rfl,List.take_prefix _ _⟩
    · rw [List.mem_singleton.mp sends]
      exact ⟨data,_,rfl,rfl,List.take_prefix _ _⟩
  · rw [List.mem_singleton.mp sends]
    exact Or.inl ⟨_,_,rfl,rfl⟩
  · cases sends

end Thread

section Tables

variable {descriptors after : Table OpenFile} {fd : Int}

/-- Nothing has been opened that was not open before. -/
def Keeps (descriptors after : Table OpenFile) : Prop :=
  ∀ fd, ∀ file ∈ openedAt after fd, ∃ old ∈ openedAt descriptors fd, file.path = old.path

theorem keeps_refl : Keeps descriptors descriptors := fun _ file there => ⟨file,there,rfl⟩

theorem keeps_of (numbers : ∀ fd, ∀ file ∈ opened after fd, ∃ old ∈ opened descriptors fd, file.path = old.path) :
    Keeps descriptors after := by
  intro fd file there
  unfold openedAt at there ⊢
  by_cases negative : fd < 0
  · rw [if_pos negative] at there
    cases there
  · rw [if_neg negative] at there ⊢
    exact numbers _ file there

theorem keeps_close (place : Nat) : Keeps descriptors (close place descriptors) := by
  apply keeps_of
  intro fd file there
  rw [opened_close] at there
  split_ifs at there
  · cases there
  · exact ⟨file,there,rfl⟩

theorem moveTo_path (pos : Nat) (file : OpenFile) : (file.moveTo pos).path = file.path := by
  cases file <;> rfl

theorem keeps_change (pos place : Nat) : Keeps descriptors (change (OpenFile.moveTo pos) place descriptors) := by
  apply keeps_of
  intro fd file there
  rw [opened_change] at there
  split_ifs at there with same
  · obtain ⟨old,before,rfl⟩ := Option.map_eq_some_iff.mp there
    exact ⟨old,by rw [same]; exact before,moveTo_path pos old⟩
  · exact ⟨file,there,rfl⟩

theorem keeps_moved {disk : Text → Option Text} {state : Downloads} {thread : CliData} {count : Nat} :
    Keeps state.descriptors (state.moved disk thread fd count) := by
  unfold Downloads.moved
  split
  · dsimp only
    split_ifs
    · exact keeps_refl
    · exact keeps_change _ _
  · exact keeps_change _ _
  · exact keeps_refl

theorem openedAt_give {new : OpenFile} : openedAt (give new descriptors) fd =
    if fd = lowest descriptors then some new else openedAt descriptors fd := by
  unfold openedAt
  by_cases negative : fd < 0
  · rw [if_pos negative,if_pos negative,if_neg (by omega)]
  · rw [if_neg negative,if_neg negative,opened_give]
    exact if_congr (by omega) rfl rfl

end Tables

/-- What a thread uses is closed or its own file, and so is what it carries. -/
structure Dwld.Sound (disk : Text → Option Text) (descriptors : Table OpenFile) (dwld : Dwld) : Prop where
  handle : ∀ fd, dwld.Uses fd → ∀ file ∈ openedAt descriptors fd, file.path = some dwld.path
  carried : ∀ bytes, carried dwld.thread.place = some bytes → dwld.OfFile disk bytes

structure Downloads.Sound (disk : Text → Option Text) (state : Downloads) : Prop where
  dwlds : ∀ dwld ∈ state.dwlds, dwld.Sound disk state.descriptors
  sent : state.Safe disk

section Steps

variable {disk : Text → Option Text} {mDirpath : Text} {state after : Downloads} {place : Nat} {dwld changed : Dwld}
  {descriptors : Table OpenFile}

theorem Dwld.Sound.keeps (sound : dwld.Sound disk state.descriptors) (keeps : Keeps state.descriptors descriptors) :
    dwld.Sound disk descriptors where
  handle := fun fd uses file there => by
    obtain ⟨old,before,same⟩ := keeps fd file there
    rw [same]
    exact sound.handle fd uses old before
  carried := sound.carried

theorem own_congr {sent : Sent} (path : changed.path = dwld.path)
    (fileId : changed.thread.mFileId = dwld.thread.mFileId) : changed.Own disk sent ↔ dwld.Own disk sent := by
  cases sent with
  | dataHeader header taken => simp only [Dwld.Own,fileId]
  | data bytes => simp only [Dwld.Own,Dwld.OfFile,path]
  | _ => exact Iff.rfl

theorem set_sound {sent : List Sent} (sound : state.Sound disk) (found : state.dwlds[place]? = some dwld)
    (keeps : Keeps state.descriptors descriptors) (path : changed.path = dwld.path)
    (fileId : changed.thread.mFileId = dwld.thread.mFileId) (good : changed.Sound disk descriptors)
    (own : ∀ item ∈ sent, dwld.Own disk item) :
    Downloads.Sound disk
      ⟨descriptors,state.dwlds.set place changed,state.sent ++ sent.map (Prod.mk place)⟩ where
  dwlds := fun other member => by
    rcases List.mem_or_eq_of_mem_set member with old | rfl
    · exact (sound.dwlds other old).keeps keeps
    · exact good
  sent := fun there item member => by
    have inside := (List.getElem?_eq_some_iff.mp found).1
    have owner : ∃ dwld ∈ state.dwlds[there]?, dwld.Own disk item := by
      rcases List.mem_append.mp member with old | new
      · exact sound.sent there item old
      · obtain ⟨sending,sends,pair⟩ := List.mem_map.mp new
        obtain ⟨rfl,rfl⟩ := Prod.mk.inj pair
        exact ⟨dwld,found,own sending sends⟩
    obtain ⟨dwld',found',owns⟩ := owner
    by_cases here : place = there
    · subst here
      obtain rfl : dwld = dwld' := Option.some.inj (found.symm.trans found')
      exact ⟨changed,List.getElem?_set_self inside,(own_congr path fileId).mpr owns⟩
    · exact ⟨dwld',by rw [Option.mem_def,List.getElem?_set_ne here]; exact found',owns⟩

/-- The same for a step that sends nothing and by which nothing more is used. -/
theorem put_sound (sound : state.Sound disk) (found : state.dwlds[place]? = some dwld)
    (keeps : Keeps state.descriptors descriptors) (path : changed.path = dwld.path)
    (fileId : changed.thread.mFileId = dwld.thread.mFileId) (same : changed.thread.place = dwld.thread.place)
    (uses : ∀ fd, 0 ≤ fd → changed.Uses fd → dwld.Uses fd) :
    Downloads.Sound disk {state.put place changed with descriptors} := by
  have good := sound.dwlds dwld (List.mem_of_getElem? found)
  have kept : Downloads.Sound disk ⟨descriptors,state.dwlds.set place changed,state.sent ++ [].map (Prod.mk place)⟩ :=
    set_sound sound found keeps path fileId ⟨?_,?_⟩ (by simp)
  · simpa [Downloads.put] using kept
  · intro fd using' file there
    rw [path]
    refine (good.keeps keeps).handle fd (uses fd ?_ using') file there
    by_contra negative
    simp [openedAt,not_le.mp negative] at there
  · intro bytes carries
    rw [same] at carries
    rw [Dwld.OfFile,path]
    exact good.carried bytes carries

theorem read_ofFile {fd : Int} {count : Nat} {data : Text} (sound : dwld.Sound disk state.descriptors)
    (uses : dwld.Uses fd) (read : state.read disk fd count = some data) : dwld.OfFile disk data := by
  unfold Downloads.read at read
  split at read
  · rename_i path pos there
    obtain ⟨content,stored,rfl⟩ := Option.map_eq_some_iff.mp read
    obtain rfl : path = dwld.path := Option.some.inj (sound.handle fd uses _ there)
    exact ⟨content,stored,(List.take_prefix _ _).isInfix.trans (List.drop_suffix _ _).isInfix⟩
  · cases read

theorem run_sound {count taken : Nat} (sound : state.Sound disk) (found : state.dwlds[place]? = some dwld)
    (ran : state.act disk place dwld (.run count taken) = some after) : after.Sound disk := by
  have good := sound.dwlds dwld (List.mem_of_getElem? found)
  simp only [Downloads.act] at ran
  split_ifs at ran with refused
  obtain rfl := Option.some.inj ran
  obtain ⟨running,held⟩ := not_or.mp refused
  let answer := state.answer disk dwld.thread (dwld.handle.getD (-1)) count taken
  obtain ⟨mReadHdl,mFileId⟩ : (dwld.thread.run answer).1.mReadHdl = dwld.thread.mReadHdl ∧
      (dwld.thread.run answer).1.mFileId = dwld.thread.mFileId := run_fields
  refine set_sound sound found keeps_moved rfl mFileId ⟨?_,?_⟩ ?_
  · rintro fd ⟨_,uses | taken⟩ file there
    · exact (good.keeps keeps_moved).handle fd ⟨running,Or.inl (mReadHdl ▸ uses)⟩ file there
    · cases taken
  · intro bytes carries
    rcases run_carried carries with before | ⟨reading,data,read,rfl⟩
    · exact good.carried bytes before
    · cases handle : dwld.handle with
      | none => exact absurd ⟨by simp [reading],handle⟩ held
      | some fd =>
        rw [handle] at read
        obtain ⟨content,stored,part⟩ := read_ofFile good ⟨running,Or.inr handle⟩ read
        exact ⟨content,stored,(List.take_prefix _ _).isInfix.trans part⟩
  · intro item sends
    rcases run_sent sends with ⟨header,_,rfl,fileId⟩ | ⟨data,bytes,rfl,carries,front⟩
    · exact fileId
    · obtain ⟨content,stored,part⟩ := good.carried data carries
      exact ⟨content,stored,front.isInfix.trans part⟩

theorem act_sound {action : Action} (sound : state.Sound disk) (found : state.dwlds[place]? = some dwld)
    (ran : state.act disk place dwld action = some after) : after.Sound disk := by
  cases action with
  | run count taken => exact run_sound sound found ran
  | close =>
    simp only [Downloads.act] at ran
    split_ifs at ran
    · obtain rfl := Option.some.inj ran
      exact put_sound sound found keeps_refl rfl rfl rfl fun fd _ uses => uses
    · obtain rfl := Option.some.inj ran
      exact put_sound sound found (keeps_close _) rfl rfl rfl fun fd _ uses => uses
  | clear =>
    simp only [Downloads.act] at ran
    split_ifs at ran
    obtain rfl := Option.some.inj ran
    refine put_sound sound found keeps_refl rfl rfl rfl ?_
    rintro fd number ⟨running,cleared | taken⟩
    · have negative : (-1 : Int) = fd := cleared
      omega
    · exact ⟨running,Or.inr taken⟩
  | stop =>
    simp only [Downloads.act] at ran
    split_ifs at ran
    obtain rfl := Option.some.inj ran
    exact put_sound sound found keeps_refl rfl rfl rfl fun fd _ uses => uses
  | join =>
    simp only [Downloads.act] at ran
    split_ifs at ran
    obtain rfl := Option.some.inj ran
    exact put_sound sound found keeps_refl rfl rfl rfl fun fd _ uses => uses
  | fetch =>
    simp only [Downloads.act] at ran
    split_ifs at ran
    obtain rfl := Option.some.inj ran
    refine put_sound sound found keeps_refl rfl rfl rfl ?_
    rintro fd _ ⟨running,uses | taken⟩
    · exact ⟨running,Or.inl uses⟩
    · exact ⟨running,Or.inl (Option.some.inj taken)⟩

/-- What `clear` and `stop` leave of the thread is what `doStopDwld` as one step makes of it. -/
theorem clear_stop {thread : CliData} (isOpen : 0 ≤ thread.mReadHdl) :
    {thread with mReadHdl := -1, mIsRun := false} = thread.closeStop := by
  rw [CliData.closeStop,if_neg (by omega)]

/-- The next file is opened at the descriptor that was closed, if no lower one is free. -/
theorem close_openSys {path : Text} (exists_file : (disk path).isSome) (isOpen : 0 ≤ dwld.thread.mReadHdl)
    (taken : ∀ lower < dwld.thread.mReadHdl.toNat, opened state.descriptors lower ≠ none)
    (ran : state.act disk place dwld .close = some after) : after.openSys disk path = dwld.thread.mReadHdl := by
  simp only [Downloads.act] at ran
  split_ifs at ran with free negative
  · omega
  · obtain rfl := Option.some.inj ran
    rw [Downloads.openSys,if_pos exists_file]
    dsimp only
    rw [lowest_close taken]
    omega

theorem openFile_lowest {db : DbCtrl} {key : FileinfoKey} {fd : Int}
    (opened : openFile db mDirpath (state.openSys disk) key = some (.ok fd)) : fd = lowest state.descriptors := by
  obtain ⟨isFileExist,_,opened⟩ := Option.map_eq_some_iff.mp opened
  split at opened
  · cases opened
  · split at opened
    · cases opened
    · split_ifs at opened with failed
      cases opened
      unfold Downloads.openSys at failed ⊢
      split_ifs at failed ⊢
      · rfl
      · exact absurd (by decide) failed

/-- The new thread has the file that was opened, and no other thread has the number. -/
theorem start_sound {client : Nat} {db : DbCtrl} {mDataSockId : Int} {info : DwldReqInfo} {pthreadCreate : Bool}
    (sound : state.Sound disk) (unused : ∀ dwld ∈ state.dwlds, ¬ dwld.Uses (lowest state.descriptors))
    (ran : state.start disk mDirpath client db mDataSockId info pthreadCreate = some after) : after.Sound disk := by
  unfold Downloads.start at ran
  split_ifs at ran
  split at ran
  · rename_i fd path opened named
    obtain rfl := Option.some.inj ran
    obtain rfl := openFile_lowest opened
    refine ⟨fun dwld member => ?_,fun place item sends => ?_⟩
    · rcases List.mem_append.mp member with old | new
      · refine ⟨fun fd uses file there => ?_,(sound.dwlds dwld old).carried⟩
        have apart : fd ≠ lowest state.descriptors := fun same => unused dwld old (same ▸ uses)
        rw [openedAt_give,if_neg apart] at there
        exact (sound.dwlds dwld old).handle fd uses file there
      · rw [List.mem_singleton.mp new]
        refine ⟨?_,fun bytes carries => ?_⟩
        · rintro fd ⟨_,rfl | taken⟩ file there
          · rw [openedAt_give,if_pos (by rfl)] at there
            exact Option.some.inj there ▸ rfl
          · cases taken
        · unfold newCliData at carries
          cases pthreadCreate <;> cases carries
    · obtain ⟨dwld,found,owns⟩ := sound.sent place item sends
      refine ⟨dwld,?_,owns⟩
      exact List.getElem?_append_left (List.getElem?_eq_some_iff.mp found).1 ▸ found
  · cases ran

end Steps

/-- In every run in which no file is opened at a descriptor that a thread still uses, each unit
that is sent for a download has its fileId and bytes of its own file. -/
theorem units_own {disk : Text → Option Text} {mDirpath : Text} {descriptors : Table OpenFile} {state : Downloads}
    (run : (dwldSystem disk mDirpath).Run Downloads.Unused {descriptors} state) : state.Safe disk := by
  refine (run_invariant (I := Downloads.Sound disk) ⟨?_,?_⟩ ?_ run).sent
  · intro dwld member
    cases member
  · intro place item sends
    cases sends
  · intro state event sound enabled unused
    obtain ⟨after,ran⟩ := Option.isSome_iff_exists.mp enabled
    have next : (dwldSystem disk mDirpath).next state event = after := by simp [dwldSystem,ran]
    rw [next]
    cases event with
    | start client db mDataSockId info pthreadCreate => exact start_sound sound unused ran
    | act place action =>
      obtain ⟨dwld,found,acted⟩ := Option.bind_eq_some_iff.mp ran
      exact act_sound sound found acted

def twoFiles (path : Text) : Option Text :=
  if path.getLast? = some 97 then some (text "first file") else some (text "other file")

/-- The download of the file with this name; each client has its data socket. -/
def startOf (client : Nat) (name : String) : DwldEvent :=
  .start client (.sqlite ⟨true,fun _ => ⟨0,[some (text "1")]⟩⟩) (4+client) ⟨⟨2,text name⟩,0,0⟩ true

/-- The thread goes through its loop once up to the end of a file of one unit. -/
def wholeLoop (place : Nat) : List DwldEvent :=
  [.act place (.run 0 0),.act place .fetch,.act place (.run 0 0),.act place .fetch,.act place (.run 1024 0)] ++
    List.replicate 3 (.act place (.run 0 1024))

/-- The thread has ended when its download is stopped, and the next download gets its descriptor. -/
theorem units_own_stopped :
    ∃ events, (dwldSystem twoFiles (text "/files")).Follows Downloads.Unused {descriptors := [some .other]} events ∧
      (events.foldl (dwldSystem twoFiles (text "/files")).next {descriptors := [some .other]}).Safe twoFiles := by
  refine ⟨startOf 0 "a" :: wholeLoop 0 ++ [.act 0 .close,startOf 1 "b",.act 0 .clear,.act 0 .stop,.act 0 .join] ++
    wholeLoop 1,by decide,?_⟩
  exact units_own (run_of_events (by decide) .start)

/-- The download is stopped between `lseek` and `read` of its thread, and then another client has
its file opened: the unit has bytes of that. -/
theorem units_of_other_file :
    let sys := dwldSystem twoFiles (text "/files")
    let events := startOf 0 "a" :: (wholeLoop 0).take 4 ++ [.act 0 .close,startOf 1 "b"] ++ (wholeLoop 0).drop 4
    sys.Follows anyEvent {descriptors := [some .other]} events ∧
      (0,.data (text "other file")) ∈ (events.foldl sys.next {descriptors := [some .other]}).sent ∧
      ¬ (events.foldl sys.next {descriptors := [some .other]}).Safe twoFiles := by
  intro sys events
  have sends : (0,.data (text "other file")) ∈ (events.foldl sys.next {descriptors := [some .other]}).sent := by
    decide
  refine ⟨by decide,sends,fun safe => ?_⟩
  obtain ⟨dwld,found,own⟩ := safe 0 _ sends
  have first : (events.foldl sys.next {descriptors := [some .other]}).dwlds[0]?.map Dwld.path =
      some (text "/files//Audio/a") := by decide
  rw [Option.mem_def.mp found] at first
  have path : dwld.path = text "/files//Audio/a" := Option.some.inj first
  have absent : ¬ ∃ content ∈ twoFiles (text "/files//Audio/a"), text "other file" <:+: content := by decide
  exact absent (path ▸ own)

end MoCodes.MoCloud.Server.DwldHandles
