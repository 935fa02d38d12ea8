import MoCodes.MoCloud.PrintInt
import MoCodes.MoCloud.Server.DataChannel

/-! All the downloads of one client: the calls of moCloudClientLib.c and cliData.c that start
and stop them, the threads that receive units and write files, the control socket, and the
threads of the server on the data socket. A unit carries the file it was read from, which no
code looks at. What happens in memory or in a stream that is out of order is left open. -/
namespace MoCodes.MoCloud
open Lib.Transition Server

def dwldTaskInfoMaxLen : Nat := filenameMaxLen+128

/-- The body of a request of doStartDwld or doStopDwld. -/
def dwldTaskInfo (key : FileinfoKey) (startOffset fileId : Int) : Text :=
  (text "filetype=" ++ printInt key.filetype ++ text ", filename=" ++ key.filename ++
    text ", startOffset=" ++ printInt startOffset ++ text ", fileId=" ++ printInt fileId).take
      (dwldTaskInfoMaxLen-1)

structure DwldUnit where
  key : FileinfoKey
  header : DataHeader
  body : Text

/-- DWLD_FILE_INFO; `fd` is the file that the open local file is for. writeFileThrMutex is
`locked` when a call has left it so. -/
structure DwldFileInfo where
  isUsing : Bool := false
  fileKey : FileinfoKey := ⟨0,[]⟩
  fd : Option FileinfoKey := none
  isStopWriteFileThr : Bool := false
  writeFileThr : Bool := false
  locked : Bool := false
  units : List DwldUnit := []

/-- What insertFileDwldTask makes of a slot. -/
def DwldFileInfo.insert (slot : DwldFileInfo) (key : FileinfoKey) : DwldFileInfo :=
  { slot with fd := some key, isStopWriteFileThr := false, writeFileThr := true, fileKey := key }

def DwldFileInfo.halt (slot : DwldFileInfo) : DwldFileInfo := { slot with isStopWriteFileThr := true }

def DwldFileInfo.release (slot : DwldFileInfo) : DwldFileInfo := { slot with isUsing := false }

/-- The next step of a call of startDownloadFile or stopDownloadFile. -/
inductive Call where
  | insertFileDwldTask (key : FileinfoKey) (startOffset : Int) (fileId : Nat)
  | doStartDwld (key : FileinfoKey) (startOffset : Int) (fileId : Nat)
  | startResp (fileId : Nat)
  | doStopDwld (key : FileinfoKey) (fileId : Nat)
  | stopResp (fileId : Nat)
  | cliDataStopDwld (fileId : Nat)
  | close (fileId : Nat)
  | free (fileId : Nat)

/-- Where a writeFileThr is. -/
inductive Writer where
  | look
  | handle (curInfo : DwldUnit)
  | leave

/-- Where the receive thread is. -/
inductive Receiver where
  | header
  | body (key : FileinfoKey) (number : Nat) (header : DataHeader)
  | save (unit : DwldUnit)

inductive Request where
  | start (body : Text)
  | stop (body : Text)

/-- `wire` is what is on the data socket; `lost` says that the receive thread is out of step
with it; `written` has the file of a unit and the file that the unit was written for. -/
structure Downloads where
  slots : Nat → DwldFileInfo := fun _ => {}
  calls : List Call := []
  writers : List (Nat × Writer) := []
  requests : List Request := []
  channel : DataChannel := {}
  joining : Option Nat := none
  wire : List (FileinfoKey × Nat × Sent) := []
  receiver : Receiver := .header
  lost : Bool := false
  written : List (FileinfoKey × FileinfoKey) := []

namespace Downloads

/-- `fileId` of a stop is the one in the list of tasks, and `told` the file that setDwldProgress
finds there. What is left open goes with an event: whether a call succeeds, what the system
answers, and what a receive thread that is out of step takes for a unit. -/
inductive Event where
  | start (key : FileinfoKey) (startOffset : Int)
  | stop (key : FileinfoKey) (fileId : Nat)
  | call (place : Nat) (ok : Bool)
  | writer (place : Nat) (told : Option FileinfoKey)
  | recv
  | cut
  | arrive (unit : DwldUnit)
  | save (malloc : Bool)
  | serve (fd : Option Int) (created : Bool)
  | run (place : Nat) (answer : DataAnswer)
  | joined

variable (downloads : Downloads)

def setSlot (fileId : Nat) (info : DwldFileInfo) : Downloads :=
  { downloads with slots := Function.update downloads.slots fileId info }

/-- The loop of cliDataStartDwld leaves the mutex of a slot in use locked. -/
def lockBelow (fileId : Nat) : Downloads :=
  { downloads with
    slots := fun i => { downloads.slots i with locked := (downloads.slots i).locked || decide (i < fileId) } }

/-- cliDataStartDwld up to insertFileDwldTask. It waits for ever at a mutex that is locked. -/
def startDwld (key : FileinfoKey) (startOffset : Int) : Option Downloads :=
  if (List.range dwldTaskMaxNum).any fun i =>
      (downloads.slots i).isUsing && (downloads.slots i).fileKey == key then none
  else
    match (List.range dwldTaskMaxNum).find? fun i =>
        (downloads.slots i).locked || !(downloads.slots i).isUsing with
    | none => some (downloads.lockBelow dwldTaskMaxNum)
    | some fileId =>
      if (downloads.slots fileId).locked then some (downloads.lockBelow fileId)
      else
        let reserved := downloads.setSlot fileId { downloads.slots fileId with isUsing := true }
        some
          { reserved.lockBelow fileId with
            calls := downloads.calls ++ [.insertFileDwldTask key startOffset fileId] }

def setCall (place : Nat) (call : Call) : Downloads :=
  { downloads with calls := downloads.calls.set place call }

def endCall (place : Nat) : Downloads :=
  { downloads with calls := downloads.calls.eraseIdx place }

/-- A join that a thread makes for itself returns at once, and so may any here. -/
def call (place : Nat) (ok : Bool) : Call → Option Downloads
  | .insertFileDwldTask key startOffset fileId =>
    let slot := downloads.slots fileId
    if slot.locked then none
    else if ok then
      some
        { (downloads.setSlot fileId (slot.insert key)).setCall place (.doStartDwld key startOffset fileId) with
          writers := downloads.writers ++ [(fileId,.look)] }
    else some ((downloads.setSlot fileId { slot with fd := none, isUsing := false }).endCall place)
  | .doStartDwld key startOffset fileId =>
    if ok then
      some
        { downloads.setCall place (.startResp fileId) with
          requests := downloads.requests ++ [.start (dwldTaskInfo key startOffset fileId)] }
    else some (downloads.setCall place (.cliDataStopDwld fileId))
  | .startResp fileId =>
    if ok then some (downloads.endCall place)
    else some (downloads.setCall place (.cliDataStopDwld fileId))
  | .doStopDwld key fileId =>
    if ok then
      some
        { downloads.setCall place (.stopResp fileId) with
          requests := downloads.requests ++ [.stop (dwldTaskInfo key 0 fileId)] }
    else some (downloads.setCall place (.cliDataStopDwld fileId))
  | .stopResp fileId => some (downloads.setCall place (.cliDataStopDwld fileId))
  | .cliDataStopDwld fileId =>
    let slot := downloads.slots fileId
    if dwldTaskMaxNum ≤ fileId ∨ !slot.isUsing then some (downloads.endCall place)
    else if slot.writeFileThr then
      some ((downloads.setSlot fileId slot.halt).setCall place (.close fileId))
    else some (downloads.setCall place (.free fileId))
  | .close fileId =>
    let slot := downloads.slots fileId
    some ((downloads.setSlot fileId { slot with writeFileThr := false, fd := none }).setCall place (.free fileId))
  | .free fileId =>
    let slot := downloads.slots fileId
    if slot.locked then none
    else some ((downloads.setSlot fileId slot.release).endCall place)

def setWriter (place : Nat) (writer : Nat × Writer) : Downloads :=
  { downloads with writers := downloads.writers.set place writer }

def writer (place : Nat) (told : Option FileinfoKey) : Nat × Writer → Option Downloads
  | (fileId,.look) =>
    let slot := downloads.slots fileId
    if slot.locked then none
    else if slot.isStopWriteFileThr then
      some ((downloads.setSlot fileId { slot with units := [], isUsing := false }).setWriter place (fileId,.leave))
    else
      match slot.units with
      | [] => some downloads
      | curInfo :: units =>
        some ((downloads.setSlot fileId { slot with units := units }).setWriter place (fileId,.handle curInfo))
  | (fileId,.handle curInfo) =>
    let slot := downloads.slots fileId
    if curInfo.header.isEof then
      some
        { (downloads.setSlot fileId slot.halt).setWriter place (fileId,.look) with
          calls := downloads.calls ++ (told.map fun key => .doStopDwld key fileId).toList }
    else
      slot.fd.map fun opened =>
        { downloads.setWriter place (fileId,.look) with
          written := downloads.written ++ [(curInfo.key,opened)] }
  | (fileId,.leave) =>
    let slot := downloads.slots fileId
    if slot.locked then none
    else
      some
        { downloads.setSlot fileId slot.release with
          writers := downloads.writers.eraseIdx place }

/-- getDataHeader or the readn of a body. -/
def recv : Option Downloads :=
  if downloads.lost then none
  else
    match downloads.receiver,downloads.wire with
    | .save _,_ => none
    | _,[] => none
    | .header,(key,number,.dataHeader header _) :: wire =>
      let receiver := if header.bodyLen = 0 then .save ⟨key,header,[]⟩ else .body key number header
      some { downloads with wire := wire, receiver := receiver }
    | .body key number header,(_,other,.data body) :: wire =>
      if other = number ∧ (body.length : Int) = header.bodyLen then
        some { downloads with wire := wire, receiver := .save ⟨key,header,body⟩ }
      else some { downloads with lost := true }
    | _,_ => some { downloads with lost := true }

def Receiving : Receiver → Prop
  | .save _ => False
  | _ => True

instance (receiver : Receiver) : Decidable (Receiving receiver) :=
  match receiver with
  | .save _ => isFalse id
  | .header => isTrue trivial
  | .body .. => isTrue trivial

/-- saveDataToBuffer looks at the slot of any number. -/
def save (malloc : Bool) : Option Downloads :=
  match downloads.receiver with
  | .save unit =>
    if unit.header.fileId < 0 ∨ dwldTaskMaxNum ≤ unit.header.fileId then
      some { downloads with receiver := .header, lost := true }
    else
      let slot := downloads.slots unit.header.fileId.toNat
      if slot.locked then none
      else if slot.isStopWriteFileThr ∨ !malloc then some { downloads with receiver := .header }
      else
        some
          { downloads.setSlot unit.header.fileId.toNat { slot with units := slot.units ++ [unit] } with
            receiver := .header }
  | _ => none

variable (mDataSockId : Int)

/-- The next request, unless the server is in the join of a thread. -/
def serve (fd : Option Int) (created : Bool) : Option Downloads :=
  match downloads.joining,downloads.requests with
  | none,.start body :: requests =>
    (getDwldReqInfo (some body)).map fun read =>
      let channel :=
        match read,fd with
        | .ok info,some fd =>
          (downloads.channel.step mDataSockId (.start info fd created .login)).getD downloads.channel
        | _,_ => downloads.channel
      { downloads with requests := requests, channel := channel }
  | none,.stop body :: requests =>
    (getDwldReqInfo (some body)).map fun read =>
      match read with
      | .error _ => { downloads with requests := requests }
      | .ok info =>
        match downloads.channel.mCliDataList.findIdx? fun thread => thread.2.isOf info.key with
        | none => { downloads with requests := requests }
        | some place =>
          { downloads with
            requests := requests
            channel := (downloads.channel.step mDataSockId (.stop place)).getD downloads.channel
            joining := some place }
  | _,_ => none

def runThread (place : Nat) (answer : DataAnswer) : Option Downloads :=
  (downloads.channel.mCliDataList[place]?).bind fun thread =>
    (downloads.channel.step mDataSockId (.run place answer)).map fun channel =>
      { downloads with
        channel := channel
        wire := downloads.wire ++ (thread.2.run answer).2.map fun sent => (thread.2.mKey,thread.1,sent) }

def step : Event → Option Downloads
  | .start key startOffset => downloads.startDwld key startOffset
  | .stop key fileId => some { downloads with calls := downloads.calls ++ [.doStopDwld key fileId] }
  | .call place ok => (downloads.calls[place]?).bind fun call => downloads.call place ok call
  | .writer place told => (downloads.writers[place]?).bind fun writer => downloads.writer place told writer
  | .recv => downloads.recv
  | .cut =>
    if downloads.lost ∨ ¬ Receiving downloads.receiver then none else some { downloads with lost := true }
  | .arrive unit =>
    if downloads.lost ∧ Receiving downloads.receiver then some { downloads with receiver := .save unit }
    else none
  | .save malloc => downloads.save malloc
  | .serve fd created => downloads.serve mDataSockId fd created
  | .run place answer => downloads.runThread mDataSockId place answer
  | .joined =>
    downloads.joining.bind fun place =>
      (downloads.channel.step mDataSockId (.joined place)).map fun channel =>
        { downloads with channel := channel, joining := none }

def downloadsSystem : System Downloads Event where
  Enabled downloads event := (downloads.step mDataSockId event).isSome
  next downloads event := (downloads.step mDataSockId event).getD downloads

instance (event : Event) : Decidable ((downloadsSystem mDataSockId).Enabled downloads event) :=
  inferInstanceAs (Decidable (Option.isSome _))

/-- A unit of the file, a thread that can send one or a request for one has the number. -/
inductive Carries : Int → FileinfoKey → Prop where
  | request {body : Text} {info : DwldReqInfo} : .start body ∈ downloads.requests →
      getDwldReqInfo (some body) = some (.ok info) → Carries info.fileId info.key
  | thread {thread : Nat × CliData} : thread ∈ downloads.channel.mCliDataList → thread.2.place ≠ .ended →
      Carries thread.2.mFileId thread.2.mKey
  | wire {key : FileinfoKey} {number bytes : Nat} {header : DataHeader} :
      (key,number,.dataHeader header bytes) ∈ downloads.wire → Carries header.fileId key
  | body {key : FileinfoKey} {number : Nat} {header : DataHeader} :
      downloads.receiver = .body key number header → Carries header.fileId key
  | save {unit : DwldUnit} : downloads.receiver = .save unit → Carries unit.header.fileId unit.key
  | listed {fileId : Nat} {unit : DwldUnit} : unit ∈ (downloads.slots fileId).units → Carries fileId unit.key
  | held {fileId : Nat} {unit : DwldUnit} : (fileId,.handle unit) ∈ downloads.writers →
      Carries fileId unit.key

/-- The number is that of a slot, and the slot is not open for another file. -/
def Fits (fileId : Int) (key : FileinfoKey) : Prop :=
  (0 ≤ fileId ∧ fileId < dwldTaskMaxNum) ∧
    ∀ opened, (downloads.slots fileId.toNat).fd = some opened → opened = key

/-- A slot is opened for a file only when nothing of another file has its number, the server
reads a request to start as one that fits, no thread writes inside the unit of another, and
no unit is received in part. -/
def Clear : Event → Prop
  | .call place ok => ok = true →
      (∀ key startOffset fileId, downloads.calls[place]? = some (.insertFileDwldTask key startOffset fileId) →
        ∀ other, downloads.Carries fileId other → other = key) ∧
      ∀ key startOffset fileId, downloads.calls[place]? = some (.doStartDwld key startOffset fileId) →
        ∀ info, getDwldReqInfo (some (dwldTaskInfo key startOffset fileId)) = some (.ok info) →
          downloads.Fits info.fileId info.key
  | .run place answer => DataChannel.Alone downloads.channel (.run place answer)
  | .cut => False
  | _ => True

/-- No unit has been written to the local file of another file. -/
def Isolated : Prop := ∀ entry ∈ downloads.written, entry.1 = entry.2


section Threads

variable {thread : CliData} {answer : DataAnswer}

theorem run_ended (ended : thread.place = .ended) : thread.run answer = (thread,[]) := by
  simp only [CliData.run,ended]

theorem run_file : (thread.run answer).1.mFileId = thread.mFileId ∧ (thread.run answer).1.mKey = thread.mKey := by
  unfold CliData.run
  cases thread.place with
  | read =>
    cases answer.read with
    | none => exact ⟨rfl,rfl⟩
    | some data => exact ⟨rfl,rfl⟩
  | sendBody data =>
    dsimp only
    split
    · exact ⟨rfl,rfl⟩
    · exact ⟨rfl,rfl⟩
  | _ => exact ⟨rfl,rfl⟩

theorem run_header_file {header : DataHeader} {bytes : Nat}
    (sent : .dataHeader header bytes ∈ (thread.run answer).2) :
    header.fileId = thread.mFileId ∧ thread.place ≠ .ended := by
  unfold CliData.run at sent
  cases place : thread.place with
  | read =>
    rw [place] at sent
    cases read : answer.read <;> simp [read] at sent
  | sendHeader data =>
    simp only [place,CliData.sendHeader,List.mem_singleton,Sent.dataHeader.injEq] at sent
    exact ⟨by rw [sent.1]; rfl,fun ended => by cases ended⟩
  | sendBody data =>
    simp only [place] at sent
    split at sent <;> simp [CliData.sendBody] at sent
  | sendEof =>
    simp only [place,CliData.sendHeader,List.mem_singleton,Sent.dataHeader.injEq] at sent
    exact ⟨by rw [sent.1]; rfl,fun ended => by cases ended⟩
  | _ => simp [place] at sent

end Threads

section Carried

variable {before after downloads : Downloads}

/-- All that carries a number for a file did so before. -/
structure Within (after before : Downloads) : Prop where
  requests {body : Text} {info : DwldReqInfo} : .start body ∈ after.requests →
    getDwldReqInfo (some body) = some (.ok info) → before.Carries info.fileId info.key
  threads {thread : Nat × CliData} : thread ∈ after.channel.mCliDataList → thread.2.place ≠ .ended →
    before.Carries thread.2.mFileId thread.2.mKey
  wire {key : FileinfoKey} {number bytes : Nat} {header : DataHeader} :
    (key,number,.dataHeader header bytes) ∈ after.wire → before.Carries header.fileId key
  body {key : FileinfoKey} {number : Nat} {header : DataHeader} :
    after.receiver = .body key number header → before.Carries header.fileId key
  save {unit : DwldUnit} : after.receiver = .save unit → before.Carries unit.header.fileId unit.key
  listed {fileId : Nat} {unit : DwldUnit} : unit ∈ (after.slots fileId).units → before.Carries fileId unit.key
  held {fileId : Nat} {unit : DwldUnit} : (fileId,.handle unit) ∈ after.writers →
    before.Carries fileId unit.key

theorem within_refl (downloads : Downloads) : Within downloads downloads :=
  ⟨.request,.thread,.wire,.body,.save,.listed,.held⟩

theorem within_carries {fileId : Int} {key : FileinfoKey} (within : Within after before)
    (carries : after.Carries fileId key) : before.Carries fileId key := by
  cases carries with
  | request member read => exact within.requests member read
  | thread member alive => exact within.threads member alive
  | wire member => exact within.wire member
  | body here => exact within.body here
  | save here => exact within.save here
  | listed member => exact within.listed member
  | held member => exact within.held member

/-- Besides that no slot has been opened and no unit written. -/
structure Quiet (after before : Downloads) : Prop extends Within after before where
  opened {fileId : Nat} {file : FileinfoKey} :
    (after.slots fileId).fd = some file → (before.slots fileId).fd = some file
  written : after.written = before.written

theorem quiet_refl (downloads : Downloads) : Quiet downloads downloads :=
  { within_refl downloads with opened := id, written := rfl }

/-- What a step may do to a slot without opening it. -/
structure Less (after before : DwldFileInfo) : Prop where
  units : ∀ unit ∈ after.units, unit ∈ before.units
  fd : ∀ file, after.fd = some file → before.fd = some file

theorem less_setSlot {fileId : Nat} {info : DwldFileInfo} (less : Less info (downloads.slots fileId))
    (other : Nat) : Less ((downloads.setSlot fileId info).slots other) (downloads.slots other) := by
  by_cases same : other = fileId
  · subst same
    simpa [setSlot] using less
  · have kept : (downloads.setSlot fileId info).slots other = downloads.slots other := by
      simp [setSlot,same]
    rw [kept]
    exact ⟨fun _ here => here,fun _ here => here⟩

theorem quiet_slots (downloads : Downloads) (calls : List Call) {slots : Nat → DwldFileInfo}
    (less : ∀ fileId, Less (slots fileId) (downloads.slots fileId)) :
    Quiet { downloads with slots := slots, calls := calls } downloads :=
  { quiet_refl downloads with
    listed := fun member => .listed ((less _).units _ member)
    opened := fun here => (less _).fd _ here }

theorem quiet_calls (downloads : Downloads) {calls : List Call} :
    Quiet { downloads with calls := calls } downloads :=
  { quiet_refl downloads with }

theorem held_append {fileId other : Nat} {unit : DwldUnit}
    (member : (fileId,.handle unit) ∈ downloads.writers ++ [(other,.look)]) :
    (fileId,.handle unit) ∈ downloads.writers := by
  simpa using member

theorem held_set {downloads : Downloads} {place fileId : Nat} {unit : DwldUnit} {writer : Nat × Writer}
    (member : (fileId,.handle unit) ∈ downloads.writers.set place writer) :
    (fileId,.handle unit) = writer ∨ (fileId,.handle unit) ∈ downloads.writers :=
  (List.mem_or_eq_of_mem_set member).symm

theorem startDwld_quiet {key : FileinfoKey} {startOffset : Int}
    (ran : downloads.startDwld key startOffset = some after) : Quiet after downloads := by
  unfold startDwld at ran
  split_ifs at ran
  split at ran
  · cases ran
    exact quiet_slots downloads _ fun _ => ⟨fun _ here => here,fun _ here => here⟩
  · rename_i fileId _
    split_ifs at ran
    · cases ran
      exact quiet_slots downloads _ fun _ => ⟨fun _ here => here,fun _ here => here⟩
    · cases ran
      have less : Less { downloads.slots fileId with isUsing := true } (downloads.slots fileId) :=
        ⟨fun _ here => here,fun _ here => here⟩
      exact quiet_slots downloads _ fun other => ⟨(less_setSlot less other).units,(less_setSlot less other).fd⟩

theorem insert_within {place fileId : Nat} {key : FileinfoKey} {startOffset : Int}
    (ran : downloads.call place true (.insertFileDwldTask key startOffset fileId) = some after) :
    Within after downloads ∧ after.written = downloads.written ∧
      ∀ other, (after.slots other).fd = if other = fileId then some key else (downloads.slots other).fd := by
  simp only [Downloads.call,if_true] at ran
  split_ifs at ran
  cases ran
  have units : ∀ other, ((downloads.setSlot fileId ((downloads.slots fileId).insert key)).slots other).units =
      (downloads.slots other).units := by
    intro other
    by_cases same : other = fileId
    · subst same
      simp [setSlot,DwldFileInfo.insert]
    · simp [setSlot,same]
  refine ⟨?_,rfl,fun other => ?_⟩
  · exact
      { within_refl downloads with
        listed := fun {other} {unit} member => .listed (by rw [← units]; exact member)
        held := fun member => .held (held_append member) }
  · change ((downloads.setSlot fileId ((downloads.slots fileId).insert key)).slots other).fd = _
    by_cases same : other = fileId
    · subst same
      simp [setSlot,DwldFileInfo.insert]
    · simp [setSlot,same]

theorem call_quiet {place : Nat} {ok : Bool} {call : Call}
    (opens : ok = true → ∀ key startOffset fileId, call ≠ .insertFileDwldTask key startOffset fileId)
    (asks : ok = true → ∀ key startOffset fileId, call ≠ .doStartDwld key startOffset fileId)
    (ran : downloads.call place ok call = some after) : Quiet after downloads := by
  cases call with
  | insertFileDwldTask key startOffset fileId =>
    simp only [Downloads.call] at ran
    split_ifs at ran with _ done
    · exact absurd rfl (opens done key startOffset fileId)
    · cases ran
      exact quiet_slots downloads _ (less_setSlot ⟨fun _ here => here,nofun⟩)
  | doStartDwld key startOffset fileId =>
    simp only [Downloads.call] at ran
    split_ifs at ran with done
    · exact absurd rfl (asks done key startOffset fileId)
    · cases ran
      exact quiet_calls downloads
  | startResp fileId =>
    simp only [Downloads.call] at ran
    split_ifs at ran
    · cases ran
      exact quiet_calls downloads
    · cases ran
      exact quiet_calls downloads
  | doStopDwld key fileId =>
    simp only [Downloads.call] at ran
    split_ifs at ran
    · cases ran
      refine { quiet_refl downloads with requests := fun member read => ?_ }
      exact .request (by simpa using member) read
    · cases ran
      exact quiet_calls downloads
  | stopResp fileId =>
    cases ran
    exact quiet_calls downloads
  | cliDataStopDwld fileId =>
    simp only [Downloads.call] at ran
    split_ifs at ran
    · cases ran
      exact quiet_calls downloads
    · cases ran
      exact quiet_slots downloads _ (less_setSlot ⟨fun _ here => here,fun _ here => here⟩)
    · cases ran
      exact quiet_calls downloads
  | close fileId =>
    cases ran
    exact quiet_slots downloads _ (less_setSlot ⟨fun _ here => here,nofun⟩)
  | free fileId =>
    simp only [Downloads.call] at ran
    split_ifs at ran
    cases ran
    exact quiet_slots downloads _ (less_setSlot ⟨fun _ here => here,fun _ here => here⟩)

/-- A step of a writer that neither takes a unit nor writes one. -/
theorem quiet_writers (downloads : Downloads) {slots : Nat → DwldFileInfo} {writers : List (Nat × Writer)}
    {calls : List Call} (less : ∀ fileId, Less (slots fileId) (downloads.slots fileId))
    (held : ∀ fileId unit, (fileId,.handle unit) ∈ writers → (fileId,.handle unit) ∈ downloads.writers) :
    Quiet { downloads with slots := slots, writers := writers, calls := calls } downloads :=
  { quiet_slots downloads calls less with held := fun member => .held (held _ _ member) }

theorem writer_quiet {place : Nat} {told : Option FileinfoKey} {writer : Nat × Writer}
    (found : downloads.writers[place]? = some writer)
    (writes : ∀ fileId curInfo, writer = (fileId,.handle curInfo) → curInfo.header.isEof = true)
    (ran : downloads.writer place told writer = some after) : Quiet after downloads := by
  obtain ⟨fileId,writer⟩ := writer
  cases writer with
  | look =>
    simp only [Downloads.writer] at ran
    split_ifs at ran
    · cases ran
      refine quiet_writers downloads (less_setSlot ⟨nofun,fun _ here => here⟩) fun other unit member => ?_
      exact (held_set member).resolve_left nofun
    · split at ran
      · cases ran
        exact quiet_refl _
      · rename_i curInfo units split
        cases ran
        have less : Less { downloads.slots fileId with units := units } (downloads.slots fileId) :=
          ⟨fun _ here => by rw [split]; exact List.mem_cons_of_mem _ here,fun _ here => here⟩
        refine { quiet_slots downloads downloads.calls (less_setSlot less) with held := fun member => ?_ }
        rcases held_set member with here | old
        · cases here
          exact .listed (by rw [split]; exact List.mem_cons_self)
        · exact .held old
  | handle curInfo =>
    simp only [Downloads.writer,writes fileId curInfo rfl,if_true] at ran
    cases ran
    have less : Less (downloads.slots fileId).halt (downloads.slots fileId) :=
      ⟨fun _ here => here,fun _ here => here⟩
    refine quiet_writers downloads (less_setSlot less) fun other unit member => ?_
    exact (held_set member).resolve_left nofun
  | leave =>
    simp only [Downloads.writer] at ran
    split_ifs at ran
    cases ran
    have less : Less (downloads.slots fileId).release (downloads.slots fileId) :=
      ⟨fun _ here => here,fun _ here => here⟩
    exact quiet_writers downloads (less_setSlot less) fun _ _ member =>
      (List.eraseIdx_sublist _ _).subset member

/-- What is written to an open file was held by the writer of its slot. -/
theorem writer_writes {place fileId : Nat} {told : Option FileinfoKey} {curInfo : DwldUnit}
    (writes : curInfo.header.isEof = false)
    (ran : downloads.writer place told (fileId,.handle curInfo) = some after) :
    Within after downloads ∧ after.slots = downloads.slots ∧
      ∃ opened, (downloads.slots fileId).fd = some opened ∧
        after.written = downloads.written ++ [(curInfo.key,opened)] := by
  simp only [Downloads.writer,writes,Bool.false_eq_true,if_false] at ran
  obtain ⟨opened,here,rfl⟩ := Option.map_eq_some_iff.mp ran
  refine ⟨{ within_refl downloads with held := fun member => .held ?_ },rfl,opened,here,rfl⟩
  exact (held_set member).resolve_left nofun

theorem recv_quiet (ran : downloads.recv = some after) : Quiet after downloads := by
  unfold recv at ran
  split_ifs at ran
  split at ran
  · cases ran
  · cases ran
  · rename_i key number header bytes wire _ first
    cases ran
    have carried : downloads.Carries header.fileId key := .wire (by rw [first]; exact List.mem_cons_self)
    refine
      { quiet_refl downloads with
        wire := fun member => .wire (by rw [first]; exact List.mem_cons_of_mem _ member)
        body := fun here => ?_
        save := fun here => ?_ }
    · dsimp only at here
      split at here
      · cases here
      · cases here
        exact carried
    · dsimp only at here
      split at here
      · cases here
        exact carried
      · cases here
  · rename_i key number header _ other body wire here first
    split_ifs at ran
    · cases ran
      refine
        { quiet_refl downloads with
          wire := fun member => .wire (by rw [first]; exact List.mem_cons_of_mem _ member)
          body := nofun
          save := fun same => ?_ }
      cases same
      exact .body here
    · cases ran
      exact { quiet_refl downloads with }
  · cases ran
    exact { quiet_refl downloads with }

theorem save_quiet {malloc : Bool} (ran : downloads.save malloc = some after) : Quiet after downloads := by
  unfold save at ran
  split at ran
  · rename_i unit here
    dsimp only at ran
    split_ifs at ran with outside
    · cases ran
      exact { quiet_refl downloads with body := nofun, save := nofun }
    · cases ran
      exact { quiet_refl downloads with body := nofun, save := nofun }
    · cases ran
      refine
        { quiet_refl downloads with
          body := nofun
          save := nofun
          listed := fun {fileId other} member => ?_
          opened := fun {fileId file} here => ?_ }
      · by_cases same : fileId = unit.header.fileId.toNat
        · subst same
          have inside : (unit.header.fileId.toNat : Int) = unit.header.fileId := by omega
          have split : other ∈ (downloads.slots unit.header.fileId.toNat).units ∨ other = unit := by
            simpa [setSlot] using member
          rcases split with old | rfl
          · exact .listed old
          · rw [inside]
            exact .save here
        · exact .listed (by simpa [setSlot,same] using member)
      · by_cases same : fileId = unit.header.fileId.toNat
        · subst same
          simpa [setSlot] using here
        · simpa [setSlot,same] using here
  · cases ran

end Carried

section Server

variable {mDataSockId : Int} {channel : DataChannel} {downloads after : Downloads}

theorem start_threads {info : DwldReqInfo} {fd : Int} {created : Bool} {asked : CliState} {thread : Nat × CliData}
    (member : thread ∈
      ((channel.step mDataSockId (.start info fd created asked)).getD channel).mCliDataList) :
    thread ∈ channel.mCliDataList ∨ thread.2.mFileId = info.fileId ∧ thread.2.mKey = info.key := by
  simp only [DataChannel.step] at member
  split_ifs at member
  · rcases List.mem_append.mp member with old | last
    · exact .inl old
    · rw [List.mem_singleton.mp last]
      exact .inr ⟨rfl,rfl⟩
  · exact .inl member

theorem stop_threads {place : Nat} {thread : Nat × CliData}
    (member : thread ∈ ((channel.step mDataSockId (.stop place)).getD channel).mCliDataList) :
    ∃ old ∈ channel.mCliDataList, old.2.place = thread.2.place ∧ old.2.mFileId = thread.2.mFileId ∧
      old.2.mKey = thread.2.mKey := by
  simp only [DataChannel.step] at member
  cases found : channel.mCliDataList[place]? with
  | none =>
    rw [found] at member
    exact ⟨thread,member,rfl,rfl,rfl⟩
  | some stopped =>
    rw [found] at member
    rcases List.mem_or_eq_of_mem_set member with old | here
    · exact ⟨thread,old,rfl,rfl,rfl⟩
    · rw [here]
      exact ⟨stopped,List.mem_of_getElem? found,rfl,rfl,rfl⟩

theorem serve_quiet {fd : Option Int} {created : Bool}
    (ran : downloads.serve mDataSockId fd created = some after) : Quiet after downloads := by
  unfold serve at ran
  split at ran
  · rename_i body requests _ first
    obtain ⟨read,got,rfl⟩ := Option.map_eq_some_iff.mp ran
    have rest : ∀ {request}, request ∈ requests → request ∈ downloads.requests := fun member => by
      rw [first]
      exact List.mem_cons_of_mem _ member
    refine
      { quiet_refl downloads with
        requests := fun member read => .request (rest member) read
        threads := fun {thread} member alive => ?_ }
    dsimp only at member
    split at member
    · rename_i info fd
      rcases start_threads member with old | ⟨same,file⟩
      · exact .thread old alive
      · rw [same,file]
        exact .request (by rw [first]; exact List.mem_cons_self) got
    · exact .thread member alive
  · rename_i body requests _ first
    obtain ⟨read,got,rfl⟩ := Option.map_eq_some_iff.mp ran
    have rest : ∀ {request}, request ∈ requests → request ∈ downloads.requests := fun member => by
      rw [first]
      exact List.mem_cons_of_mem _ member
    split
    · exact { quiet_refl downloads with requests := fun member read => .request (rest member) read }
    · split
      · exact { quiet_refl downloads with requests := fun member read => .request (rest member) read }
      · refine
          { quiet_refl downloads with
            requests := fun member read => .request (rest member) read
            threads := fun {thread} member alive => ?_ }
        obtain ⟨old,before,same,number,file⟩ := stop_threads member
        rw [← number,← file]
        exact .thread before (by rw [same]; exact alive)
  · cases ran

theorem runThread_quiet {place : Nat} {answer : DataAnswer}
    (ran : downloads.runThread mDataSockId place answer = some after) : Quiet after downloads := by
  obtain ⟨thread,found,ran⟩ := Option.bind_eq_some_iff.mp ran
  obtain ⟨channel,moved,rfl⟩ := Option.map_eq_some_iff.mp ran
  obtain ⟨_,other,there,rfl⟩ := DataChannel.step_run moved
  rw [found] at there
  cases there
  have alive : (thread.2.run answer).1.place ≠ .ended → thread.2.place ≠ .ended := by
    intro running ended
    rw [run_ended ended] at running
    exact running ended
  refine
    { quiet_refl downloads with
      threads := fun {other} member running => ?_
      wire := fun {key number bytes header} member => ?_ }
  · rcases List.mem_or_eq_of_mem_set member with old | here
    · exact .thread old running
    · rw [here] at running ⊢
      rw [run_file.1,run_file.2]
      exact .thread (List.mem_of_getElem? found) (alive running)
  · rcases List.mem_append.mp member with old | new
    · exact .wire old
    · obtain ⟨sent,inside,same⟩ := List.mem_map.mp new
      cases same
      obtain ⟨number,running⟩ := run_header_file inside
      rw [number]
      exact .thread (List.mem_of_getElem? found) running

theorem joined_quiet (ran : downloads.step mDataSockId .joined = some after) : Quiet after downloads := by
  obtain ⟨place,_,ran⟩ := Option.bind_eq_some_iff.mp ran
  obtain ⟨channel,moved,rfl⟩ := Option.map_eq_some_iff.mp ran
  obtain ⟨thread,_,ended⟩ := Option.bind_eq_some_iff.mp moved
  split_ifs at ended
  cases ended
  exact
    { quiet_refl downloads with
      threads := fun member alive => .thread ((List.eraseIdx_sublist _ _).subset member) alive }

end Server

section Stream

variable {mDataSockId : Int} {channel : DataChannel} {downloads after : Downloads}

/-- The body that the receive thread is to read, with the number of its thread. -/
def waiting : Receiver → Option (Nat × Int)
  | .body _ number header => some (number,header.bodyLen)
  | _ => none

/-- The receive thread is in step with whole units on the socket. -/
structure Reading (mDataSockId : Int) (downloads : Downloads) : Prop where
  ordered : DataChannel.Ordered mDataSockId downloads.channel
  inStep : downloads.lost = false
  place : ∃ consumed, downloads.channel.written = consumed ++ downloads.wire.map Prod.snd ∧
    consumed.foldlM DataChannel.expect none = some (waiting downloads.receiver)

/-- What the calls and the writers do not touch. -/
def stream (downloads : Downloads) : DataChannel × List (FileinfoKey × Nat × Sent) × Receiver × Bool :=
  (downloads.channel,downloads.wire,downloads.receiver,downloads.lost)

theorem reading_stream (reading : Reading mDataSockId downloads) (same : after.stream = downloads.stream) :
    Reading mDataSockId after := by
  obtain ⟨channel,wire,receiver,lost⟩ : after.channel = downloads.channel ∧ after.wire = downloads.wire ∧
      after.receiver = downloads.receiver ∧ after.lost = downloads.lost := by
    simpa [stream] using same
  exact ⟨by rw [channel]; exact reading.ordered,by rw [lost]; exact reading.inStep,
    by rw [channel,wire,receiver]; exact reading.place⟩

theorem startDwld_stream {key : FileinfoKey} {startOffset : Int}
    (ran : downloads.startDwld key startOffset = some after) : after.stream = downloads.stream := by
  unfold startDwld at ran
  split_ifs at ran
  split at ran
  · cases ran
    rfl
  · split_ifs at ran
    · cases ran
      rfl
    · cases ran
      rfl

theorem call_stream {place : Nat} {ok : Bool} {call : Call} (ran : downloads.call place ok call = some after) :
    after.stream = downloads.stream := by
  cases call with
  | stopResp fileId =>
    cases ran
    rfl
  | close fileId =>
    cases ran
    rfl
  | _ =>
    simp only [Downloads.call] at ran
    split_ifs at ran <;>
    · cases ran
      rfl

theorem writer_stream {place : Nat} {told : Option FileinfoKey} {writer : Nat × Writer}
    (ran : downloads.writer place told writer = some after) : after.stream = downloads.stream := by
  obtain ⟨fileId,writer⟩ := writer
  cases writer with
  | look =>
    simp only [Downloads.writer] at ran
    split_ifs at ran
    · cases ran
      rfl
    · split at ran
      · cases ran
        rfl
      · cases ran
        rfl
  | handle curInfo =>
    simp only [Downloads.writer] at ran
    split_ifs at ran
    · cases ran
      rfl
    · obtain ⟨opened,_,rfl⟩ := Option.map_eq_some_iff.mp ran
      rfl
  | leave =>
    simp only [Downloads.writer] at ran
    split_ifs at ran
    cases ran
    rfl

theorem expect_next {consumed : List (Nat × Sent)} {piece : Nat × Sent} {rest : List (Nat × Sent)}
    {here : Option (Nat × Int)} (ordered : DataChannel.Ordered mDataSockId channel)
    (split : channel.written = consumed ++ piece :: rest)
    (read : consumed.foldlM DataChannel.expect none = some here) :
    ∃ next, DataChannel.expect here piece = some next ∧ channel.written = (consumed ++ [piece]) ++ rest ∧
      (consumed ++ [piece]).foldlM DataChannel.expect none = some next := by
  obtain ⟨last,whole,_⟩ := ordered.whole
  rw [split,List.foldlM_append,read,Option.bind_eq_bind,Option.bind_some,List.foldlM_cons] at whole
  obtain ⟨next,fits,_⟩ := Option.bind_eq_some_iff.mp whole
  refine ⟨next,fits,by rw [split,List.append_assoc]; rfl,?_⟩
  rw [List.foldlM_append,read,Option.bind_eq_bind,Option.bind_some,List.foldlM_cons,fits]
  rfl

theorem recv_reading (reading : Reading mDataSockId downloads) (ran : downloads.recv = some after) :
    Reading mDataSockId after := by
  obtain ⟨ordered,inStep,consumed,split,read⟩ := reading
  cases wire : downloads.wire with
  | nil => cases receiver : downloads.receiver <;> simp [recv,inStep,wire,receiver] at ran
  | cons piece rest =>
    obtain ⟨key,number,sent⟩ := piece
    rw [wire,List.map_cons] at split
    obtain ⟨next,fits,taken,again⟩ := expect_next ordered split read
    cases receiver : downloads.receiver with
    | header =>
      rw [receiver] at fits
      cases sent with
      | dataHeader header bytes =>
        simp only [recv,inStep,wire,receiver,Bool.false_eq_true,if_false,Option.some.injEq] at ran
        subst ran
        refine ⟨ordered,rfl,_,taken,?_⟩
        rw [again]
        simp only [waiting,DataChannel.expect] at fits
        split_ifs at fits with _ empty
        · cases fits
          simp only [empty,if_true,waiting]
        · cases fits
          simp only [empty,if_false,waiting]
      | _ => simp [waiting,DataChannel.expect] at fits
    | body file first header =>
      rw [receiver] at fits
      cases sent with
      | data body =>
        simp only [waiting,DataChannel.expect] at fits
        split_ifs at fits with same
        cases fits
        simp only [recv,inStep,wire,receiver,same,and_self,Bool.false_eq_true,if_true,if_false,
          Option.some.injEq] at ran
        subst ran
        exact ⟨ordered,rfl,_,taken,again⟩
      | _ => simp [waiting,DataChannel.expect] at fits
    | save unit => simp [recv,inStep,wire,receiver] at ran

theorem save_reading {malloc : Bool} (reading : Reading mDataSockId downloads)
    (inside : ∀ unit, downloads.receiver = .save unit →
      0 ≤ unit.header.fileId ∧ unit.header.fileId < dwldTaskMaxNum)
    (ran : downloads.save malloc = some after) : Reading mDataSockId after := by
  obtain ⟨ordered,inStep,consumed,split,read⟩ := reading
  unfold save at ran
  split at ran
  · rename_i unit receiver
    have slot := inside unit receiver
    rw [receiver] at read
    dsimp only at ran
    rw [if_neg (by omega)] at ran
    split_ifs at ran
    · cases ran
      exact ⟨ordered,inStep,consumed,split,read⟩
    · cases ran
      exact ⟨ordered,inStep,consumed,split,read⟩
  · cases ran

theorem step_ordered {event : DataChannel.Event} (socket : 0 ≤ mDataSockId)
    (ordered : DataChannel.Ordered mDataSockId channel) (alone : DataChannel.Alone channel event) :
    DataChannel.Ordered mDataSockId ((channel.step mDataSockId event).getD channel) := by
  by_cases enabled : (DataChannel.dataSystem mDataSockId).Enabled channel event
  · exact DataChannel.keep_ordered socket ordered enabled alone
  · rw [Option.not_isSome_iff_eq_none.mp enabled]
    exact ordered

theorem start_written {info : DwldReqInfo} {fd : Int} {created : Bool} {asked : CliState} :
    ((channel.step mDataSockId (.start info fd created asked)).getD channel).written = channel.written := by
  simp only [DataChannel.step]
  split_ifs
  · rfl
  · rfl

theorem stop_written {place : Nat} :
    ((channel.step mDataSockId (.stop place)).getD channel).written = channel.written := by
  simp only [DataChannel.step]
  cases channel.mCliDataList[place]? <;> rfl

theorem serve_reading {fd : Option Int} {created : Bool} (socket : 0 ≤ mDataSockId)
    (reading : Reading mDataSockId downloads) (ran : downloads.serve mDataSockId fd created = some after) :
    Reading mDataSockId after := by
  obtain ⟨ordered,inStep,place⟩ := reading
  unfold serve at ran
  split at ran
  · obtain ⟨read,_,rfl⟩ := Option.map_eq_some_iff.mp ran
    dsimp only
    split
    · refine ⟨step_ordered socket ordered trivial,inStep,?_⟩
      dsimp only
      rw [start_written]
      exact place
    · exact ⟨ordered,inStep,place⟩
  · obtain ⟨read,_,rfl⟩ := Option.map_eq_some_iff.mp ran
    split
    · exact ⟨ordered,inStep,place⟩
    · split
      · exact ⟨ordered,inStep,place⟩
      · refine ⟨step_ordered socket ordered trivial,inStep,?_⟩
        dsimp only
        rw [stop_written]
        exact place
  · cases ran

theorem runThread_reading {place : Nat} {answer : DataAnswer} (socket : 0 ≤ mDataSockId)
    (reading : Reading mDataSockId downloads)
    (alone : DataChannel.Alone downloads.channel (.run place answer))
    (ran : downloads.runThread mDataSockId place answer = some after) : Reading mDataSockId after := by
  obtain ⟨ordered,inStep,consumed,split,read⟩ := reading
  obtain ⟨thread,found,ran⟩ := Option.bind_eq_some_iff.mp ran
  obtain ⟨channel,moved,rfl⟩ := Option.map_eq_some_iff.mp ran
  have kept := step_ordered socket ordered alone
  rw [moved] at kept
  obtain ⟨_,other,there,rfl⟩ := DataChannel.step_run moved
  rw [found] at there
  cases there
  refine ⟨kept,inStep,consumed,?_,read⟩
  change downloads.channel.written ++ _ = consumed ++ (downloads.wire ++ _).map Prod.snd
  rw [split,List.map_append,List.append_assoc,List.map_map]
  rfl

theorem joined_reading (socket : 0 ≤ mDataSockId) (reading : Reading mDataSockId downloads)
    (ran : downloads.step mDataSockId .joined = some after) : Reading mDataSockId after := by
  obtain ⟨ordered,inStep,place⟩ := reading
  obtain ⟨joining,_,ran⟩ := Option.bind_eq_some_iff.mp ran
  obtain ⟨channel,moved,rfl⟩ := Option.map_eq_some_iff.mp ran
  have kept : DataChannel.Ordered mDataSockId
      ((downloads.channel.step mDataSockId (.joined joining)).getD downloads.channel) :=
    step_ordered socket ordered trivial
  rw [moved] at kept
  obtain ⟨thread,_,ended⟩ := Option.bind_eq_some_iff.mp moved
  split_ifs at ended
  cases ended
  exact ⟨kept,inStep,place⟩

end Stream

section Apart

variable {mDataSockId : Int} {downloads after : Downloads} {event : Event} {events : List Event}

/-- All that has the number of an open slot is of the file that the slot is open for. -/
structure Apart (downloads : Downloads) : Prop where
  fits {fileId : Int} {key : FileinfoKey} : downloads.Carries fileId key → downloads.Fits fileId key
  isolated : downloads.Isolated

theorem apart_quiet (apart : Apart downloads) (quiet : Quiet after downloads) : Apart after := by
  refine ⟨fun carries => ?_,?_⟩
  · obtain ⟨inside,same⟩ := apart.fits (within_carries quiet.toWithin carries)
    exact ⟨inside,fun file here => same file (quiet.opened here)⟩
  · rw [Isolated,quiet.written]
    exact apart.isolated

theorem insert_apart {place fileId : Nat} {key : FileinfoKey} {startOffset : Int} (apart : Apart downloads)
    (clear : ∀ other, downloads.Carries fileId other → other = key)
    (ran : downloads.call place true (.insertFileDwldTask key startOffset fileId) = some after) :
    Apart after := by
  obtain ⟨within,written,opened⟩ := insert_within ran
  refine ⟨fun {number file} carries => ?_,by rw [Isolated,written]; exact apart.isolated⟩
  have before := within_carries within carries
  obtain ⟨inside,same⟩ := apart.fits before
  refine ⟨inside,fun other here => ?_⟩
  rw [opened] at here
  split_ifs at here with slot
  · have number_eq : number = fileId := by omega
    rw [number_eq] at before
    rw [clear file before,Option.some.inj here]
  · exact same other here

theorem request_apart {place fileId : Nat} {key : FileinfoKey} {startOffset : Int} (apart : Apart downloads)
    (fits : ∀ info, getDwldReqInfo (some (dwldTaskInfo key startOffset fileId)) = some (.ok info) →
      downloads.Fits info.fileId info.key)
    (ran : downloads.call place true (.doStartDwld key startOffset fileId) = some after) : Apart after := by
  simp only [Downloads.call,if_true] at ran
  cases ran
  refine ⟨fun carries => ?_,apart.isolated⟩
  cases carries with
  | request member read =>
    rcases List.mem_append.mp member with old | new
    · exact apart.fits (.request old read)
    · cases List.mem_singleton.mp new
      exact fits _ read
  | thread member alive => exact apart.fits (.thread member alive)
  | wire member => exact apart.fits (.wire member)
  | body here => exact apart.fits (.body here)
  | save here => exact apart.fits (.save here)
  | listed member => exact apart.fits (.listed member)
  | held member => exact apart.fits (.held member)

theorem call_apart {place : Nat} {ok : Bool} {call : Call} (apart : Apart downloads)
    (found : downloads.calls[place]? = some call) (clear : downloads.Clear (.call place ok))
    (ran : downloads.call place ok call = some after) : Apart after := by
  by_cases opens : ok = true ∧ ∃ key startOffset fileId, call = .insertFileDwldTask key startOffset fileId
  · obtain ⟨rfl,key,startOffset,fileId,rfl⟩ := opens
    exact insert_apart apart ((clear rfl).1 key startOffset fileId found) ran
  by_cases asks : ok = true ∧ ∃ key startOffset fileId, call = .doStartDwld key startOffset fileId
  · obtain ⟨rfl,key,startOffset,fileId,rfl⟩ := asks
    exact request_apart apart ((clear rfl).2 key startOffset fileId found) ran
  refine apart_quiet apart (call_quiet ?_ ?_ ran)
  · exact fun done key startOffset fileId here => opens ⟨done,key,startOffset,fileId,here⟩
  · exact fun done key startOffset fileId here => asks ⟨done,key,startOffset,fileId,here⟩

theorem writer_apart {place : Nat} {told : Option FileinfoKey} {writer : Nat × Writer} (apart : Apart downloads)
    (found : downloads.writers[place]? = some writer)
    (ran : downloads.writer place told writer = some after) : Apart after := by
  by_cases writes : ∃ fileId curInfo, writer = (fileId,.handle curInfo) ∧ curInfo.header.isEof = false
  · obtain ⟨fileId,curInfo,rfl,data⟩ := writes
    obtain ⟨within,slots,opened,here,written⟩ := writer_writes data ran
    have kept : ∀ {number file}, downloads.Fits number file → after.Fits number file := fun fits => by
      rw [Fits,slots]
      exact fits
    refine ⟨fun carries => kept (apart.fits (within_carries within carries)),?_⟩
    rw [Isolated,written]
    intro entry member
    rcases List.mem_append.mp member with old | new
    · exact apart.isolated entry old
    · rw [List.mem_singleton.mp new]
      have fits := apart.fits (.held (List.mem_of_getElem? found))
      exact (fits.2 opened here).symm
  · refine apart_quiet apart (writer_quiet found (fun fileId curInfo same => ?_) ran)
    exact Bool.of_not_eq_false fun data => writes ⟨fileId,curInfo,same,data⟩

theorem step_next (enabled : (downloadsSystem mDataSockId).Enabled downloads event) :
    downloads.step mDataSockId event = some ((downloadsSystem mDataSockId).next downloads event) := by
  obtain ⟨after,ran⟩ := Option.isSome_iff_exists.mp enabled
  rw [ran]
  simp [downloadsSystem,ran]

theorem keep_apart (apart : Apart downloads) (inStep : downloads.lost = false)
    (clear : downloads.Clear event) (ran : downloads.step mDataSockId event = some after) : Apart after := by
  cases event with
  | start key startOffset => exact apart_quiet apart (startDwld_quiet ran)
  | stop key fileId =>
    cases ran
    exact apart_quiet apart (quiet_calls downloads)
  | call place ok =>
    obtain ⟨call,found,ran⟩ := Option.bind_eq_some_iff.mp ran
    exact call_apart apart found clear ran
  | writer place told =>
    obtain ⟨writer,found,ran⟩ := Option.bind_eq_some_iff.mp ran
    exact writer_apart apart found ran
  | recv => exact apart_quiet apart (recv_quiet ran)
  | cut => exact clear.elim
  | arrive unit => simp [step,inStep] at ran
  | save malloc => exact apart_quiet apart (save_quiet ran)
  | serve fd created => exact apart_quiet apart (serve_quiet ran)
  | run place answer => exact apart_quiet apart (runThread_quiet ran)
  | joined => exact apart_quiet apart (joined_quiet ran)

theorem keep_reading (socket : 0 ≤ mDataSockId) (reading : Reading mDataSockId downloads)
    (apart : Apart downloads) (clear : downloads.Clear event)
    (ran : downloads.step mDataSockId event = some after) : Reading mDataSockId after := by
  cases event with
  | start key startOffset => exact reading_stream reading (startDwld_stream ran)
  | stop key fileId =>
    cases ran
    exact reading_stream reading rfl
  | call place ok =>
    obtain ⟨call,_,ran⟩ := Option.bind_eq_some_iff.mp ran
    exact reading_stream reading (call_stream ran)
  | writer place told =>
    obtain ⟨writer,_,ran⟩ := Option.bind_eq_some_iff.mp ran
    exact reading_stream reading (writer_stream ran)
  | recv => exact recv_reading reading ran
  | cut => exact clear.elim
  | arrive unit => simp [step,reading.inStep] at ran
  | save malloc => exact save_reading reading (fun unit here => (apart.fits (.save here)).1) ran
  | serve fd created => exact serve_reading socket reading ran
  | run place answer => exact runThread_reading socket reading clear ran
  | joined => exact joined_reading socket reading ran

theorem none_carries {fileId : Int} {key : FileinfoKey} : ¬ Carries {} fileId key := by
  intro carries
  cases carries with
  | body here => cases here
  | save here => cases here
  | request member _ => exact (List.not_mem_nil member).elim
  | thread member _ => exact (List.not_mem_nil member).elim
  | wire member => exact (List.not_mem_nil member).elim
  | listed member => exact (List.not_mem_nil member).elim
  | held member => exact (List.not_mem_nil member).elim

theorem none_apart : Apart {} :=
  ⟨fun carries => (none_carries carries).elim,fun _ absent => (List.not_mem_nil absent).elim⟩

/-- In a run of clear steps no unit is written to the local file of another file. -/
theorem downloads_isolated (socket : 0 ≤ mDataSockId)
    (run : (downloadsSystem mDataSockId).Run Clear {} downloads) : downloads.Isolated := by
  have both : Apart downloads ∧ Reading mDataSockId downloads := by
    refine run_invariant (I := fun downloads => Apart downloads ∧ Reading mDataSockId downloads) ?_ ?_ run
    · exact ⟨none_apart,DataChannel.none_ordered mDataSockId,rfl,[],rfl,rfl⟩
    · rintro downloads event ⟨apart,reading⟩ enabled clear
      have ran := step_next enabled
      exact ⟨keep_apart apart reading.inStep clear ran,keep_reading socket reading apart clear ran⟩
  exact both.1.isolated

def fileA : FileinfoKey := ⟨1,[97]⟩

def fileB : FileinfoKey := ⟨1,[98]⟩

def read (data : Option Text) : DataAnswer := ⟨0,data,dataUnitLen⟩

/-- One unit of file a, from the call to the local file. -/
def oneUnit : List Event :=
  [.start fileA 0,.call 0 true,.call 0 true,.serve (some 5) true,
    .run 0 (read none),.run 0 (read none),.run 0 (read (some [7])),.run 0 (read none),.run 0 (read none),
    .recv,.recv,.save true,.writer 0 none,.writer 0 none]

theorem alone_single {channel : DataChannel} {place : Nat} (answer : DataAnswer)
    (single : channel.mCliDataList.length ≤ 1) : DataChannel.Alone channel (.run place answer) := by
  intro thread found _ other member apart
  have inside : thread ∈ channel.mCliDataList := List.mem_of_getElem? found
  cases list : channel.mCliDataList with
  | nil =>
    rw [list] at inside
    cases inside
  | cons first rest =>
    rw [list,List.length_cons] at single
    have none_behind : rest = [] := List.length_eq_zero_iff.mp (by omega)
    rw [list,none_behind,List.mem_singleton] at inside member
    rw [inside,member] at apart
    exact absurd rfl apart

theorem oneUnit_clear : (downloadsSystem 4).Follows Clear {} oneUnit := by
  have asked : getDwldReqInfo (some (dwldTaskInfo fileA 0 0)) = some (.ok ⟨fileA,0,0⟩) := by decide
  refine ⟨⟨by decide,trivial⟩,⟨by decide,fun _ => ⟨?_,nofun⟩⟩,⟨by decide,fun _ => ⟨nofun,?_⟩⟩,⟨by decide,trivial⟩,
    ⟨by decide,alone_single (read none) (by decide)⟩,⟨by decide,alone_single (read none) (by decide)⟩,
    ⟨by decide,alone_single (read none) (by decide)⟩,⟨by decide,alone_single (read none) (by decide)⟩,
    ⟨by decide,alone_single (read none) (by decide)⟩,⟨by decide,trivial⟩,⟨by decide,trivial⟩,
    ⟨by decide,trivial⟩,⟨by decide,trivial⟩,⟨by decide,trivial⟩,trivial⟩
  · intro key startOffset fileId _ other carries
    have started : step {} 4 (.start fileA 0) = some ((downloadsSystem 4).next {} (.start fileA 0)) :=
      step_next (by decide)
    exact (none_carries (within_carries (startDwld_quiet started).toWithin carries)).elim
  · intro key startOffset fileId here info found
    cases here
    cases asked.symm.trans found
    exact ⟨by decide,fun opened there => by cases there; rfl⟩

theorem downloads_isolated_oneUnit :
    (oneUnit.foldl (downloadsSystem 4).next {}).written = [(fileA,fileA)] ∧
      (oneUnit.foldl (downloadsSystem 4).next {}).Isolated :=
  ⟨by decide,downloads_isolated (by decide) (run_of_events oneUnit_clear .start)⟩

/-- A unit of file a is on its way when its download is stopped and b is given the slot. -/
def reusedSlot : List Event :=
  [.start fileA 0,.call 0 true,.call 0 true,.serve (some 5) true,
    .run 0 (read none),.run 0 (read none),.run 0 (read (some [7])),.run 0 (read none),.run 0 (read none),
    .call 0 true,
    .stop fileA 0,.call 0 true,.serve none true,.run 0 (read none),.joined,.call 0 true,.call 0 true,
    .writer 0 none,.call 0 true,.call 0 true,.writer 0 none,
    .start fileB 0,.call 0 true,.recv,.recv,.save true,.writer 0 none,.writer 0 none]

theorem downloads_reusedSlot :
    (downloadsSystem 4).Follows anyEvent {} reusedSlot ∧
      ¬ (reusedSlot.foldl (downloadsSystem 4).next {}).Isolated := by
  refine ⟨by decide,fun isolated => ?_⟩
  have written : (reusedSlot.foldl (downloadsSystem 4).next {}).written = [(fileA,fileB)] := by decide
  have same := isolated (fileA,fileB) (by rw [written]; exact List.mem_cons_self)
  exact absurd same (by decide)

end Apart

end Downloads

end MoCodes.MoCloud
