import MoCodes.Lib.Transition
import MoCodes.MoCloud.Server.CliData

/-! The download threads of one client on their shared data socket. The socket is blocking, so
a write takes all it is given, but the header and the body of a unit are two writes, and each
thread takes its steps when it likes. -/
namespace MoCodes.MoCloud.Server
open Lib.Transition

/-- The threads of mCliDataList, numbered in the order they were started, and what has been
written to the socket, with the number of the thread that wrote it. -/
structure DataChannel where
  mCliDataList : List (Nat × CliData) := []
  started : Nat := 0
  written : List (Nat × Sent) := []

namespace DataChannel

/-- What doStartDwld and doStopDwld do to the list, and the steps of its threads. -/
inductive Event where
  | start (info : DwldReqInfo) (fd : Int) (created : Bool) (asked : CliState)
  | run (place : Nat) (answer : DataAnswer)
  | stop (place : Nat)
  | joined (place : Nat)

variable (channel : DataChannel)

def start (mDataSockId : Int) (info : DwldReqInfo) (fd : Int) (created : Bool) (asked : CliState) : DataChannel :=
  { channel with
    mCliDataList := channel.mCliDataList ++ [(channel.started,newCliData mDataSockId info fd created asked)]
    started := channel.started+1 }

def run (place : Nat) (answer : DataAnswer) (thread : Nat × CliData) : DataChannel :=
  { channel with
    mCliDataList := channel.mCliDataList.set place (thread.1,(thread.2.run answer).1)
    written := channel.written ++ (thread.2.run answer).2.map (Prod.mk thread.1) }

def stop (place : Nat) (thread : Nat × CliData) : DataChannel :=
  { channel with mCliDataList := channel.mCliDataList.set place (thread.1,thread.2.closeStop) }

def step (mDataSockId : Int) : Event → Option DataChannel
  | .start info fd created asked =>
    if channel.mCliDataList.length < dwldTaskMaxNum ∧
        !channel.mCliDataList.any fun thread => thread.2.isOf info.key then
      some (channel.start mDataSockId info fd created asked)
    else none
  | .run place answer =>
    if dataUnitLen ≤ answer.taken then (channel.mCliDataList[place]?).map (channel.run place answer) else none
  | .stop place => (channel.mCliDataList[place]?).map (channel.stop place)
  | .joined place =>
    (channel.mCliDataList[place]?).bind fun thread =>
      if thread.2.place = .ended then some { channel with mCliDataList := channel.mCliDataList.eraseIdx place }
      else none

def dataSystem (mDataSockId : Int) : System DataChannel Event where
  Enabled channel event := (channel.step mDataSockId event).isSome
  next channel event := (channel.step mDataSockId event).getD channel

instance (mDataSockId : Int) (channel : DataChannel) (event : Event) :
    Decidable ((dataSystem mDataSockId).Enabled channel event) :=
  inferInstanceAs (Decidable (Option.isSome _))

/-- A header and a body of the length it gives. -/
structure WrittenUnit where
  number : Nat
  header : DataHeader
  body : Text
  length : header.bodyLen = body.length

/-- The writes of a thread that sends the unit; without a body there is one. -/
def WrittenUnit.writes (unit : WrittenUnit) : List (Nat × Sent) :=
  (unit.number,.dataHeader unit.header CliData.dataHeaderSize) ::
    if unit.header.bodyLen = 0 then [] else [(unit.number,.data unit.body)]

/-- Whole units, one after the other, as far as they have been written. -/
def Whole (written : List (Nat × Sent)) : Prop :=
  ∃ units : List WrittenUnit, written <+: units.flatMap WrittenUnit.writes

def InBody (thread : CliData) : Prop := ∃ data, thread.place = .sendBody data

def Writes (thread : CliData) : Prop :=
  match thread.place with
  | .sendHeader _ => True
  | .sendBody _ => True
  | .sendEof => True
  | _ => False

/-- No thread writes while another one is between the header and the body of a unit. -/
def Alone (channel : DataChannel) : Event → Prop
  | .run place _ => ∀ thread ∈ channel.mCliDataList[place]?, Writes thread.2 →
      ∀ other ∈ channel.mCliDataList, other.1 ≠ thread.1 → ¬ InBody other.2
  | _ => True

section Units

/-- What a reader of whole units waits for: a header, or the body of the thread whose header
it has read. There is no next state where something else comes. -/
def expect : Option (Nat × Int) → Nat × Sent → Option (Option (Nat × Int))
  | none,(number,.dataHeader header bytes) =>
    if bytes = CliData.dataHeaderSize ∧ 0 ≤ header.bodyLen then
      some (if header.bodyLen = 0 then none else some (number,header.bodyLen))
    else none
  | some (number,bodyLen),(other,.data body) =>
    if other = number ∧ (body.length : Int) = bodyLen then some none else none
  | _,_ => none

theorem expect_unit (unit : WrittenUnit) : unit.writes.foldlM expect none = some none := by
  have positive : 0 ≤ unit.header.bodyLen := by
    rw [unit.length]
    exact Int.natCast_nonneg _
  rw [WrittenUnit.writes,List.foldlM_cons]
  by_cases empty : unit.header.bodyLen = 0
  · simp [expect,empty]
  · rw [if_neg empty]
    simp only [expect,positive,empty,unit.length.symm,and_self,if_true,if_false,Option.bind_eq_bind,
      Option.bind_some,List.foldlM_cons,List.foldlM_nil]
    rfl

theorem expect_units (units : List WrittenUnit) :
    (units.flatMap WrittenUnit.writes).foldlM expect none = some none := by
  induction units with
  | nil => rfl
  | cons unit units ih =>
    rw [List.flatMap_cons,List.foldlM_append,expect_unit]
    exact ih

theorem expect_whole {written : List (Nat × Sent)} (whole : Whole written) :
    ∃ waiting, written.foldlM expect none = some waiting := by
  obtain ⟨units,rest,same⟩ := whole
  have all := expect_units units
  rw [← same,List.foldlM_append] at all
  obtain ⟨waiting,here,_⟩ := Option.bind_eq_some_iff.mp all
  exact ⟨waiting,here⟩

/-- What has been read so far is the front of whole units, after a header too. -/
theorem whole_expect (written : List (Nat × Sent)) :
    ((written.foldlM expect none).isSome → Whole written) ∧
      ∀ number bodyLen, 0 < bodyLen → (written.foldlM expect (some (number,bodyLen))).isSome →
        ∃ (body : Text) (units : List WrittenUnit), (body.length : Int) = bodyLen ∧
          written <+: (number,.data body) :: units.flatMap WrittenUnit.writes := by
  induction written with
  | nil =>
    refine ⟨fun _ => ⟨[],List.nil_prefix⟩,fun number bodyLen positive _ => ?_⟩
    exact ⟨List.replicate bodyLen.toNat 0,[],by simp; omega,List.nil_prefix⟩
  | cons write written ih =>
    obtain ⟨number,sent⟩ := write
    constructor
    · intro ok
      rw [List.foldlM_cons] at ok
      cases sent with
      | dataHeader header bytes =>
        by_cases right : bytes = CliData.dataHeaderSize ∧ 0 ≤ header.bodyLen
        · obtain ⟨rfl,positive⟩ := right
          by_cases empty : header.bodyLen = 0
          · simp only [expect,empty,Int.le_refl,and_self,if_true,Option.bind_eq_bind,Option.bind_some] at ok
            obtain ⟨units,front⟩ := ih.1 ok
            refine ⟨⟨number,header,[],empty⟩::units,?_⟩
            rw [List.flatMap_cons,WrittenUnit.writes,if_pos empty]
            exact List.cons_prefix_cons.mpr ⟨rfl,front⟩
          · simp only [expect,empty,positive,and_self,if_true,if_false,Option.bind_eq_bind,
              Option.bind_some] at ok
            obtain ⟨body,units,length,front⟩ := ih.2 number header.bodyLen (by omega) ok
            refine ⟨⟨number,header,body,length.symm⟩::units,?_⟩
            rw [List.flatMap_cons,WrittenUnit.writes,if_neg empty]
            exact List.cons_prefix_cons.mpr ⟨rfl,front⟩
        · simp [expect,right] at ok
      | _ => simp [expect] at ok
    · intro waiting bodyLen positive ok
      rw [List.foldlM_cons] at ok
      cases sent with
      | data body =>
        by_cases right : number = waiting ∧ (body.length : Int) = bodyLen
        · simp only [expect,right,and_self,if_true,Option.bind_eq_bind,Option.bind_some] at ok
          obtain ⟨units,front⟩ := ih.1 ok
          exact ⟨body,units,right.2,List.cons_prefix_cons.mpr ⟨by rw [right.1],front⟩⟩
        · simp [expect,right] at ok
      | _ => simp [expect] at ok

end Units

section Threads

variable {thread : CliData} {answer : DataAnswer}

/-- What a thread keeps to: it writes to the data socket, and only what it has read. -/
def Proper (mDataSockId : Int) (thread : CliData) : Prop :=
  thread.mSockId = mDataSockId ∧
    ∀ data, (thread.place = .sendHeader data ∨ thread.place = .sendBody data) →
      data ≠ [] ∧ data.length ≤ dataUnitLen

theorem run_proper {mDataSockId : Int} (proper : Proper mDataSockId thread) :
    Proper mDataSockId (thread.run answer).1 := by
  obtain ⟨socket,read⟩ := proper
  unfold CliData.run
  cases place : thread.place with
  | check =>
    refine ⟨socket,fun data here => ?_⟩
    dsimp only at here
    split at here <;> simp at here
  | seek =>
    refine ⟨socket,fun data here => ?_⟩
    dsimp only at here
    split at here <;> simp at here
  | read =>
    cases got : answer.read with
    | none => exact ⟨socket,fun data here => by simp at here⟩
    | some bytes =>
      refine ⟨socket,fun data here => ?_⟩
      dsimp only at here
      split at here
      · simp at here
      · rename_i some_byte
        simp only [DataPlace.sendHeader.injEq,reduceCtorEq,or_false] at here
        rw [← here]
        exact ⟨some_byte,List.length_take_le _ _⟩
  | sendHeader bytes =>
    refine ⟨socket,fun data here => ?_⟩
    simp only [reduceCtorEq,DataPlace.sendBody.injEq,false_or] at here
    rw [← here]
    exact read bytes (.inl place)
  | sendBody bytes =>
    dsimp only
    split
    · exact ⟨socket,fun data here => by simp at here⟩
    · exact ⟨socket,fun data here => by simp at here⟩
  | sendEof => exact ⟨socket,fun data here => by simp at here⟩
  | ended => exact ⟨socket,fun data here => by simp [place] at here⟩

theorem run_quiet (answer : DataAnswer) (quiet : ¬ Writes thread) : (thread.run answer).2 = [] ∧ ¬ InBody (thread.run answer).1 := by
  unfold CliData.run
  cases place : thread.place with
  | check =>
    refine ⟨rfl,?_⟩
    rintro ⟨data,here⟩
    dsimp only at here
    split at here <;> cases here
  | seek =>
    refine ⟨rfl,?_⟩
    rintro ⟨data,here⟩
    dsimp only at here
    split at here <;> cases here
  | read =>
    cases got : answer.read with
    | none => exact ⟨rfl,fun ⟨data,here⟩ => by cases here⟩
    | some bytes =>
      refine ⟨rfl,?_⟩
      rintro ⟨data,here⟩
      dsimp only at here
      split at here <;> cases here
  | ended => exact ⟨rfl,fun ⟨data,here⟩ => by rw [place] at here; cases here⟩
  | _ => exact absurd (by simp only [Writes,place]) quiet

theorem run_header {data : Text} (full : dataUnitLen ≤ answer.taken) (socket : 0 ≤ thread.mSockId)
    (here : thread.place = .sendHeader data) :
    (thread.run answer).2 = [.dataHeader (thread.genRespHeader data.length) CliData.dataHeaderSize] ∧
      (thread.run answer).1.place = .sendBody data := by
  have taken : CliData.written thread.mSockId answer.taken CliData.dataHeaderSize = CliData.dataHeaderSize := by
    rw [CliData.written,if_neg (by omega)]
    exact Nat.min_eq_right (Nat.le_trans (by decide) full)
  simp only [CliData.run,here,CliData.sendHeader,taken,and_self]

theorem run_body {data : Text} (full : dataUnitLen ≤ answer.taken) (socket : 0 ≤ thread.mSockId)
    (room : data.length ≤ dataUnitLen) (here : thread.place = .sendBody data) :
    (thread.run answer).2 = [.data data] ∧ ¬ InBody (thread.run answer).1 := by
  have taken : CliData.written thread.mSockId answer.taken data.length = data.length := by
    rw [CliData.written,if_neg (by omega)]
    exact Nat.min_eq_right (Nat.le_trans room full)
  simp only [CliData.run,here,CliData.sendBody,taken,List.take_length]
  split
  · exact ⟨rfl,fun ⟨data,there⟩ => by cases there⟩
  · exact ⟨rfl,fun ⟨data,there⟩ => by cases there⟩

theorem run_eof (full : dataUnitLen ≤ answer.taken) (socket : 0 ≤ thread.mSockId)
    (here : thread.place = .sendEof) :
    (thread.run answer).2 = [.dataHeader thread.genEofRespHeader CliData.dataHeaderSize] ∧
      ¬ InBody (thread.run answer).1 := by
  have taken : CliData.written thread.mSockId answer.taken CliData.dataHeaderSize = CliData.dataHeaderSize := by
    rw [CliData.written,if_neg (by omega)]
    exact Nat.min_eq_right (Nat.le_trans (by decide) full)
  simp only [CliData.run,here,CliData.sendHeader,taken,true_and]
  rintro ⟨data,there⟩
  cases there

end Threads

section Lists

variable {list : List (Nat × CliData)} {thread other : Nat × CliData} {after : CliData} {place : Nat}

theorem mem_replaced (numbers : (list.map Prod.fst).Nodup) (found : list[place]? = some thread)
    (member : other ∈ list.set place (thread.1,after)) :
    other = (thread.1,after) ∨ other ∈ list ∧ other.1 ≠ thread.1 := by
  obtain ⟨index,here⟩ := List.mem_iff_getElem?.mp member
  rw [List.getElem?_set] at here
  obtain ⟨bound,there⟩ := List.getElem?_eq_some_iff.mp found
  by_cases same : place = index
  · rw [if_pos same,if_pos bound] at here
    exact .inl (Option.some.inj here).symm
  · rw [if_neg same] at here
    refine .inr ⟨List.mem_of_getElem? here,fun equal => same ?_⟩
    apply (List.getElem?_inj (by rwa [List.length_map]) numbers).mp
    rw [List.getElem?_map,List.getElem?_map,found,here,Option.map_some,Option.map_some,equal]

theorem replaced_mem (found : list[place]? = some thread) (member : other ∈ list) (apart : other.1 ≠ thread.1) :
    other ∈ list.set place (thread.1,after) := by
  obtain ⟨index,here⟩ := List.mem_iff_getElem?.mp member
  have different : place ≠ index := by
    rintro rfl
    rw [found] at here
    exact apart (congrArg Prod.fst (Option.some.inj here)).symm
  refine List.mem_iff_getElem?.mpr ⟨index,?_⟩
  rw [List.getElem?_set_ne different,here]

theorem replaced_here (found : list[place]? = some thread) :
    (thread.1,after) ∈ list.set place (thread.1,after) := by
  obtain ⟨bound,_⟩ := List.getElem?_eq_some_iff.mp found
  exact List.mem_iff_getElem?.mpr ⟨place,List.getElem?_set_self bound⟩

theorem numbers_replaced (found : list[place]? = some thread) :
    (list.set place (thread.1,after)).map Prod.fst = list.map Prod.fst := by
  have same : (list.map Prod.fst)[place]? = some thread.1 := by
    rw [List.getElem?_map,found,Option.map_some]
  obtain ⟨bound,there⟩ := List.getElem?_eq_some_iff.mp same
  rw [List.map_set,← there,List.set_getElem_self]

end Lists

/-- The reader of the units waits for the thread that is between a header and a body. -/
structure Waiting (list : List (Nat × CliData)) (waiting : Option (Nat × Int)) : Prop where
  inside : ∀ thread ∈ list, ∀ data, thread.2.place = .sendBody data →
    waiting = some (thread.1,(data.length : Int))
  someone : ∀ number bodyLen, waiting = some (number,bodyLen) →
    ∃ thread ∈ list, thread.1 = number ∧ InBody thread.2

structure Ordered (mDataSockId : Int) (channel : DataChannel) : Prop where
  numbers : (channel.mCliDataList.map Prod.fst).Nodup
  fresh : ∀ thread ∈ channel.mCliDataList, thread.1 < channel.started
  proper : ∀ thread ∈ channel.mCliDataList, Proper mDataSockId thread.2
  whole : ∃ waiting, channel.written.foldlM expect none = some waiting ∧
    Waiting channel.mCliDataList waiting

section Steps

variable {mDataSockId : Int} {channel : DataChannel} {thread : Nat × CliData} {place : Nat} {after : CliData}

/-- A thread that is replaced by one that is not in a body, in a list that waits for no other. -/
theorem waiting_nobody (numbers : (channel.mCliDataList.map Prod.fst).Nodup)
    (found : channel.mCliDataList[place]? = some thread) (outside : ¬ InBody after)
    (others : ∀ other ∈ channel.mCliDataList, other.1 ≠ thread.1 → ¬ InBody other.2) :
    Waiting (channel.mCliDataList.set place (thread.1,after)) none := by
  refine ⟨fun other member data here => ?_,fun _ _ absent => by cases absent⟩
  rcases mem_replaced numbers found member with rfl | ⟨old,apart⟩
  · exact absurd ⟨data,here⟩ outside
  · exact absurd ⟨data,here⟩ (others other old apart)

theorem ordered_replaced {written : List (Nat × Sent)} (waiting : Option (Nat × Int))
    (ordered : Ordered mDataSockId channel) (found : channel.mCliDataList[place]? = some thread)
    (proper : Proper mDataSockId after) (read : written.foldlM expect none = some waiting)
    (waits : Waiting (channel.mCliDataList.set place (thread.1,after)) waiting) :
    Ordered mDataSockId
      { channel with mCliDataList := channel.mCliDataList.set place (thread.1,after), written := written } := by
  refine ⟨?_,fun other member => ?_,fun other member => ?_,waiting,read,waits⟩
  · rw [numbers_replaced found]
    exact ordered.numbers
  · rcases mem_replaced ordered.numbers found member with rfl | ⟨old,_⟩
    · exact ordered.fresh thread (List.mem_of_getElem? found)
    · exact ordered.fresh other old
  · rcases mem_replaced ordered.numbers found member with rfl | ⟨old,_⟩
    · exact proper
    · exact ordered.proper other old

/-- Nobody waits for a thread outside of a body: the reader waits as before. -/
theorem waiting_quiet {waiting : Option (Nat × Int)} (numbers : (channel.mCliDataList.map Prod.fst).Nodup)
    (found : channel.mCliDataList[place]? = some thread) (same : InBody after ↔ InBody thread.2)
    (kept : ∀ data, after.place = .sendBody data → thread.2.place = .sendBody data)
    (waits : Waiting channel.mCliDataList waiting) :
    Waiting (channel.mCliDataList.set place (thread.1,after)) waiting := by
  refine ⟨fun other member data here => ?_,fun number bodyLen wait => ?_⟩
  · rcases mem_replaced numbers found member with rfl | ⟨old,_⟩
    · exact waits.inside thread (List.mem_of_getElem? found) data (kept data here)
    · exact waits.inside other old data here
  · obtain ⟨other,member,rfl,inside⟩ := waits.someone number bodyLen wait
    by_cases equal : other.1 = thread.1
    · have here : other = thread := by
        have unique := List.inj_on_of_nodup_map numbers member (List.mem_of_getElem? found) equal
        exact unique
      rw [here] at inside
      exact ⟨(thread.1,after),replaced_here found,equal.symm,same.mpr inside⟩
    · exact ⟨other,replaced_mem found member equal,rfl,inside⟩

section Run

variable {answer : DataAnswer} (ordered : Ordered mDataSockId channel) (socket : 0 ≤ mDataSockId)
  (full : dataUnitLen ≤ answer.taken) (found : channel.mCliDataList[place]? = some thread)

include ordered found in
theorem waiting_none {waiting : Option (Nat × Int)} (waits : Waiting channel.mCliDataList waiting)
    (outside : ¬ InBody thread.2)
    (alone : ∀ other ∈ channel.mCliDataList, other.1 ≠ thread.1 → ¬ InBody other.2) : waiting = none := by
  cases waiting with
  | none => rfl
  | some wait =>
    obtain ⟨other,member,_,inside⟩ := waits.someone wait.1 wait.2 rfl
    by_cases equal : other.1 = thread.1
    · have here : other = thread :=
        List.inj_on_of_nodup_map ordered.numbers member (List.mem_of_getElem? found) equal
      rw [here] at inside
      exact absurd inside outside
    · exact absurd inside (alone other member equal)

include ordered socket full found in
theorem run_ordered
    (alone : Writes thread.2 → ∀ other ∈ channel.mCliDataList, other.1 ≠ thread.1 → ¬ InBody other.2) :
    Ordered mDataSockId (channel.run place answer thread) := by
  have proper := ordered.proper thread (List.mem_of_getElem? found)
  have proper' : Proper mDataSockId (thread.2.run answer).1 := run_proper proper
  have here_socket : 0 ≤ thread.2.mSockId := by
    rw [proper.1]
    exact socket
  obtain ⟨waiting,read,waits⟩ := ordered.whole
  by_cases writes : Writes thread.2
  · have others := alone writes
    cases at_place : thread.2.place with
    | sendHeader data =>
      have outside : ¬ InBody thread.2 := fun ⟨bytes,there⟩ => by rw [at_place] at there; cases there
      cases waiting_none ordered found waits outside others
      obtain ⟨sent,next⟩ := run_header full here_socket at_place
      have some_byte : data ≠ [] := (proper.2 data (.inl at_place)).1
      refine ordered_replaced (some (thread.1,(data.length : Int))) ordered found proper' ?_ ⟨?_,?_⟩
      · rw [sent,List.map_singleton,List.foldlM_append,read]
        simp [expect,CliData.genRespHeader,some_byte]
      · intro other member bytes there
        rcases mem_replaced ordered.numbers found member with rfl | ⟨old,apart⟩
        · rw [next] at there
          cases there
          rfl
        · exact absurd ⟨bytes,there⟩ (others other old apart)
      · intro number bodyLen wait
        cases wait
        exact ⟨_,replaced_here found,rfl,data,next⟩
    | sendBody data =>
      have wait := waits.inside thread (List.mem_of_getElem? found) data at_place
      obtain ⟨sent,outside⟩ := run_body full here_socket (proper.2 data (.inr at_place)).2 at_place
      refine ordered_replaced _ ordered found proper' ?_ (waiting_nobody ordered.numbers found outside others)
      rw [sent,List.map_singleton,List.foldlM_append,read,wait]
      simp [expect]
    | sendEof =>
      have outside : ¬ InBody thread.2 := fun ⟨bytes,there⟩ => by rw [at_place] at there; cases there
      cases waiting_none ordered found waits outside others
      obtain ⟨sent,ended⟩ := run_eof full here_socket at_place
      refine ordered_replaced _ ordered found proper' ?_ (waiting_nobody ordered.numbers found ended others)
      rw [sent,List.map_singleton,List.foldlM_append,read]
      simp [expect,CliData.genEofRespHeader]
    | _ => exact absurd writes (by simp only [Writes,at_place,not_false_eq_true])
  · obtain ⟨sent,outside⟩ := run_quiet answer writes
    have before : ¬ InBody thread.2 := fun ⟨data,there⟩ => writes (by simp only [Writes,there])
    refine ordered_replaced _ ordered found proper' ?_
      (waiting_quiet ordered.numbers found (iff_of_false outside before)
        (fun data there => absurd ⟨data,there⟩ outside) waits)
    rw [sent,List.map_nil,List.append_nil,read]

theorem run_writes (answer : DataAnswer) (writes : Writes thread.2) : ∃ sent, (thread.2.run answer).2 = [sent] := by
  unfold CliData.run
  cases at_place : thread.2.place with
  | sendHeader data => exact ⟨_,rfl⟩
  | sendBody data =>
    dsimp only
    split
    · exact ⟨_,rfl⟩
    · exact ⟨_,rfl⟩
  | sendEof => exact ⟨_,rfl⟩
  | _ => exact absurd writes (by simp only [Writes,at_place,not_false_eq_true])

include ordered in
/-- What is written behind a header by another thread than its own is no part of a unit. -/
theorem run_whole (whole : Whole (channel.run place answer thread).written) (writes : Writes thread.2)
    {other : Nat × CliData} (member : other ∈ channel.mCliDataList) (apart : other.1 ≠ thread.1) :
    ¬ InBody other.2 := by
  rintro ⟨data,inside⟩
  obtain ⟨waiting,read,waits⟩ := ordered.whole
  obtain ⟨sent,one⟩ := run_writes answer writes
  obtain ⟨after,again⟩ := expect_whole whole
  change (channel.written ++ (thread.2.run answer).2.map (Prod.mk thread.1)).foldlM expect none = _ at again
  rw [one,List.map_singleton,List.foldlM_append,read,waits.inside other member data inside] at again
  cases sent with
  | data body => simp [expect,apart.symm] at again
  | _ => simp [expect] at again

end Run

theorem newCliData_place (mDataSockId : Int) (info : DwldReqInfo) (fd : Int) (created : Bool) (asked : CliState) (data : Text) :
    (newCliData mDataSockId info fd created asked).place ≠ .sendHeader data ∧
      (newCliData mDataSockId info fd created asked).place ≠ .sendBody data := by
  constructor <;> (intro there; cases created <;> cases there)

theorem start_ordered (ordered : Ordered mDataSockId channel) (info : DwldReqInfo) (fd : Int) (created : Bool)
    (asked : CliState) : Ordered mDataSockId (channel.start mDataSockId info fd created asked) := by
  have new := newCliData_place mDataSockId info fd created asked
  refine ⟨?_,fun other member => ?_,fun other member => ?_,?_⟩
  · change ((channel.mCliDataList ++ [(channel.started,_)]).map Prod.fst).Nodup
    rw [List.map_append]
    refine List.nodup_append.mpr ⟨ordered.numbers,List.nodup_singleton _,fun number member last here => ?_⟩
    obtain ⟨thread,inside,rfl⟩ := List.mem_map.mp member
    rw [List.map_singleton,List.mem_singleton] at here
    have below := ordered.fresh thread inside
    change last = channel.started at here
    omega
  · change other.1 < channel.started+1
    rcases List.mem_append.mp member with old | last
    · exact Nat.lt_succ_of_lt (ordered.fresh other old)
    · rw [List.mem_singleton.mp last]
      exact Nat.lt_succ_self _
  · rcases List.mem_append.mp member with old | last
    · exact ordered.proper other old
    · rw [List.mem_singleton.mp last]
      exact ⟨rfl,fun data there => there.elim (fun h => absurd h (new data).1) fun h => absurd h (new data).2⟩
  · obtain ⟨waiting,read,waits⟩ := ordered.whole
    refine ⟨waiting,read,fun other member data inside => ?_,fun number bodyLen wait => ?_⟩
    · rcases List.mem_append.mp member with old | last
      · exact waits.inside other old data inside
      · rw [List.mem_singleton.mp last] at inside
        exact absurd inside (new data).2
    · obtain ⟨other,member,same,inside⟩ := waits.someone number bodyLen wait
      exact ⟨other,List.mem_append_left _ member,same,inside⟩

theorem stop_ordered (ordered : Ordered mDataSockId channel)
    (found : channel.mCliDataList[place]? = some thread) : Ordered mDataSockId (channel.stop place thread) := by
  obtain ⟨waiting,read,waits⟩ := ordered.whole
  exact ordered_replaced _ ordered found (ordered.proper thread (List.mem_of_getElem? found)) read
    (waiting_quiet ordered.numbers found Iff.rfl (fun _ there => there) waits)

theorem joined_ordered (ordered : Ordered mDataSockId channel)
    (found : channel.mCliDataList[place]? = some thread) (ended : thread.2.place = .ended) :
    Ordered mDataSockId { channel with mCliDataList := channel.mCliDataList.eraseIdx place } := by
  have kept : ∀ other ∈ channel.mCliDataList.eraseIdx place, other ∈ channel.mCliDataList := fun other member =>
    (List.eraseIdx_sublist _ _).subset member
  refine ⟨?_,fun other member => ordered.fresh other (kept other member),
    fun other member => ordered.proper other (kept other member),?_⟩
  · exact ordered.numbers.sublist ((List.eraseIdx_sublist _ _).map _)
  · obtain ⟨waiting,read,waits⟩ := ordered.whole
    refine ⟨waiting,read,fun other member => waits.inside other (kept other member),fun number bodyLen wait => ?_⟩
    obtain ⟨other,member,same,inside⟩ := waits.someone number bodyLen wait
    refine ⟨other,?_,same,inside⟩
    obtain ⟨index,here⟩ := List.mem_iff_getElem?.mp member
    refine List.mem_eraseIdx_iff_getElem?.mpr ⟨index,?_,here⟩
    rintro rfl
    rw [found] at here
    cases Option.some.inj here
    obtain ⟨data,there⟩ := inside
    rw [ended] at there
    cases there

end Steps

section Runs

variable {mDataSockId : Int} {channel : DataChannel} {event : Event} {events : List Event}

theorem step_next (enabled : (dataSystem mDataSockId).Enabled channel event) :
    channel.step mDataSockId event = some ((dataSystem mDataSockId).next channel event) := by
  obtain ⟨after,ran⟩ := Option.isSome_iff_exists.mp enabled
  rw [ran]
  simp [dataSystem,ran]

theorem step_run {answer : DataAnswer} {place : Nat} {after : DataChannel}
    (ran : channel.step mDataSockId (.run place answer) = some after) :
    dataUnitLen ≤ answer.taken ∧ ∃ thread, channel.mCliDataList[place]? = some thread ∧
      after = channel.run place answer thread := by
  simp only [step] at ran
  split_ifs at ran with full
  obtain ⟨thread,found,same⟩ := Option.map_eq_some_iff.mp ran
  exact ⟨full,thread,found,same.symm⟩

theorem keep_ordered (socket : 0 ≤ mDataSockId) (ordered : Ordered mDataSockId channel)
    (enabled : (dataSystem mDataSockId).Enabled channel event) (alone : Alone channel event) :
    Ordered mDataSockId ((dataSystem mDataSockId).next channel event) := by
  have ran := step_next enabled
  generalize (dataSystem mDataSockId).next channel event = after at ran ⊢
  cases event with
  | start info fd created asked =>
    simp only [step] at ran
    split_ifs at ran
    cases ran
    exact start_ordered ordered info fd created asked
  | run place answer =>
    obtain ⟨full,thread,found,rfl⟩ := step_run ran
    exact run_ordered ordered socket full found (alone thread found)
  | stop place =>
    obtain ⟨thread,found,rfl⟩ := Option.map_eq_some_iff.mp ran
    exact stop_ordered ordered found
  | joined place =>
    obtain ⟨thread,found,ended⟩ := Option.bind_eq_some_iff.mp ran
    split_ifs at ended with past
    cases ended
    exact joined_ordered ordered found past

theorem lost_alone (ordered : Ordered mDataSockId channel)
    (enabled : (dataSystem mDataSockId).Enabled channel event)
    (whole : Whole ((dataSystem mDataSockId).next channel event).written) : Alone channel event := by
  have ran := step_next enabled
  generalize (dataSystem mDataSockId).next channel event = after at ran whole
  cases event with
  | run place answer =>
    obtain ⟨full,thread,found,rfl⟩ := step_run ran
    intro other there writes
    rw [found] at there
    cases there
    exact fun other member apart => run_whole ordered whole writes member apart
  | _ => trivial

theorem ordered_whole (ordered : Ordered mDataSockId channel) : Whole channel.written := by
  obtain ⟨waiting,read,_⟩ := ordered.whole
  exact (whole_expect channel.written).1 (by rw [read]; rfl)

theorem none_ordered (mDataSockId : Int) : Ordered mDataSockId {} :=
  ⟨List.nodup_nil,fun _ absent => (List.not_mem_nil absent).elim,
    fun _ absent => (List.not_mem_nil absent).elim,
    none,rfl,fun _ absent => (List.not_mem_nil absent).elim,fun _ _ absent => by cases absent⟩

/-- The socket carries whole units if and only if no thread writes while another one is between
the header and the body of a unit. -/
theorem dataChannel_whole_iff (socket : 0 ≤ mDataSockId)
    (follows : (dataSystem mDataSockId).Follows anyEvent {} events) :
    (∀ front, front <+: events → Whole (front.foldl (dataSystem mDataSockId).next {}).written) ↔
      (dataSystem mDataSockId).Follows Alone {} events := by
  apply follows_iff_kept (I := Ordered mDataSockId) (P := fun channel => Whole channel.written)
  · exact fun ordered enabled alone => keep_ordered socket ordered enabled alone
  · exact fun ordered enabled whole => lost_alone ordered enabled whole
  · exact fun ordered => ordered_whole ordered
  · exact none_ordered mDataSockId
  · exact follows

def fileRequest (name : Text) (fileId : Int) : DwldReqInfo := ⟨⟨1,name⟩,0,fileId⟩

def oneByte (read : Option Text) : DataAnswer := ⟨0,read,dataUnitLen⟩

def oneThread : List Event :=
  [.start (fileRequest [97] 0) 5 true .login,.run 0 (oneByte none),.run 0 (oneByte none),
    .run 0 (oneByte (some [7])),.run 0 (oneByte none),.run 0 (oneByte none),.run 0 (oneByte none)]

theorem dataChannel_whole_one :
    (∀ front, front <+: oneThread → Whole (front.foldl (dataSystem 4).next {}).written) ↔
      (dataSystem 4).Follows Alone {} oneThread :=
  dataChannel_whole_iff (by decide) (by decide)

/-- Two threads send a header each before one of them sends a body. -/
def twoHeaders : List Event :=
  [.start (fileRequest [97] 0) 5 true .login,.start (fileRequest [98] 1) 6 true .login,
    .run 0 (oneByte none),.run 0 (oneByte none),.run 0 (oneByte (some [7])),
    .run 1 (oneByte none),.run 1 (oneByte none),.run 1 (oneByte (some [8])),
    .run 0 (oneByte none),.run 1 (oneByte none)]

theorem dataChannel_two_headers :
    (dataSystem 4).Follows anyEvent {} twoHeaders ∧
      ¬ Whole (twoHeaders.foldl (dataSystem 4).next {}).written := by
  refine ⟨by decide,fun whole => ?_⟩
  obtain ⟨waiting,read⟩ := expect_whole whole
  have stuck : (twoHeaders.foldl (dataSystem 4).next {}).written.foldlM expect none = none := by decide
  rw [stuck] at read
  cases read

end Runs

end DataChannel

end MoCodes.MoCloud.Server
