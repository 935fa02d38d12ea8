import MoCodes.Lib.Layout
import MoCodes.Lib.Transition
import MoCodes.MoCloud.Proto
import MoCodes.Utils.SearchBf
import Mathlib.Data.List.GetD

/-! recvDataThr of cliData.c on its non-blocking data socket, one answer of a system call at a
time. What has come of a header or a body is in the buffer of the call that reads it, and
lost when that call returns early. -/
namespace MoCodes.MoCloud.Client.RecvData
open Lib.Layout Lib.Transition Utils.Search Lib.Matching

/-- `sizeof(MOCLOUD_DATA_HEADER)`. -/
def dataHeaderSize : Nat := 36

def parseHeader (tmp : List UInt8) : DataHeader where
  mark := cString (slice tmp 0 16)
  fileId := readInt (slice tmp 16 4)
  isEof := tmp.getD 20 0 != 0
  unitId := readInt (slice tmp 24 4)
  bodyLen := readInt (slice tmp 28 4)

/-- moCloudUtilsCheck_checksumCheckValue is a stub that looks at the sum alone. -/
def checksumCheckValue (sum : UInt8) : Bool := sum == 0xa

def searchMark (tmp : List UInt8) : Int :=
  searchBF (bytesOf tmp) dataHeaderSize (bytesOf markDwld) markDwld.length

/-- Where the thread is: in pselect, in a readn with what that call has got, about to call
saveDataToBuffer, or gone wrong in memory that is not its own. -/
inductive Place where
  | select
  | header (tmp : List UInt8) (startPos length : Nat) (got : List UInt8)
  | body (tmp got : List UInt8)
  | save (tmp body : List UInt8)
  | fault
  deriving DecidableEq

structure RecvThr where
  place : Place
  stream : List UInt8
  passed : List (DataHeader × List UInt8) := []

inductive Event where
  | pselect (ready : Bool)
  | read (n : Nat)
  | eintr
  | eagain
  | save
  deriving DecidableEq

def newHeader : Place := .header (List.replicate dataHeaderSize 0) 0 dataHeaderSize []

/-- A readn of nothing reads nothing, and one of less than nothing returns another number. -/
def startBody (tmp : List UInt8) : Place :=
  if (parseHeader tmp).bodyLen = 0 then .save tmp []
  else if (parseHeader tmp).bodyLen < 0 then .select
  else .body tmp []

/-- getDataHeader behind a readn that has read all it was to read. -/
def checkHeader (tmp : List UInt8) : Place :=
  let pos := searchMark tmp
  if pos < 0 then
    .header (tmp.drop (dataHeaderSize-markDwld.length) ++ tmp.drop markDwld.length) markDwld.length
      (dataHeaderSize-markDwld.length) []
  else if pos ≠ 0 then
    .header (tmp.drop pos.toNat ++ tmp.drop (dataHeaderSize-pos.toNat)) (pos.toNat+1) pos.toNat []
  else if checksumCheckValue (tmp.getD 32 0) then startBody tmp
  else newHeader

def readMore : Place → List UInt8 → Place
  | .header tmp startPos length got,bytes =>
    let got := got ++ bytes
    if dataHeaderSize < startPos+got.length then .fault
    else if got.length = length then checkHeader (tmp.take startPos ++ got ++ tmp.drop (startPos+length))
    else .header tmp startPos length got
  | .body tmp got,bytes =>
    let got := got ++ bytes
    if dataUnitLen < got.length then .fault
    else if (got.length : Int) = (parseHeader tmp).bodyLen then .save tmp got
    else .body tmp got
  | place,_ => place

/-- How many bytes the readn under way is still to read. -/
def left : Place → Nat
  | .header _ _ length got => length-got.length
  | .body tmp got => (parseHeader tmp).bodyLen.toNat-got.length
  | _ => 0

def Reading (place : Place) : Prop := 0 < left place

instance (place : Place) : Decidable (Reading place) := inferInstanceAs (Decidable (0 < left place))

def recvSystem : System RecvThr Event where
  Enabled thread
    | .pselect _ => thread.place = .select
    | .read n => 0 < n ∧ n ≤ left thread.place ∧ n ≤ thread.stream.length
    | .eintr => Reading thread.place
    | .eagain => Reading thread.place
    | .save => match thread.place with
      | .save _ _ => True
      | _ => False
  next thread
    | .pselect ready => { thread with place := if ready then newHeader else .select }
    | .read n =>
      { thread with place := readMore thread.place (thread.stream.take n), stream := thread.stream.drop n }
    | .eintr => thread
    -- readn returns less than it was to read, and the loop around it is left
    | .eagain => { thread with place := .select }
    | .save => match thread.place with
      | .save tmp body =>
        { thread with place := newHeader, passed := thread.passed ++ [(parseHeader tmp,body)] }
      | _ => thread

instance (thread : RecvThr) (event : Event) : Decidable (recvSystem.Enabled thread event) :=
  match event with
  | .pselect _ => inferInstanceAs (Decidable (_ = _))
  | .read _ => inferInstanceAs (Decidable (_ ∧ _))
  | .eintr => inferInstanceAs (Decidable (Reading _))
  | .eagain => inferInstanceAs (Decidable (Reading _))
  | .save => by
    change Decidable (match thread.place with
      | .save _ _ => True
      | _ => False)
    split <;> infer_instance

/-- A header as it lies in memory, and the body behind it. -/
abbrev WireUnit := List UInt8 × List UInt8

structure ValidUnit (unit : WireUnit) : Prop where
  size : unit.1.length = dataHeaderSize
  mark : unit.1.take markDwld.length = markDwld
  checkSum : checksumCheckValue (unit.1.getD 32 0) = true
  fileId : 0 ≤ (parseHeader unit.1).fileId ∧ (parseHeader unit.1).fileId < dwldTaskMaxNum
  bodyLen : (parseHeader unit.1).bodyLen = unit.2.length
  room : unit.2.length ≤ dataUnitLen

def wire (units : List WireUnit) : List UInt8 := units.flatMap fun unit => unit.1 ++ unit.2

def delivered (unit : WireUnit) : DataHeader × List UInt8 := (parseHeader unit.1,unit.2)

/-- What the thread has read of a unit that it has not passed on yet. -/
def held : Place → List UInt8
  | .header tmp startPos _ got => tmp.take startPos ++ got
  | .body tmp got => tmp ++ got
  | .save tmp body => tmp ++ body
  | _ => []

/-- The units in front have been passed on, each once, and the bytes of all others are held or
still to come; when no byte is to come and none is held, all units have been passed on. -/
structure Received (units : List WireUnit) (thread : RecvThr) : Prop where
  once : ∃ front rest, units = front ++ rest ∧ thread.passed = front.map delivered ∧
    held thread.place ++ thread.stream = wire rest
  all : held thread.place ++ thread.stream = [] → thread.passed = units.map delivered

/-- A read that gives EAGAIN does so between two units. -/
def NoCut (thread : RecvThr) (event : Event) : Prop := event = .eagain → held thread.place = []

instance (thread : RecvThr) (event : Event) : Decidable (NoCut thread event) :=
  inferInstanceAs (Decidable (_ → _))

def start (stream : List UInt8) : RecvThr := ⟨.select,stream,[]⟩

/-- Between two units, or so far into the next one as the buffers show. -/
def Inside (thread : RecvThr) (rest : List WireUnit) : Prop :=
  match thread.place with
  | .select => thread.stream = wire rest
  | .header tmp startPos length got =>
    tmp.length = dataHeaderSize ∧ startPos = 0 ∧ length = dataHeaderSize ∧ got.length < dataHeaderSize ∧
      got ++ thread.stream = wire rest
  | .body tmp got => ∃ body later, rest = (tmp,body)::later ∧ got.length < body.length ∧
      got ++ thread.stream = body ++ wire later
  | .save tmp body => ∃ later, rest = (tmp,body)::later ∧ thread.stream = wire later
  | .fault => False

def Aligned (units : List WireUnit) (thread : RecvThr) : Prop :=
  ∃ front rest, units = front ++ rest ∧ thread.passed = front.map delivered ∧ Inside thread rest

section Headers

theorem searchMark_front {tmp : List UInt8} (size : tmp.length = dataHeaderSize)
    (mark : tmp.take markDwld.length = markDwld) : searchMark tmp = 0 := by
  have checked : checkLen dataHeaderSize markDwld.length = none := checkLen_none.mpr (by decide)
  refine (searchBF_first checked ⟨Nat.zero_le _,?_,fun j below => absurd below (Nat.not_lt_zero j)⟩).trans rfl
  intro k bound
  have inside : k < tmp.length := by
    rw [size]
    exact Nat.lt_trans bound (by decide)
  have same := congrArg (·.getD k 0) mark
  rw [Nat.zero_add,bytesOf,bytesOf,← same]
  simp only [List.getD_eq_getElem?_getD,List.getElem?_take,if_pos bound]

variable {unit : WireUnit}

theorem checkHeader_valid (valid : ValidUnit unit) :
    checkHeader unit.1 = if unit.2 = [] then .save unit.1 [] else .body unit.1 [] := by
  rw [checkHeader,searchMark_front valid.size valid.mark]
  simp only [Int.lt_irrefl,if_false,ne_eq,not_true_eq_false,valid.checkSum,if_true]
  rw [startBody,valid.bodyLen]
  cases body : unit.2 with
  | nil => rfl
  | cons byte bytes =>
    rw [if_neg (by simp; omega),if_neg (by simp; omega),if_neg (List.cons_ne_nil _ _)]

theorem wire_cons (later : List WireUnit) : wire (unit::later) = unit.1 ++ (unit.2 ++ wire later) := by
  rw [wire,List.flatMap_cons,List.append_assoc]
  rfl

theorem wire_nil {rest : List WireUnit} (valid : ∀ unit ∈ rest, ValidUnit unit) (empty : wire rest = []) :
    rest = [] := by
  cases rest with
  | nil => rfl
  | cons unit later =>
    have size := (valid unit List.mem_cons_self).size
    rw [wire_cons] at empty
    rw [(List.append_eq_nil_iff.mp empty).1] at size
    cases size

end Headers

section Steps

variable {units : List WireUnit} {thread : RecvThr} {event : Event}

theorem received_of_aligned (valid : ∀ unit ∈ units, ValidUnit unit) (aligned : Aligned units thread) :
    Received units thread := by
  obtain ⟨front,rest,same,passed,inside⟩ := aligned
  have bytes : held thread.place ++ thread.stream = wire rest := by
    obtain ⟨place,stream,passed⟩ := thread
    cases place with
    | select => exact inside
    | header tmp startPos length got =>
      obtain ⟨_,rfl,_,_,bytes⟩ := inside
      exact bytes
    | body tmp got =>
      obtain ⟨body,later,rfl,_,bytes⟩ := inside
      rw [wire_cons,← bytes]
      exact List.append_assoc ..
    | save tmp body =>
      obtain ⟨later,rfl,bytes⟩ := inside
      rw [wire_cons,← bytes]
      exact List.append_assoc ..
    | fault => exact inside.elim
  refine ⟨⟨front,rest,same,passed,bytes⟩,fun empty => ?_⟩
  have none_left : rest = [] := by
    apply wire_nil _ (bytes ▸ empty)
    intro unit member
    exact valid unit (same ▸ List.mem_append_right _ member)
  rw [passed,same,none_left,List.append_nil]

theorem read_aligned {n : Nat} (valid : ∀ unit ∈ units, ValidUnit unit) (aligned : Aligned units thread)
    (enabled : recvSystem.Enabled thread (.read n)) : Aligned units (recvSystem.next thread (.read n)) := by
  obtain ⟨front,rest,same,passed,inside⟩ := aligned
  obtain ⟨place,stream,before⟩ := thread
  obtain ⟨some_byte,asked,there⟩ := enabled
  have taken : (stream.take n).length = n := List.length_take_of_le there
  refine ⟨front,rest,same,passed,?_⟩
  cases place with
  | select => exact absurd asked (Nat.not_le_of_lt some_byte)
  | header tmp startPos length got =>
    obtain ⟨size,rfl,rfl,short,bytes⟩ := inside
    have more : (got ++ stream.take n).length ≤ dataHeaderSize := by
      rw [List.length_append,taken]
      change n ≤ dataHeaderSize-got.length at asked
      omega
    have order : got ++ stream.take n ++ stream.drop n = wire rest := by
      rw [List.append_assoc,List.take_append_drop]
      exact bytes
    change Inside ⟨readMore (.header tmp 0 dataHeaderSize got) (stream.take n),stream.drop n,before⟩ rest
    rw [readMore,if_neg (by omega)]
    by_cases full : (got ++ stream.take n).length = dataHeaderSize
    · rw [if_pos full,Nat.zero_add,List.drop_of_length_le (by omega),List.take_zero,List.nil_append,
        List.append_nil]
      cases rest with
      | nil =>
        rw [wire,List.flatMap_nil] at order
        rw [(List.append_eq_nil_iff.mp order).1] at full
        cases full
      | cons unit later =>
        have right := valid unit (by rw [same]; simp)
        rw [wire_cons] at order
        obtain ⟨header,behind⟩ := List.append_inj order (full.trans right.size.symm)
        rw [header,checkHeader_valid right]
        split
        · rename_i empty
          refine ⟨later,?_,?_⟩
          · rw [← empty]
          · rw [behind,empty]
            rfl
        · rename_i some_body
          exact ⟨unit.2,later,rfl,List.length_pos_iff.mpr some_body,behind⟩
    · rw [if_neg full]
      exact ⟨size,rfl,rfl,by omega,order⟩
  | body tmp got =>
    obtain ⟨body,later,rfl,short,bytes⟩ := inside
    have right : ValidUnit (tmp,body) := valid (tmp,body) (by rw [same]; simp)
    have length : (parseHeader tmp).bodyLen = body.length := right.bodyLen
    have more : (got ++ stream.take n).length ≤ body.length := by
      rw [List.length_append,taken]
      change n ≤ (parseHeader tmp).bodyLen.toNat-got.length at asked
      rw [length] at asked
      omega
    have room : body.length ≤ dataUnitLen := right.room
    have order : got ++ stream.take n ++ stream.drop n = body ++ wire later := by
      rw [List.append_assoc,List.take_append_drop]
      exact bytes
    change Inside ⟨readMore (.body tmp got) (stream.take n),stream.drop n,before⟩ ((tmp,body)::later)
    rw [readMore,if_neg (by omega),length]
    by_cases full : (got ++ stream.take n).length = body.length
    · rw [if_pos (by rw [full])]
      obtain ⟨whole,behind⟩ := List.append_inj order full
      rw [whole]
      exact ⟨later,rfl,behind⟩
    · rw [if_neg (by omega)]
      exact ⟨body,later,rfl,by omega,order⟩
  | save tmp body => exact absurd asked (Nat.not_le_of_lt some_byte)
  | fault => exact inside.elim

theorem held_aligned (valid : ∀ unit ∈ units, ValidUnit unit) (aligned : Aligned units thread) :
    held thread.place ++ thread.stream = wire (units.drop thread.passed.length) := by
  obtain ⟨front,rest,same,passed,bytes⟩ := (received_of_aligned valid aligned).once
  rw [bytes,passed,same,List.length_map,List.drop_left]

theorem keep_aligned (valid : ∀ unit ∈ units, ValidUnit unit) (aligned : Aligned units thread)
    (enabled : recvSystem.Enabled thread event) (whole : NoCut thread event) :
    Aligned units (recvSystem.next thread event) := by
  cases event with
  | read n => exact read_aligned valid aligned enabled
  | eintr => exact aligned
  | pselect ready =>
    obtain ⟨front,rest,same,passed,inside⟩ := aligned
    obtain ⟨place,stream,before⟩ := thread
    cases (show place = .select from enabled)
    refine ⟨front,rest,same,passed,?_⟩
    cases ready with
    | false => exact inside
    | true => exact ⟨rfl,rfl,rfl,by decide,inside⟩
  | eagain =>
    have bytes := held_aligned valid aligned
    rw [whole rfl,List.nil_append] at bytes
    obtain ⟨front,rest,same,passed,_⟩ := aligned
    refine ⟨front,rest,same,passed,?_⟩
    change thread.stream = wire rest
    rw [bytes,passed,same,List.length_map,List.drop_left]
  | save =>
    obtain ⟨front,rest,same,passed,inside⟩ := aligned
    obtain ⟨place,stream,before⟩ := thread
    cases place with
    | save tmp body =>
      obtain ⟨later,rfl,bytes⟩ := inside
      refine ⟨front ++ [(tmp,body)],later,?_,?_,rfl,rfl,rfl,by decide,bytes⟩
      · rw [same,List.append_assoc]
        rfl
      · change before ++ _ = _
        rw [show before = front.map delivered from passed,List.map_append]
        rfl
    | _ => exact absurd enabled id

/-- A unit that is cut is lost: its first bytes are forgotten, and it is never passed on. -/
theorem eagain_received (valid : ∀ unit ∈ units, ValidUnit unit) (aligned : Aligned units thread)
    (received : Received units (recvSystem.next thread .eagain)) : held thread.place = [] := by
  have before := held_aligned valid aligned
  obtain ⟨front,rest,same,passed,bytes⟩ := received.once
  have after : thread.stream = wire (units.drop thread.passed.length) := by
    rw [show thread.passed = front.map delivered from passed,List.length_map,same,List.drop_left]
    exact bytes
  rw [← after] at before
  simpa using before

end Steps

section Runs

variable {units : List WireUnit} {events : List Event}

theorem start_aligned (units : List WireUnit) : Aligned units (start (wire units)) :=
  ⟨[],units,rfl,rfl,rfl⟩

/-- Every unit is passed on once and in order if and only if no read gives EAGAIN in the
middle of a unit. -/
theorem recvData_received_iff (valid : ∀ unit ∈ units, ValidUnit unit)
    (follows : recvSystem.Follows anyEvent (start (wire units)) events) :
    (∀ front, front <+: events → Received units (front.foldl recvSystem.next (start (wire units)))) ↔
      recvSystem.Follows NoCut (start (wire units)) events := by
  apply follows_iff_kept (I := Aligned units)
  · exact fun aligned enabled whole => keep_aligned valid aligned enabled whole
  · rintro state event aligned _ received rfl
    exact eagain_received valid aligned received
  · exact fun aligned => received_of_aligned valid aligned
  · exact start_aligned units
  · exact follows

/-- Unit 0 of the file with the number 3, of two bytes. -/
def twoBytes : WireUnit :=
  (padded 16 markDwld ++ writeInt 4 3 ++ padded 4 [] ++ writeInt 4 0 ++ writeInt 4 2 ++ padded 4 [0xa],[7,8])

theorem twoBytes_valid : ∀ unit ∈ [twoBytes], ValidUnit unit := by
  intro unit member
  rw [List.mem_singleton.mp member]
  exact ⟨by decide,by decide,by decide,by decide,by decide,by decide⟩

theorem recvData_received_pieces :
    (∀ front, front <+: [.pselect true,.read 20,.eintr,.read 16,.read 1,.read 1,.save,.eagain,.pselect false] →
      Received [twoBytes] (front.foldl recvSystem.next (start (wire [twoBytes])))) ↔
    recvSystem.Follows NoCut (start (wire [twoBytes]))
      [.pselect true,.read 20,.eintr,.read 16,.read 1,.read 1,.save,.eagain,.pselect false] :=
  recvData_received_iff twoBytes_valid (by decide)

theorem recvData_cut_header :
    ∃ units events, (∀ unit ∈ units, ValidUnit unit) ∧ recvSystem.Follows anyEvent (start (wire units)) events ∧
      ¬ Received units (events.foldl recvSystem.next (start (wire units))) := by
  refine ⟨[twoBytes],[.pselect true,.read 20,.eagain],twoBytes_valid,by decide,fun received => ?_⟩
  have ready : Aligned [twoBytes] (recvSystem.next (start (wire [twoBytes])) (.pselect true)) :=
    keep_aligned twoBytes_valid (start_aligned _) rfl (by decide)
  have part := read_aligned (n := 20) twoBytes_valid ready (by decide)
  exact absurd (eagain_received twoBytes_valid part received) (by decide)

end Runs

end MoCodes.MoCloud.Client.RecvData
