import MoCodes.MoCloud.Client.UnitList
import MoCodes.MoCloud.Server.SendFile

/-! One download from the file of the server to the file of the client: the thread of the server,
the data socket, the receive thread and the thread that writes, in any order of their steps.
The socket delivers all bytes in order and the disk takes every write. -/
namespace MoCodes.MoCloud
open Lib.Blocks Lib.PosFile Lib.Transition Client Client.RecvData Client.UnitList Server Server.SendFile

/-- writeFile: `fseek` refuses a negative offset. -/
def writeFile (localFile : List UInt8) (info : DwldUnitInfo) : List UInt8 :=
  let offset := toInt (info.unitId*dataUnitLen)
  let bytes := info.body.take info.bodyLen.toNat
  if offset < 0 ∨ bytes = [] then localFile else writeAt 0 localFile offset.toNat bytes

/-- Where writeFileThr is: in sem_wait, about to lock the list, with a unit that it has taken, or
at its end. -/
inductive WritePlace where
  | wait
  | look
  | handle (curInfo : DwldUnitInfo)
  | exited

/-- `posting` is the receive thread between saveDataToBuffer and sem_post, `isEofDone` is set when
the writing thread has processed the unit that tells the end of the file. -/
structure Download where
  thread : CliData
  sent : List Sent := []
  recv : RecvThr := RecvData.start []
  posting : Bool := false
  list : UnitList.State
  writeFileThrsem : Nat := 0
  writer : WritePlace := .wait
  localFile : List UInt8
  isEofDone : Bool := false

namespace Download

inductive Event where
  | serve
  | recv (event : RecvData.Event)
  | save (malloc : Option Nat) (turns : Nat)
  | post
  | semWait
  | look
  | handle

section Steps

variable (download : Download)

def serve (file : List UInt8) : Download :=
  let (thread,writes) := download.thread.run (fileAnswer file download.thread)
  { download with
    thread
    sent := download.sent ++ writes
    recv := { download.recv with stream := download.recv.stream ++ writes.flatMap sentBytes } }

/-- A unit with another number goes to another list. -/
def save (fileId : Int) (header : DataHeader) (body : List UInt8) (malloc : Option Nat) (turns : Nat) :
    Download :=
  if header.fileId = fileId then
    { download with
      recv := recvSystem.next download.recv .save
      list := unitSystem.next download.list (.save header body malloc turns)
      posting := match saveDataToBuffer download.list.isStopWriteFileThr download.list.heap
          download.list.pDwldUnitListHead header body malloc turns with
        | some (some (ret,_)) => ret == 0
        | _ => false }
  else { download with recv := recvSystem.next download.recv .save }

/-- A thread that is to stop frees what is in the list. -/
def look : Download :=
  if download.list.isStopWriteFileThr then
    { download with
      list := { download.list with
        heap := Lib.Ring.allocate (fun _ => none) download.list.pDwldUnitListHead zeroUnit }
      writer := .exited }
  else
    { download with
      list := unitSystem.next download.list .take
      writer := match takeUnit download.list.heap download.list.pDwldUnitListHead with
        | some (some curInfo,_) => .handle curInfo
        | _ => .look }

def handle (curInfo : DwldUnitInfo) : Download :=
  if curInfo.isEof then
    { download with
      list := unitSystem.next download.list .stop
      writer := .look
      isEofDone := true }
  else { download with writer := .look, localFile := writeFile download.localFile curInfo }

end Steps

def downloadSystem (file : List UInt8) (fileId : Int) : System Download Event where
  Enabled download
    | .serve => download.thread.place ≠ .ended
    | .recv event => download.posting = false ∧ event ≠ .save ∧ recvSystem.Enabled download.recv event
    | .save malloc turns => download.posting = false ∧
      match download.recv.place with
      | .save tmp body => unitSystem.Enabled download.list (.save (parseHeader tmp) body malloc turns)
      | _ => False
    | .post => download.posting = true
    | .semWait => match download.writer with
      | .wait => 0 < download.writeFileThrsem
      | _ => False
    | .look => match download.writer with
      | .look => True
      | _ => False
    | .handle => match download.writer with
      | .handle _ => True
      | _ => False
  next download
    | .serve => download.serve file
    | .recv event => { download with recv := recvSystem.next download.recv event }
    | .save malloc turns => match download.recv.place with
      | .save tmp body => download.save fileId (parseHeader tmp) body malloc turns
      | _ => download
    | .post => { download with posting := false, writeFileThrsem := download.writeFileThrsem+1 }
    | .semWait => { download with writer := .look, writeFileThrsem := download.writeFileThrsem-1 }
    | .look => download.look
    | .handle => match download.writer with
      | .handle curInfo => download.handle curInfo
      | _ => download

/-- No read gives EAGAIN in the middle of a unit, and there is memory for each unit. -/
def Uncut (download : Download) : Event → Prop
  | .recv event => NoCut download.recv event
  | .save malloc _ => malloc.isSome
  | _ => True

/-- Both sides when the download starts. -/
def start (mSockId : Int) (info : DwldReqInfo) (fd : Int) (localFile : List UInt8) : Download where
  thread := newCliData mSockId info fd true .login
  list := UnitList.start 0 zeroUnit
  localFile := localFile

instance (file : List UInt8) (fileId : Int) (download : Download) (event : Event) :
    Decidable ((downloadSystem file fileId).Enabled download event) :=
  match event with
  | .serve => inferInstanceAs (Decidable (_ ≠ _))
  | .recv _ => inferInstanceAs (Decidable (_ ∧ _))
  | .save malloc turns => by
    change Decidable (_ ∧ match download.recv.place with
      | .save tmp body => unitSystem.Enabled download.list (.save (parseHeader tmp) body malloc turns)
      | _ => False)
    split <;> infer_instance
  | .post => inferInstanceAs (Decidable (_ = _))
  | .semWait => by
    change Decidable (match download.writer with
      | .wait => 0 < download.writeFileThrsem
      | _ => False)
    split <;> infer_instance
  | .look => by
    change Decidable (match download.writer with
      | .look => True
      | _ => False)
    split <;> infer_instance
  | .handle => by
    change Decidable (match download.writer with
      | .handle _ => True
      | _ => False)
    split <;> infer_instance

section Units

/-- What the writing thread does with a unit to the file. -/
def handleFile (localFile : List UInt8) (info : DwldUnitInfo) : List UInt8 :=
  if info.isEof then localFile else writeFile localFile info

/-- The units of the file from `k` on, as the client saves them. -/
def infosFrom (file : List UInt8) (fileId : Int) (k : Nat) : List DwldUnitInfo :=
  (unitsFrom file k).map fun k => unitInfo (unitHeader file fileId k) (blockAt dataUnitLen file k)

def eofInfo (fileId : Int) : DwldUnitInfo := unitInfo (eofHeader fileId) []

def passedInfo (unit : DataHeader × List UInt8) : DwldUnitInfo := unitInfo unit.1 unit.2

variable {file : List UInt8} {fileId : Int} {k : Nat}

theorem infosFrom_data : ∀ info ∈ infosFrom file fileId k, info.isEof = false := by
  intro info member
  obtain ⟨unit,_,rfl⟩ := List.mem_map.mp member
  rfl

theorem passed_infos (file : List UInt8) (k : Nat) (slot : 0 ≤ fileId ∧ fileId < dwldTaskMaxNum) (size : file.length < 2^31) :
    ((wireUnits file fileId k).map delivered).map passedInfo = infosFrom file fileId k ++ [eofInfo fileId] := by
  rw [wireUnits_delivered slot size,List.map_append,List.map_map]
  rfl

theorem front_all {front data : List DwldUnitInfo} {last : DwldUnitInfo}
    (no_eof : ∀ info ∈ data, info.isEof = false) (before : front <+: data ++ [last])
    (eof : ∃ info ∈ front, info.isEof = true) : front = data ++ [last] := by
  rcases List.prefix_concat_iff.mp before with all | inner
  · exact all
  · obtain ⟨info,member,here⟩ := eof
    rw [no_eof info (inner.subset member)] at here
    cases here

theorem writeFile_at (info : DwldUnitInfo) (pos : Nat) (offset : toInt (info.unitId*dataUnitLen) = pos)
    (some_byte : info.body.take info.bodyLen.toNat ≠ []) (localFile : List UInt8) :
    writeFile localFile info = writeAt 0 localFile pos (info.body.take info.bodyLen.toNat) := by
  rw [writeFile,offset,if_neg,Int.toNat_natCast]
  rintro (negative | empty)
  · omega
  · exact some_byte empty

theorem handle_unit (size : file.length < 2^31) {unit : Nat} (inside : unit ∈ unitsFrom file k)
    (localFile : List UInt8) :
    handleFile localFile (unitInfo (unitHeader file fileId unit) (blockAt dataUnitLen file unit)) =
      writeAt 0 localFile (unit*dataUnitLen) (blockAt dataUnitLen file unit) := by
  obtain ⟨step,below,same⟩ := List.mem_range'.mp inside
  have more : unit < blockCount dataUnitLen file := by omega
  have block : unit*dataUnitLen < file.length := (lt_blockCount (by decide)).mp more
  have offset : toInt ((unit : Int)*dataUnitLen) = (unit*dataUnitLen : Nat) := by
    rw [toInt,Int.bmod_eq_of_le] <;> omega
  have body : (blockAt dataUnitLen file unit).take ((blockAt dataUnitLen file unit).length : Int).toNat =
      blockAt dataUnitLen file unit := by
    rw [Int.toNat_natCast,List.take_length]
  have data : (unitInfo (unitHeader file fileId unit) (blockAt dataUnitLen file unit)).isEof = false := rfl
  rw [handleFile,data,if_neg Bool.false_ne_true]
  have written := writeFile_at (unitInfo (unitHeader file fileId unit) (blockAt dataUnitLen file unit))
    (unit*dataUnitLen) offset (fun empty => block_some.mpr more (body.symm.trans empty)) localFile
  exact written.trans (congrArg (writeAt 0 localFile (unit*dataUnitLen)) body)

/-- All units, one after the other, fill the file from the first of them on. -/
theorem handle_all (size : file.length < 2^31) (localFile : List UInt8) :
    (infosFrom file fileId k ++ [eofInfo fileId]).foldl handleFile localFile =
      fill 0 dataUnitLen file k (blockCount dataUnitLen file-k) localFile := by
  have eof (localFile : List UInt8) : handleFile localFile (eofInfo fileId) = localFile := rfl
  rw [List.foldl_append,List.foldl_cons,List.foldl_nil,eof,infosFrom,List.foldl_map,fill]
  exact List.foldl_ext _ _ _ fun localFile unit inside => handle_unit size inside localFile

end Units

/-- The unit that the writing thread has taken and not yet processed. -/
def holding : WritePlace → List DwldUnitInfo
  | .handle curInfo => [curInfo]
  | _ => []

/-- The receiver, with what the server has still to send behind what is on its way. -/
def whole (recv : RecvThr) (rest : List Sent) : RecvThr :=
  { recv with stream := recv.stream ++ rest.flatMap sentBytes }

/-- What has been written, and what is still on its way through the threads. -/
structure Good (file : List UInt8) (fileId : Int) (k : Nat) (initial : List UInt8) (download : Download) :
    Prop where
  served : ∃ rest, writesFrom file fileId k = download.sent ++ rest ∧ Ahead file fileId download.thread rest ∧
    Aligned (wireUnits file fileId k) (whole download.recv rest)
  ordered : Ordered download.list
  saved : download.list.saved = download.recv.passed.map passedInfo
  handled : ∃ handled, download.list.taken = handled ++ holding download.writer ∧
    download.localFile = handled.foldl handleFile initial ∧
    (download.isEofDone = true ↔ ∃ info ∈ handled, info.isEof = true)
  stop : download.list.isStopWriteFileThr = download.isEofDone

section Invariant

variable {file initial : List UInt8} {fileId : Int} {k : Nat} {download : Download}
  (slot : 0 ≤ fileId ∧ fileId < dwldTaskMaxNum) (size : file.length < 2^31)

theorem whole_next {recv : RecvThr} {event : RecvData.Event} (rest : List Sent) (other : event ≠ .save)
    (enabled : recvSystem.Enabled recv event) : recvSystem.Enabled (whole recv rest) event ∧
      recvSystem.next (whole recv rest) event = whole (recvSystem.next recv event) rest ∧
      (recvSystem.next recv event).passed = recv.passed := by
  cases event with
  | save => exact absurd rfl other
  | read n =>
    obtain ⟨some_byte,asked,there⟩ := enabled
    refine ⟨⟨some_byte,asked,?_⟩,?_,rfl⟩
    · change n ≤ (recv.stream ++ rest.flatMap sentBytes).length
      rw [List.length_append]
      exact Nat.le_add_right_of_le there
    · change RecvThr.mk (readMore recv.place ((recv.stream ++ rest.flatMap sentBytes).take n))
          ((recv.stream ++ rest.flatMap sentBytes).drop n) recv.passed = _
      rw [List.take_append_of_le_length there,List.drop_append_of_le_length there]
      rfl
  | _ => exact ⟨enabled,rfl,rfl⟩

include slot size

/-- What has been taken is a front of the units of the file, and all of them once the end is in it. -/
theorem taken_front (good : Good file fileId k initial download) :
    download.list.taken <+: infosFrom file fileId k ++ [eofInfo fileId] := by
  obtain ⟨rest,_,_,front,later,same,passed,_⟩ := good.served
  obtain ⟨_,unused,used,_,order⟩ := good.ordered
  have all := passed_infos file k slot size
  have here : download.recv.passed = front.map delivered := passed
  rw [same,List.map_append,List.map_append,← here,← good.saved,order,List.append_assoc] at all
  exact ⟨_,all⟩

theorem taken_all (good : Good file fileId k initial download) (eof : download.isEofDone = true) :
    ∃ handled, download.list.taken = handled ∧ holding download.writer = [] ∧
      handled = infosFrom file fileId k ++ [eofInfo fileId] ∧ download.list.saved = handled ∧
      download.localFile = handled.foldl handleFile initial := by
  obtain ⟨handled,taken,written,ends⟩ := good.handled
  have before := taken_front slot size good
  rw [taken] at before
  have inner : handled <+: infosFrom file fileId k ++ [eofInfo fileId] :=
    (List.prefix_append _ _).trans before
  have all := front_all infosFrom_data inner (ends.mp eof)
  have nothing : holding download.writer = [] := by
    have length := before.length_le
    rw [← all,List.length_append] at length
    exact List.eq_nil_of_length_eq_zero (by omega)
  refine ⟨handled,by rw [taken,nothing,List.append_nil],nothing,all,?_,written⟩
  obtain ⟨rest,_,_,front,later,same,passed,_⟩ := good.served
  obtain ⟨_,unused,used,_,order⟩ := good.ordered
  have infos := passed_infos file k slot size
  have here : download.recv.passed = front.map delivered := passed
  rw [same,List.map_append,List.map_append,← here,← good.saved,order,taken,nothing,List.append_nil,← all,
    List.append_assoc] at infos
  have unread_none : unread used = [] := (List.append_eq_nil_iff.mp (List.append_right_eq_self.mp infos)).1
  rw [order,taken,nothing,unread_none,List.append_nil,List.append_nil]

omit slot in
theorem serve_good (good : Good file fileId k initial download) : Good file fileId k initial (download.serve file) := by
  obtain ⟨rest,writes,ahead,aligned⟩ := good.served
  obtain ⟨later,split,next⟩ := serve_ahead size ahead
  refine ⟨⟨later,?_,next,?_⟩,good.ordered,good.saved,good.handled,good.stop⟩
  · change writesFrom file fileId k =
      download.sent ++ (download.thread.run (fileAnswer file download.thread)).2 ++ later
    rw [writes,split,List.append_assoc]
  · rw [split] at aligned
    have same : whole (download.serve file).recv later = whole download.recv
        ((download.thread.run (fileAnswer file download.thread)).2 ++ later) := by
      rw [whole,whole,List.flatMap_append,← List.append_assoc]
      rfl
    rw [same]
    exact aligned

theorem recv_good {event : RecvData.Event} (good : Good file fileId k initial download) (other : event ≠ .save)
    (enabled : recvSystem.Enabled download.recv event) (uncut : NoCut download.recv event) :
    Good file fileId k initial { download with recv := recvSystem.next download.recv event } := by
  obtain ⟨rest,writes,ahead,aligned⟩ := good.served
  obtain ⟨ready,same,passed⟩ := whole_next rest other enabled
  have next := keep_aligned (wireUnits_valid slot size) aligned ready uncut
  rw [same] at next
  refine ⟨⟨rest,writes,ahead,next⟩,good.ordered,?_,good.handled,good.stop⟩
  rw [passed]
  exact good.saved

/-- A unit that is about to be saved is one of the file, and comes before the end. -/
theorem save_pending (good : Good file fileId k initial download) {tmp body : List UInt8}
    (place : download.recv.place = .save tmp body) :
    (parseHeader tmp).fileId = fileId ∧ download.isEofDone = false := by
  obtain ⟨rest,_,_,front,later,same,passed,inside⟩ := good.served
  have at_save : (whole download.recv rest).place = .save tmp body := place
  rw [Inside,at_save] at inside
  obtain ⟨others,rfl,_⟩ := inside
  constructor
  · have member : delivered (tmp,body) ∈ (wireUnits file fileId k).map delivered :=
      List.mem_map_of_mem (by rw [same]; simp)
    rw [wireUnits_delivered slot size] at member
    rcases List.mem_append.mp member with data | eof
    · obtain ⟨unit,_,equal⟩ := List.mem_map.mp data
      exact (congrArg (fun pair : DataHeader × List UInt8 => pair.1.fileId) equal).symm
    · exact congrArg (fun pair : DataHeader × List UInt8 => pair.1.fileId) (List.mem_singleton.mp eof)
  · by_contra done
    obtain ⟨handled,_,_,all,saved,_⟩ := taken_all slot size good (Bool.eq_true_of_not_eq_false done)
    have infos := passed_infos file k slot size
    have here : download.recv.passed = front.map delivered := passed
    rw [same,← all,← saved,good.saved,here] at infos
    have length := congrArg List.length infos
    simp at length

theorem save_good {tmp body : List UInt8} {malloc : Option Nat} {turns : Nat}
    (good : Good file fileId k initial download) (place : download.recv.place = .save tmp body)
    (enabled : unitSystem.Enabled download.list (.save (parseHeader tmp) body malloc turns))
    (memory : malloc ≠ none) :
    Good file fileId k initial (download.save fileId (parseHeader tmp) body malloc turns) := by
  obtain ⟨same_slot,not_done⟩ := save_pending slot size good place
  obtain ⟨rest,writes,ahead,aligned⟩ := good.served
  have at_save : (whole download.recv rest).place = .save tmp body := place
  have runs : download.list.isStopWriteFileThr = false := good.stop.trans not_done
  have ready : recvSystem.Enabled (whole download.recv rest) .save := by
    change match (whole download.recv rest).place with
      | .save _ _ => True
      | _ => False
    rw [at_save]
    trivial
  have next := keep_aligned (wireUnits_valid slot size) aligned ready (by intro h; cases h)
  have taken : (unitSystem.next download.list (.save (parseHeader tmp) body malloc turns)).taken =
      download.list.taken := by
    change (download.list.save _ _ _).taken = _
    rcases saveDataToBuffer _ _ _ _ _ _ _ with _ | _ | _ <;> rfl
  have stop : (unitSystem.next download.list (.save (parseHeader tmp) body malloc turns)).isStopWriteFileThr =
      download.list.isStopWriteFileThr := by
    change (download.list.save _ _ _).isStopWriteFileThr = _
    rcases saveDataToBuffer _ _ _ _ _ _ _ with _ | _ | _ <;> rfl
  have after : recvSystem.next download.recv .save =
      { download.recv with
        place := newHeader, passed := download.recv.passed ++ [(parseHeader tmp,body)] } := by
    simp only [recvSystem,place]
  have after' : recvSystem.next (whole download.recv rest) .save =
      whole (recvSystem.next download.recv .save) rest := by
    rw [after]
    simp only [recvSystem,at_save]
    rfl
  rw [Download.save,if_pos same_slot]
  rw [after'] at next
  refine ⟨⟨rest,writes,ahead,next⟩,save_ordered good.ordered enabled,?_,?_,stop.trans good.stop⟩
  · dsimp only
    rw [save_done good.ordered enabled runs memory,after,good.saved]
    dsimp only
    rw [List.map_append]
    rfl
  · dsimp only
    rw [taken]
    exact good.handled

theorem look_good (good : Good file fileId k initial download) (place : download.writer = .look) :
    Good file fileId k initial download.look := by
  obtain ⟨handled,taken,written,ends⟩ := good.handled
  rw [place] at taken
  rw [Download.look]
  by_cases stop : download.list.isStopWriteFileThr = true
  · rw [if_pos stop]
    have done : download.isEofDone = true := good.stop.symm.trans stop
    obtain ⟨all,taken_all,_,_,saved_all,_⟩ := taken_all slot size good done
    refine ⟨good.served,?_,good.saved,⟨handled,taken,written,ends⟩,good.stop⟩
    refine ⟨good.ordered.1,[],[],?_,?_⟩
    · exact start_split download.list.pDwldUnitListHead zeroUnit
    · change download.list.saved = download.list.taken ++ []
      rw [saved_all,taken_all,List.append_nil]
  · rw [if_neg stop]
    have next := (take_ordered good.ordered).1
    refine ⟨good.served,next,?_,?_,?_⟩
    · change (download.list.take _).saved = _
      rcases takeUnit _ _ with _ | _ | _ <;> exact good.saved
    · refine ⟨handled,?_,written,ends⟩
      change (download.list.take _).taken = _
      rcases takeUnit _ _ with _ | ⟨_ | curInfo,after⟩
      · exact taken
      · exact (List.append_nil _).trans taken
      · change download.list.taken ++ [curInfo] = handled ++ [curInfo]
        rw [taken]
        exact congrArg (· ++ [curInfo]) (List.append_nil handled)
    · change (download.list.take _).isStopWriteFileThr = _
      rcases takeUnit _ _ with _ | _ | _ <;> exact good.stop

omit slot size in
theorem handle_good {curInfo : DwldUnitInfo} (good : Good file fileId k initial download)
    (place : download.writer = .handle curInfo) : Good file fileId k initial (download.handle curInfo) := by
  obtain ⟨handled,taken,written,ends⟩ := good.handled
  rw [place] at taken
  rw [Download.handle]
  cases eof : curInfo.isEof with
  | true =>
    rw [if_pos rfl]
    refine ⟨good.served,good.ordered,good.saved,⟨handled ++ [curInfo],?_,?_,?_⟩,rfl⟩
    · change download.list.taken = handled ++ [curInfo] ++ []
      rw [taken,List.append_nil]
      rfl
    · change download.localFile = _
      rw [List.foldl_append,← written,List.foldl_cons,List.foldl_nil,handleFile,if_pos eof]
    · exact iff_of_true rfl ⟨curInfo,by simp,eof⟩
  | false =>
    rw [if_neg Bool.false_ne_true]
    refine ⟨good.served,good.ordered,good.saved,⟨handled ++ [curInfo],?_,?_,?_⟩,good.stop⟩
    · change download.list.taken = handled ++ [curInfo] ++ []
      rw [taken,List.append_nil]
      rfl
    · change writeFile download.localFile curInfo = _
      rw [List.foldl_append,← written,List.foldl_cons,List.foldl_nil,handleFile,eof,
        if_neg Bool.false_ne_true]
    · refine ends.trans ⟨fun ⟨info,member,here⟩ => ⟨info,List.mem_append_left _ member,here⟩,?_⟩
      rintro ⟨info,member,here⟩
      rcases List.mem_append.mp member with before | last
      · exact ⟨info,before,here⟩
      · rw [List.mem_singleton.mp last,eof] at here
        cases here

theorem keep_good {event : Event} (good : Good file fileId k initial download)
    (enabled : (downloadSystem file fileId).Enabled download event) (uncut : Uncut download event) :
    Good file fileId k initial ((downloadSystem file fileId).next download event) := by
  cases event with
  | serve => exact serve_good size good
  | recv event => exact recv_good slot size good enabled.2.1 enabled.2.2 uncut
  | save malloc turns =>
    obtain ⟨_,ready⟩ := enabled
    change Good file fileId k initial (match download.recv.place with
      | .save tmp body => download.save fileId (parseHeader tmp) body malloc turns
      | _ => download)
    cases place : download.recv.place with
    | save tmp body =>
      rw [place] at ready
      exact save_good slot size good place ready (Option.isSome_iff_ne_none.mp uncut)
    | _ =>
      rw [place] at ready
      exact ready.elim
  | post => exact ⟨good.served,good.ordered,good.saved,good.handled,good.stop⟩
  | semWait =>
    obtain ⟨handled,taken,written,ends⟩ := good.handled
    refine ⟨good.served,good.ordered,good.saved,⟨handled,?_,written,ends⟩,good.stop⟩
    cases place : download.writer with
    | wait => rwa [place] at taken
    | _ =>
      simp only [downloadSystem,place] at enabled
  | look =>
    cases place : download.writer with
    | look => exact look_good slot size good place
    | _ => simp only [downloadSystem,place] at enabled
  | handle =>
    change Good file fileId k initial (match download.writer with
      | .handle curInfo => download.handle curInfo
      | _ => download)
    cases place : download.writer with
    | handle curInfo => exact handle_good good place
    | _ => simp only [downloadSystem,place] at enabled

end Invariant

section Runs

variable {file localFile : List UInt8} {mSockId fd : Int} {info : DwldReqInfo} {download : Download}

/-- The unit of the start offset. -/
def firstUnit (info : DwldReqInfo) : Nat := info.startOffset.toNat/dataUnitLen

/-- The file that is there, filled up with zeros to the first unit, has the bytes in front of it
and is not longer; where nothing is to be sent it is the file. -/
def Prepared (file localFile : List UInt8) (first : Nat) : Prop :=
  if first < blockCount dataUnitLen file then
    localFile.length ≤ file.length ∧ localFile.takeD (first*dataUnitLen) 0 = file.take (first*dataUnitLen)
  else localFile = file

theorem filled_iff {first : Nat} :
    fill 0 dataUnitLen file first (blockCount dataUnitLen file-first) localFile = file ↔
      Prepared file localFile first := by
  rw [Prepared]
  by_cases more : first < blockCount dataUnitLen file
  · rw [if_pos more]
    exact fill_iff (by decide) (by omega) (by omega)
  · rw [if_neg more,Nat.sub_eq_zero_of_le (Nat.le_of_not_lt more)]
    rfl

variable (slot : 0 ≤ info.fileId ∧ info.fileId < dwldTaskMaxNum) (size : file.length < 2^31)
  (offset : 0 ≤ info.startOffset ∧ info.startOffset < 2^31) (socket : 0 ≤ mSockId) (handle : 0 ≤ fd)

include offset socket handle in
theorem start_ahead : Ahead file info.fileId (newCliData mSockId info fd true .login)
    (writesFrom file info.fileId (firstUnit info)) := by
  have same : toSize info.startOffset = info.startOffset.toNat := by
    rw [toSize,Int.emod_eq_of_lt offset.1 (by omega)]
  have below : firstUnit info*dataUnitLen ≤ info.startOffset.toNat := Nat.div_mul_le_self _ _
  have small : firstUnit info ≤ info.startOffset.toNat := Nat.div_le_self _ _
  have unit : (newCliData mSockId info fd true .login).unitId = firstUnit info := by
    rw [newCliData,same,← firstUnit,toInt,Int.bmod_eq_of_le] <;> omega
  exact ⟨⟨rfl,handle,socket⟩,rfl,firstUnit info,unit,rfl,by omega⟩

include slot size offset socket handle in
theorem run_good (run : (downloadSystem file info.fileId).Run Uncut (start mSockId info fd localFile) download) :
    Good file info.fileId (firstUnit info) localFile download := by
  refine run_invariant ?_ (fun good enabled uncut => keep_good slot size good enabled uncut) run
  refine ⟨⟨writesFrom file info.fileId (firstUnit info),(List.nil_append _).symm,
    start_ahead offset socket handle,?_⟩,UnitList.start_ordered 0 zeroUnit,rfl,
    ⟨[],rfl,rfl,by simp [start]⟩,rfl⟩
  have bytes : whole (start mSockId info fd localFile).recv (writesFrom file info.fileId (firstUnit info)) =
      RecvData.start (wire (wireUnits file info.fileId (firstUnit info))) := by
    rw [whole,writes_wire]
    rfl
  rw [bytes]
  exact start_aligned _

include slot size offset socket handle in
/-- In every run without a cut unit the server sends the units of the file one after the other
and the end behind them, and when the client has processed the end it has the file if and only
if its own file was prepared for it. -/
theorem download_file
    (run : (downloadSystem file info.fileId).Run Uncut (start mSockId info fd localFile) download) :
    download.sent <+: writesFrom file info.fileId (firstUnit info) ∧
      (download.thread.place = .ended → download.sent = writesFrom file info.fileId (firstUnit info)) ∧
      (download.isEofDone = true → (download.localFile = file ↔ Prepared file localFile (firstUnit info))) := by
  have good := run_good slot size offset socket handle run
  obtain ⟨rest,writes,ahead,_⟩ := good.served
  refine ⟨⟨rest,writes.symm⟩,fun ended => ?_,fun eof => ?_⟩
  · obtain ⟨k,_,left⟩ := ahead.left
    rw [ended] at left
    rw [writes,show rest = [] from left,List.append_nil]
  · obtain ⟨handled,_,_,all,_,written⟩ := taken_all slot size good eof
    rw [written,all,handle_all size]
    exact filled_iff

instance (download : Download) (event : Event) : Decidable (Uncut download event) :=
  match event with
  | .recv _ => inferInstanceAs (Decidable (NoCut _ _))
  | .save malloc _ => inferInstanceAs (Decidable (malloc.isSome = true))
  | .serve => isTrue trivial
  | .post => isTrue trivial
  | .semWait => isTrue trivial
  | .look => isTrue trivial
  | .handle => isTrue trivial

def newFile : DwldReqInfo := ⟨⟨1,[97]⟩,0,0⟩

/-- A file of one byte, sent before the client reads anything. -/
def oneByte : List Event :=
  [.serve,.serve,.serve,.serve,.serve,.serve,.recv (.pselect true),.recv (.read 36),.recv (.read 1),
    .save (some 1) 0,.post,.recv (.read 36),.semWait,.look,.save (some 2) 2,.handle,.post,.look,.handle,.look]

theorem download_file_oneByte :
    (oneByte.foldl (downloadSystem [7] newFile.fileId).next (start 4 newFile 5 [])).sent <+:
        writesFrom [7] newFile.fileId (firstUnit newFile) ∧
      ((oneByte.foldl (downloadSystem [7] newFile.fileId).next (start 4 newFile 5 [])).thread.place = .ended →
        (oneByte.foldl (downloadSystem [7] newFile.fileId).next (start 4 newFile 5 [])).sent =
          writesFrom [7] newFile.fileId (firstUnit newFile)) ∧
      ((oneByte.foldl (downloadSystem [7] newFile.fileId).next (start 4 newFile 5 [])).isEofDone = true →
        ((oneByte.foldl (downloadSystem [7] newFile.fileId).next (start 4 newFile 5 [])).localFile = [7] ↔
          Prepared [7] [] (firstUnit newFile))) :=
  download_file (by decide) (by decide) (by decide) (by decide) (by decide) (run_of_events (by decide) .start)

/-- A file that looks like the header at the end of a download. -/
def likeEof : List UInt8 := headerBytes (eofHeader 0)

/-- The header of the only unit is read before its body has come, and is lost; the body is then
read as a header. -/
def cutUnit : List Event :=
  [.serve,.serve,.serve,.serve,.recv (.pselect true),.recv (.read 36),.recv .eagain,.serve,.serve,
    .recv (.pselect true),.recv (.read 36),.save (some 1) 0,.post,.semWait,.look,.handle]

theorem download_file_cutUnit :
    (0 ≤ newFile.fileId ∧ newFile.fileId < dwldTaskMaxNum) ∧ likeEof.length < 2^31 ∧ newFile.startOffset = 0 ∧
      (downloadSystem likeEof newFile.fileId).Follows anyEvent (start 4 newFile 5 []) cutUnit ∧
      (cutUnit.foldl (downloadSystem likeEof newFile.fileId).next (start 4 newFile 5 [])).isEofDone = true ∧
      (cutUnit.foldl (downloadSystem likeEof newFile.fileId).next (start 4 newFile 5 [])).localFile ≠ likeEof := by
  refine ⟨by decide,by decide,rfl,by decide,by decide,by decide⟩

end Runs

end Download

end MoCodes.MoCloud
