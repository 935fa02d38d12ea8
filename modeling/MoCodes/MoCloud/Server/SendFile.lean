import MoCodes.Lib.PosFile
import MoCodes.MoCloud.Client.RecvData
import MoCodes.MoCloud.Server.CliData

/-! What one download thread sends of a file that does not change, and the bytes of it on the
data socket. -/
namespace MoCodes.MoCloud.Server.SendFile
open Lib.Blocks Lib.PosFile Lib.Layout Client.RecvData

/-- MOCLOUD_DATA_HEADER in memory that was set to 0. -/
def headerBytes (header : DataHeader) : List UInt8 :=
  padded 16 header.mark ++ (writeInt 4 header.fileId ++ (padded 4 [if header.isEof then 1 else 0] ++
    (writeInt 4 header.unitId ++ (writeInt 4 header.bodyLen ++ padded 4 [0xa]))))

/-- The system calls on the file: `lseek` gives the place, `read` what is there. -/
def fileAnswer (file : List UInt8) (thread : CliData) : DataAnswer where
  lseek := thread.unitId*dataUnitLen
  read := some (file.drop (thread.unitId*dataUnitLen).toNat)
  taken := dataUnitLen

def sentBytes : Sent → List UInt8
  | .dataHeader header bytes => (headerBytes header).take bytes
  | .data bytes => bytes
  | _ => []

section Units

variable (file : List UInt8) (fileId : Int)

def unitHeader (k : Nat) : DataHeader where
  mark := markDwld
  fileId := fileId
  isEof := false
  unitId := k
  bodyLen := (blockAt dataUnitLen file k).length

def eofHeader : DataHeader where
  mark := markDwld
  fileId := fileId
  isEof := true
  unitId := 0
  bodyLen := 0

/-- The numbers of the units from `k` up to the end of the file. -/
def unitsFrom (k : Nat) : List Nat := List.range' k (blockCount dataUnitLen file-k)

/-- Each unit is its header and the bytes of the file at its place; behind them one header
tells the end of the file. -/
def writesFrom (k : Nat) : List Sent :=
  (unitsFrom file k).flatMap (fun k => [.dataHeader (unitHeader file fileId k) dataHeaderSize,
    .data (blockAt dataUnitLen file k)]) ++ [.dataHeader (eofHeader fileId) dataHeaderSize]

def wireUnits (k : Nat) : List WireUnit :=
  (unitsFrom file k).map (fun k => (headerBytes (unitHeader file fileId k),blockAt dataUnitLen file k)) ++
    [(headerBytes (eofHeader fileId),[])]

end Units

section Headers

def IsInt (value : Int) : Prop := -2^31 ≤ value ∧ value < 2^31

instance (value : Int) : Decidable (IsInt value) := inferInstanceAs (Decidable (_ ∧ _))

theorem readInt_int {value : Int} (isInt : IsInt value) : readInt (writeInt 4 value) = value := by
  obtain ⟨low,high⟩ := isInt
  rw [readInt_writeInt]
  apply Int.bmod_eq_of_le
  · have half : -(((256^4 : Nat) : Int)/2) = -2^31 := by decide
    rw [half]
    exact low
  · have half : (((256^4 : Nat) : Int)+1)/2 = 2^31 := by decide
    rw [half]
    exact high

theorem headerBytes_length (header : DataHeader) : (headerBytes header).length = dataHeaderSize := by
  simp [headerBytes,dataHeaderSize]

section Parts

variable {mark file eof unit length sum : List UInt8} (size_mark : mark.length = 16) (size_file : file.length = 4)
  (size_eof : eof.length = 4) (size_unit : unit.length = 4) (size_length : length.length = 4)
include size_mark size_file size_eof size_unit size_length

variable (sum) in
theorem header_parts :
    slice (mark ++ (file ++ (eof ++ (unit ++ (length ++ sum))))) 0 16 = mark ∧
      slice (mark ++ (file ++ (eof ++ (unit ++ (length ++ sum))))) 16 4 = file ∧
      slice (mark ++ (file ++ (eof ++ (unit ++ (length ++ sum))))) 20 4 = eof ∧
      slice (mark ++ (file ++ (eof ++ (unit ++ (length ++ sum))))) 24 4 = unit ∧
      slice (mark ++ (file ++ (eof ++ (unit ++ (length ++ sum))))) 28 4 = length ∧
      (mark ++ (file ++ (eof ++ (unit ++ (length ++ sum))))).drop 32 = sum := by
  refine ⟨(slice_part rfl size_mark : slice ([] ++ (mark ++ _)) 0 16 = mark),slice_part size_mark size_file,?_,?_,?_,?_⟩
  · rw [← List.append_assoc mark]
    exact slice_part (by rw [List.length_append,size_mark,size_file]) size_eof
  · rw [← List.append_assoc file,← List.append_assoc mark]
    exact slice_part (by simp only [List.length_append,size_mark,size_file,size_eof]) size_unit
  · rw [← List.append_assoc eof,← List.append_assoc file,← List.append_assoc mark]
    exact slice_part (by simp only [List.length_append,size_mark,size_file,size_eof,size_unit]) size_length
  · rw [← List.append_assoc unit,← List.append_assoc eof,← List.append_assoc file,← List.append_assoc mark]
    exact List.drop_left' (by
      simp only [List.length_append,size_mark,size_file,size_eof,size_unit,size_length])

end Parts

theorem getD_slice (bytes : List UInt8) (offset : Nat) : (slice bytes offset 4).getD 0 0 = bytes.getD offset 0 := by
  simp [slice,List.getD_eq_getElem?_getD]

theorem parse_header {header : DataHeader} (mark : header.mark = markDwld) (fileId : IsInt header.fileId)
    (unitId : IsInt header.unitId) (bodyLen : IsInt header.bodyLen) :
    parseHeader (headerBytes header) = header := by
  obtain ⟨text,file,isEof,unit,length⟩ := header
  subst mark
  obtain ⟨at_mark,at_file,at_eof,at_unit,at_length,_⟩ := header_parts (padded 4 [0xa]) (padded_length 16 markDwld)
    (writeInt_length 4 file) (padded_length 4 [if isEof then 1 else 0]) (writeInt_length 4 unit)
    (writeInt_length 4 length)
  have flag : ((padded 4 [if isEof then 1 else 0]).getD 0 0 != 0) = isEof := by cases isEof <;> rfl
  have whole : cString (padded 16 markDwld) = markDwld := by decide
  rw [parseHeader,headerBytes,at_mark,at_file,← getD_slice,at_eof,at_unit,at_length,flag,whole,
    readInt_int fileId,readInt_int unitId,readInt_int bodyLen]

theorem header_valid {header : DataHeader} {body : List UInt8} (mark : header.mark = markDwld)
    (fileId : 0 ≤ header.fileId ∧ header.fileId < dwldTaskMaxNum) (unitId : IsInt header.unitId)
    (bodyLen : header.bodyLen = body.length) (room : body.length ≤ dataUnitLen) :
    ValidUnit (headerBytes header,body) := by
  have small : IsInt header.fileId := by
    unfold IsInt dwldTaskMaxNum at *
    omega
  have short : IsInt header.bodyLen := by
    unfold IsInt dataUnitLen at *
    omega
  have parsed := parse_header mark small unitId short
  obtain ⟨at_mark,_,_,_,_,behind⟩ := header_parts (padded 4 [0xa]) (padded_length 16 header.mark)
    (writeInt_length 4 header.fileId) (padded_length 4 [if header.isEof then 1 else 0])
    (writeInt_length 4 header.unitId) (writeInt_length 4 header.bodyLen)
  refine ⟨headerBytes_length header,?_,?_,?_,?_,room⟩
  · have front : (headerBytes header).take markDwld.length = (padded 16 header.mark).take markDwld.length := by
      rw [headerBytes,List.take_append_of_le_length]
      rw [padded_length]
      decide
    rw [front,mark]
    decide
  · have sum : (headerBytes header).getD 32 0 = ((headerBytes header).drop 32).getD 0 0 := by
      simp [List.getD_eq_getElem?_getD]
    rw [sum,headerBytes,behind]
    rfl
  · change 0 ≤ (parseHeader (headerBytes header)).fileId ∧ _
    rw [parsed]
    exact fileId
  · change (parseHeader (headerBytes header)).bodyLen = _
    rw [parsed,bodyLen]

end Headers

section Wire

variable {file : List UInt8} {fileId : Int} {k : Nat}

theorem unitsFrom_cons (more : k < blockCount dataUnitLen file) : unitsFrom file k = k :: unitsFrom file (k+1) := by
  rw [unitsFrom,show blockCount dataUnitLen file-k = (blockCount dataUnitLen file-(k+1))+1 by omega,
    List.range'_succ,unitsFrom]

theorem unitsFrom_end (past : blockCount dataUnitLen file ≤ k) : unitsFrom file k = [] := by
  rw [unitsFrom,Nat.sub_eq_zero_of_le past]
  rfl

theorem writesFrom_cons (more : k < blockCount dataUnitLen file) :
    writesFrom file fileId k = .dataHeader (unitHeader file fileId k) dataHeaderSize ::
      .data (blockAt dataUnitLen file k) :: writesFrom file fileId (k+1) := by
  rw [writesFrom,unitsFrom_cons more]
  rfl

theorem writesFrom_end (past : blockCount dataUnitLen file ≤ k) :
    writesFrom file fileId k = [.dataHeader (eofHeader fileId) dataHeaderSize] := by
  rw [writesFrom,unitsFrom_end past]
  rfl

theorem sentBytes_header (header : DataHeader) :
    sentBytes (.dataHeader header dataHeaderSize) = headerBytes header := by
  rw [sentBytes,List.take_of_length_le (Nat.le_of_eq (headerBytes_length header))]

theorem writes_wire : (writesFrom file fileId k).flatMap sentBytes = wire (wireUnits file fileId k) := by
  rw [writesFrom,wireUnits,wire,List.flatMap_append,List.flatMap_append,List.flatMap_assoc,List.flatMap_map]
  congr 1
  apply List.flatMap_congr
  intro unit _
  rw [List.flatMap_cons,List.flatMap_singleton,sentBytes_header]
  rfl

section Bounds

variable (slot : 0 ≤ fileId ∧ fileId < dwldTaskMaxNum) (size : file.length < 2^31)
include size

theorem unit_int {unit : Nat} (inside : unit ∈ unitsFrom file k) : IsInt unit := by
  obtain ⟨step,below,same⟩ := List.mem_range'.mp inside
  have block : unit*dataUnitLen < file.length := (lt_blockCount (by decide)).mp (by omega)
  unfold IsInt dataUnitLen at *
  omega

include slot

theorem wireUnits_valid : ∀ unit ∈ wireUnits file fileId k, ValidUnit unit := by
  intro unit member
  rcases List.mem_append.mp member with data | eof
  · obtain ⟨index,inside,rfl⟩ := List.mem_map.mp data
    exact header_valid rfl slot (unit_int size inside) rfl (blockAt_length_le index)
  · rw [List.mem_singleton.mp eof]
    exact header_valid rfl slot (show IsInt 0 by decide) rfl (by decide)

/-- What the client is to pass on: the header and the bytes of each unit. -/
theorem wireUnits_delivered : (wireUnits file fileId k).map delivered =
    (unitsFrom file k).map (fun k => (unitHeader file fileId k,blockAt dataUnitLen file k)) ++
      [(eofHeader fileId,[])] := by
  have small : IsInt fileId := by
    unfold IsInt dwldTaskMaxNum at *
    omega
  rw [wireUnits,List.map_append,List.map_map]
  congr 1
  · apply List.map_congr_left
    intro unit inside
    have length : IsInt (blockAt dataUnitLen file unit).length := by
      have room : (blockAt dataUnitLen file unit).length ≤ dataUnitLen := blockAt_length_le unit
      unfold IsInt dataUnitLen at *
      omega
    exact Prod.ext (parse_header rfl small (unit_int size inside) length) rfl
  · exact congrArg (fun header => [(header,[])]) (parse_header rfl small (show IsInt 0 by decide) (show IsInt 0 by decide))

end Bounds

end Wire

section Serve

/-- What a thread at the place has still to write, `k` being its unit. -/
def Left (file : List UInt8) (fileId : Int) (k : Nat) (rest : List Sent) : DataPlace → Prop
  | .check => rest = writesFrom file fileId k ∧ k*dataUnitLen < 2^31
  | .seek => rest = writesFrom file fileId k ∧ k*dataUnitLen < 2^31
  | .read => rest = writesFrom file fileId k
  | .sendHeader data => rest = writesFrom file fileId k ∧ data = blockAt dataUnitLen file k ∧ data ≠ []
  | .sendBody data =>
    rest = .data data :: writesFrom file fileId (k+1) ∧ data = blockAt dataUnitLen file k ∧ data ≠ []
  | .sendEof => rest = [.dataHeader (eofHeader fileId) dataHeaderSize]
  | .ended => rest = []

/-- A download thread that is not stopped. -/
structure Ahead (file : List UInt8) (fileId : Int) (thread : CliData) (rest : List Sent) : Prop where
  running : thread.mIsRun = true ∧ 0 ≤ thread.mReadHdl ∧ 0 ≤ thread.mSockId
  slot : thread.mFileId = fileId
  left : ∃ k : Nat, thread.unitId = k ∧ Left file fileId k rest thread.place

variable {file : List UInt8} {fileId : Int} {thread : CliData} {rest : List Sent}

theorem block_some {k : Nat} : blockAt dataUnitLen file k ≠ [] ↔ k < blockCount dataUnitLen file := by
  rw [lt_blockCount (by decide),← List.length_pos_iff,blockAt,List.length_take,List.length_drop]
  unfold dataUnitLen
  omega

theorem block_last {k : Nat} (short : (blockAt dataUnitLen file k).length ≠ dataUnitLen) :
    blockCount dataUnitLen file ≤ k+1 := by
  by_contra more
  have next : (k+1)*dataUnitLen < file.length := (lt_blockCount (by decide)).mp (Nat.lt_of_not_le more)
  exact short (blockAt_length (Nat.le_of_lt next))

theorem written_all {length : Nat} (socket : 0 ≤ thread.mSockId) (room : length ≤ dataUnitLen) :
    CliData.written thread.mSockId dataUnitLen length = length := by
  rw [CliData.written,if_neg (by omega)]
  exact Nat.min_eq_right room

/-- Each step of the thread writes the next of what it is to write. -/
theorem serve_ahead (size : file.length < 2^31) (ahead : Ahead file fileId thread rest) :
    ∃ later, rest = (thread.run (fileAnswer file thread)).2 ++ later ∧
      Ahead file fileId (thread.run (fileAnswer file thread)).1 later := by
  obtain ⟨⟨isRun,handle,socket⟩,slot,k,unit,here⟩ := ahead
  have header : CliData.written thread.mSockId dataUnitLen CliData.dataHeaderSize = dataHeaderSize :=
    written_all socket (by decide)
  unfold CliData.run
  cases place : thread.place with
  | check =>
    rw [place] at here
    refine ⟨rest,rfl,⟨isRun,handle,socket⟩,slot,k,unit,?_⟩
    rw [if_pos ⟨isRun,handle⟩]
    exact here
  | seek =>
    rw [place] at here
    obtain ⟨writes,inside⟩ := here
    have found : ¬ toInt (fileAnswer file thread).lseek < 0 := by
      change ¬ toInt (thread.unitId*dataUnitLen) < 0
      rw [unit,toInt,Int.bmod_eq_of_le] <;> omega
    refine ⟨rest,rfl,⟨isRun,handle,socket⟩,slot,k,unit,?_⟩
    rw [if_neg found]
    exact writes
  | read =>
    rw [place] at here
    have got : (file.drop (thread.unitId*dataUnitLen).toNat).take dataUnitLen = blockAt dataUnitLen file k := by
      rw [unit,blockAt]
      rfl
    simp only [fileAnswer,got]
    refine ⟨rest,rfl,⟨isRun,handle,socket⟩,slot,k,unit,?_⟩
    change Left file fileId k rest (if blockAt dataUnitLen file k = [] then .sendEof else
      .sendHeader (blockAt dataUnitLen file k))
    change rest = _ at here
    by_cases empty : blockAt dataUnitLen file k = []
    · have past : blockCount dataUnitLen file ≤ k :=
        Nat.le_of_not_lt fun more => block_some.mpr more empty
      rw [if_pos empty]
      exact here.trans (writesFrom_end past)
    · rw [if_neg empty]
      exact ⟨here,rfl,empty⟩
  | sendHeader data =>
    rw [place] at here
    obtain ⟨writes,rfl,some_byte⟩ := here
    have sends : thread.sendHeader (fileAnswer file thread)
        (thread.genRespHeader (blockAt dataUnitLen file k).length) =
        .dataHeader (unitHeader file fileId k) dataHeaderSize := by
      rw [CliData.sendHeader,fileAnswer,header,CliData.genRespHeader,slot,unit,unitHeader]
    refine ⟨.data (blockAt dataUnitLen file k) :: writesFrom file fileId (k+1),?_,
      ⟨isRun,handle,socket⟩,slot,k,unit,rfl,rfl,some_byte⟩
    rw [writes,writesFrom_cons (block_some.mp some_byte)]
    dsimp only
    rw [sends]
    rfl
  | sendBody data =>
    rw [place] at here
    obtain ⟨writes,rfl,some_byte⟩ := here
    have body : thread.sendBody (fileAnswer file thread) (blockAt dataUnitLen file k) =
        .data (blockAt dataUnitLen file k) := by
      rw [CliData.sendBody,fileAnswer,written_all socket (blockAt_length_le k),List.take_length]
    rw [writes]
    dsimp only
    by_cases full : (blockAt dataUnitLen file k).length = dataUnitLen
    · have inside : k*dataUnitLen < file.length := (lt_blockCount (by decide)).mp (block_some.mp some_byte)
      rw [if_neg (not_not.mpr full),body]
      refine ⟨writesFrom file fileId (k+1),rfl,⟨isRun,handle,socket⟩,slot,k+1,?_,?_⟩
      · change thread.unitId+1 = _
        rw [unit]
        rfl
      · refine ⟨rfl,?_⟩
        rw [blockAt,List.length_take,List.length_drop] at full
        rw [Nat.succ_mul]
        omega
    · rw [if_pos full,body]
      exact ⟨writesFrom file fileId (k+1),rfl,⟨isRun,handle,socket⟩,slot,k,unit,
        writesFrom_end (block_last full)⟩
  | sendEof =>
    rw [place] at here
    have sends : thread.sendHeader (fileAnswer file thread) thread.genEofRespHeader =
        .dataHeader (eofHeader fileId) dataHeaderSize := by
      rw [CliData.sendHeader,fileAnswer,header,CliData.genEofRespHeader,slot,eofHeader]
    refine ⟨[],?_,⟨isRun,handle,socket⟩,slot,k,unit,rfl⟩
    dsimp only
    rw [sends]
    exact here
  | ended =>
    rw [place] at here
    exact ⟨rest,rfl,⟨isRun,handle,socket⟩,slot,k,unit,by rw [place]; exact here⟩

end Serve

section Serving

/-- All that a download thread writes until it has ended. -/
inductive Serves (file : List UInt8) : CliData → List Sent → Prop where
  | ended {thread : CliData} : thread.place = .ended → Serves file thread []
  | step {thread : CliData} {writes : List Sent} : thread.place ≠ .ended →
      Serves file (thread.run (fileAnswer file thread)).1 writes →
      Serves file thread ((thread.run (fileAnswer file thread)).2 ++ writes)

variable {file : List UInt8} {fileId : Int} {k : Nat} {thread : CliData} {writes later : List Sent}

theorem serves_unique (one : Serves file thread writes) (other : Serves file thread later) : writes = later := by
  induction one generalizing later with
  | ended there =>
    cases other with
    | ended => rfl
    | step running => exact absurd there running
  | step running _ ih =>
    cases other with
    | ended there => exact absurd there running
    | step _ rest => rw [ih rest]

/-- A thread that is not stopped, before unit `k`. -/
structure Before (thread : CliData) (fileId : Int) (k : Nat) : Prop where
  running : thread.mIsRun = true ∧ 0 ≤ thread.mReadHdl
  socket : 0 ≤ thread.mSockId
  slot : thread.mFileId = fileId
  unit : thread.unitId = k

theorem serves_step (next : CliData) (sent : List Sent) (running : thread.place ≠ .ended)
    (ran : thread.run (fileAnswer file thread) = (next,sent)) (rest : Serves file next writes) :
    Serves file thread (sent ++ writes) := by
  have whole := @Serves.step file thread writes running
  rw [ran] at whole
  exact whole rest

theorem serves_eof (before : Before thread fileId k) (place : thread.place = .sendEof) :
    Serves file thread [.dataHeader (eofHeader fileId) dataHeaderSize] := by
  have header : CliData.written thread.mSockId dataUnitLen CliData.dataHeaderSize = dataHeaderSize :=
    written_all before.socket (by decide)
  have sends : thread.sendHeader (fileAnswer file thread) thread.genEofRespHeader =
      .dataHeader (eofHeader fileId) dataHeaderSize := by
    rw [CliData.sendHeader,fileAnswer,header,CliData.genEofRespHeader,before.slot,eofHeader]
  refine serves_step { thread with place := .ended } [.dataHeader (eofHeader fileId) dataHeaderSize] (by simp [place]) ?_
    (.ended rfl)
  rw [CliData.run,place]
  dsimp only
  rw [sends]

theorem serves_seek (before : Before thread fileId k) (place : thread.place = .check)
    (seeks : Serves file { thread with place := if toInt ((k : Int)*dataUnitLen) < 0 then .sendEof else .read } writes) :
    Serves file thread writes := by
  refine serves_step { thread with place := .seek } [] (by simp [place]) ?_ ?_
  · rw [CliData.run,place]
    dsimp only
    rw [if_pos before.running]
  · refine serves_step _ [] (by simp) ?_ seeks
    rw [CliData.run]
    dsimp only [fileAnswer]
    rw [before.unit]
    rfl

theorem serves_past (before : Before thread fileId k) (place : thread.place = .check)
    (past : k*dataUnitLen = 2^31 ∨ blockAt dataUnitLen file k = []) :
    Serves file thread [.dataHeader (eofHeader fileId) dataHeaderSize] := by
  refine serves_seek before place ?_
  split_ifs with failed
  · exact serves_eof (k := k) ⟨before.running,before.socket,before.slot,before.unit⟩ rfl
  · rcases past with last | nothing
    · refine absurd ?_ failed
      have offset : (k : Int)*dataUnitLen = 2^31 := by omega
      rw [offset]
      decide
    · refine serves_step { thread with place := .sendEof } [] (by simp) ?_
        (serves_eof (k := k) ⟨before.running,before.socket,before.slot,before.unit⟩ rfl)
      have got : (file.drop (thread.unitId*dataUnitLen).toNat).take dataUnitLen = blockAt dataUnitLen file k := by
        rw [before.unit,blockAt]
        rfl
      rw [CliData.run]
      simp only [fileAnswer,got,nothing]
      rfl

theorem serves_unit (before : Before thread fileId k) (place : thread.place = .check)
    (inside : k*dataUnitLen < 2^31) (some_byte : blockAt dataUnitLen file k ≠ [])
    (more : ∀ next, Before next fileId (k+1) → next.place = .check →
      (blockAt dataUnitLen file k).length = dataUnitLen → Serves file next later)
    (last : (blockAt dataUnitLen file k).length ≠ dataUnitLen →
      later = [.dataHeader (eofHeader fileId) dataHeaderSize]) :
    Serves file thread (.dataHeader (unitHeader file fileId k) dataHeaderSize ::
      .data (blockAt dataUnitLen file k) :: later) := by
  have found : ¬ toInt ((k : Int)*dataUnitLen) < 0 := by
    rw [toInt,Int.bmod_eq_of_le] <;> omega
  have got : (file.drop (thread.unitId*dataUnitLen).toNat).take dataUnitLen = blockAt dataUnitLen file k := by
    rw [before.unit,blockAt]
    rfl
  have header : CliData.written thread.mSockId dataUnitLen CliData.dataHeaderSize = dataHeaderSize :=
    written_all before.socket (by decide)
  have body : CliData.written thread.mSockId dataUnitLen (blockAt dataUnitLen file k).length =
      (blockAt dataUnitLen file k).length := written_all before.socket (blockAt_length_le k)
  refine serves_seek before place ?_
  rw [if_neg found]
  refine serves_step { thread with place := .sendHeader (blockAt dataUnitLen file k) } [] (by simp) ?_ ?_
  · rw [CliData.run]
    simp only [fileAnswer,got,if_neg some_byte]
  refine serves_step { thread with place := .sendBody (blockAt dataUnitLen file k) }
    [.dataHeader (unitHeader file fileId k) dataHeaderSize] (by simp) ?_ ?_
  · rw [CliData.run]
    simp only [CliData.sendHeader,fileAnswer,header,CliData.genRespHeader,before.slot,before.unit,unitHeader]
  by_cases full : (blockAt dataUnitLen file k).length = dataUnitLen
  · refine serves_step { thread with place := .check, unitId := thread.unitId+1 }
      [.data (blockAt dataUnitLen file k)] (by simp) ?_ (more _ ⟨before.running,before.socket,before.slot,?_⟩ rfl full)
    · rw [CliData.run]
      simp only [CliData.sendBody,fileAnswer,body,List.take_length,if_neg (not_not.mpr full)]
    · change thread.unitId+1 = _
      rw [before.unit]
      rfl
  · rw [last full]
    refine serves_step { thread with place := .sendEof } [.data (blockAt dataUnitLen file k)] (by simp) ?_
      (serves_eof (k := k) ⟨before.running,before.socket,before.slot,before.unit⟩ rfl)
    rw [CliData.run]
    simp only [CliData.sendBody,fileAnswer,body,List.take_length,if_pos full]

/-- The offsets of `lseek` are an `int`: nothing behind 2 GiB is sent. -/
abbrev reached (file : List UInt8) : List UInt8 := file.take (2^31)

theorem blockAt_reached (inside : k*dataUnitLen < 2^31) :
    blockAt dataUnitLen (reached file) k = blockAt dataUnitLen file k := by
  rw [blockAt,blockAt,List.drop_take,List.take_take,Nat.min_eq_left]
  unfold dataUnitLen at *
  omega

theorem serves_from (before : Before thread fileId k) (place : thread.place = .check)
    (inside : k*dataUnitLen ≤ 2^31) : Serves file thread (writesFrom (reached file) fileId k) := by
  induction left : blockCount dataUnitLen (reached file)-k generalizing thread k with
  | zero =>
    have past : blockCount dataUnitLen (reached file) ≤ k := by omega
    rw [writesFrom_end past]
    refine serves_past before place ?_
    rcases Nat.lt_or_eq_of_le inside with less | last
    · refine Or.inr ?_
      rw [← blockAt_reached less]
      by_contra some_byte
      exact Nat.not_lt_of_le past (block_some.mp some_byte)
    · exact Or.inl last
  | succ left_units ih =>
    have more : k < blockCount dataUnitLen (reached file) := by omega
    have start : k*dataUnitLen < (reached file).length := (lt_blockCount (by decide)).mp more
    have less : k*dataUnitLen < 2^31 := by
      rw [List.length_take] at start
      omega
    have same : blockAt dataUnitLen (reached file) k = blockAt dataUnitLen file k := blockAt_reached less
    have header : unitHeader (reached file) fileId k = unitHeader file fileId k := by
      rw [unitHeader,unitHeader,same]
    rw [writesFrom_cons more,header,same]
    refine serves_unit before place less ?_ (fun next before place _ => ih before place ?_ (by omega)) fun short => ?_
    · rw [← same]
      exact block_some.mpr more
    · unfold dataUnitLen at less ⊢
      omega
    · rw [← same] at short
      exact writesFrom_end (block_last short)

theorem reached_all (size : file.length ≤ 2^31) : reached file = file := List.take_of_length_le size

/-- What is sent is the whole rest of the file just when the file ends before 2 GiB. -/
theorem writesFrom_reached : writesFrom (reached file) fileId 0 = writesFrom file fileId 0 ↔ file.length ≤ 2^31 := by
  refine ⟨fun same => ?_,fun size => by rw [reached_all size]⟩
  have count : ∀ file : List UInt8, (writesFrom file fileId 0).length = 2*blockCount dataUnitLen file+1 := by
    intro file
    simp [writesFrom,unitsFrom,List.length_flatMap]
    omega
  have lengths := congrArg List.length same
  rw [count,count] at lengths
  by_contra longer
  have beyond : 2^21 < blockCount dataUnitLen file := by
    refine (lt_blockCount (by decide)).mpr ?_
    unfold dataUnitLen
    omega
  have within : ¬ 2^21 < blockCount dataUnitLen (reached file) := by
    intro more
    have start := (lt_blockCount (by decide)).mp more
    rw [List.length_take] at start
    unfold dataUnitLen at start
    omega
  omega

end Serving

end MoCodes.MoCloud.Server.SendFile
