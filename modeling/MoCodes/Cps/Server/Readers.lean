import MoCodes.Cps.Server.FileMgrInit
import MoCodes.Lib.Descriptors
import MoCodes.Lib.Machine

/-! fmReadFile and fmStopReadFile. All who read a file share the stream in its node; the file
behind a path and what is in the files may change between the calls. A call without a result
touches memory that is not its own, or a stream that is closed. -/
namespace MoCodes.Cps.Server.FileMgr
open MoCodes.Lib.LinkedList MoCodes.Lib.DirTree MoCodes.Lib.Descriptors MoCodes.Lib.Machine

structure Disk where
  named : Path → Option Nat
  content : Nat → List UInt8

structure Stream where
  file : Nat
  pos : Nat

structure Readers where
  gDirFileList : DirFileList
  streams : MoCodes.Lib.Descriptors.Table Stream
  disk : Disk

/-- The MOCPS_BASIC_FILEINFO of a caller, whose type may be beyond MOCPS_FILETYPE_MAX. -/
structure AskedFile where
  size : Int
  filename : Path
  type : Option FileType

section Finding

/-- Every pass goes through a node of its own, so there are no more than were allocated. -/
def findNode (heap : Heap FileInfo) (pFilename : Path) : Nat → Option Nat → Option (Option Nat)
  | _,none => some none
  | 0,some _ => none
  | fuel+1,some pNode =>
    match heap pNode with
    | none => none
    | some node =>
      if node.info.basicInfo.filename = pFilename then some (some pNode)
      else findNode heap pFilename fuel node.next

def findFileNode (list : DirFileList) (pFilename : Path) (type : FileType) : Option (Option Nat) :=
  match list.pFileList type with
  | none => some none
  | some pHeadNode =>
    match list.heap pHeadNode with
    | none => none
    | some head => findNode list.heap pFilename list.used head.next

end Finding

/-- What `fread` puts down: a negative length is a huge one to it. -/
def freadPart (content : List UInt8) (offset : Nat) (length : Int) : List UInt8 :=
  (content.drop offset).take (if length < 0 then content.length else length.toNat)

namespace Readers

variable (fm : Readers)

def setInfo (pNode : Nat) (node : Node FileInfo) (info : FileInfo) : DirFileList :=
  {fm.gDirFileList with heap := write fm.gDirFileList.heap pNode {node with info := info}}

/-- `permitted` tells whether the system lets the file be opened for reading and writing. -/
def openFile (permitted : Bool) (pNode : Nat) : Option (Int × Readers) :=
  match fm.gDirFileList.heap pNode with
  | none => none
  | some node =>
    if node.info.fp ≠ none ∨ node.info.readHdrNum ≠ 0 then some (-2,fm)
    else
      let subdirpath := getSubdirPath fm.gDirFileList.dirPath node.info.basicInfo.type
      let filepath := join subdirpath node.info.basicInfo.filename
      if filepathMaxlen ≤ filepath.length then none
      else
        match if permitted then fm.disk.named filepath else none with
        | none => some (-3,fm)
        | some file =>
          let info := {node.info with fp := some (lowest fm.streams),readHdrNum := 1}
          some (0,{fm with gDirFileList := fm.setInfo pNode node info,streams := give ⟨file,0⟩ fm.streams})

/-- The bytes that are written to `pBuf`, which has room for `room` of them. -/
def readFile (pNode : Nat) (offset length : Int) (room : Nat) : Option ((Int × List UInt8) × Readers) :=
  match fm.gDirFileList.heap pNode with
  | none => none
  | some node =>
    match node.info.fp with
    | none => some ((-1,[]),fm)
    | some fp =>
      match opened fm.streams fp with
      | none => none
      | some stream =>
        if offset < 0 then
          some ((-2,[]),{fm with streams := change (fun stream => {stream with pos := 0}) fp fm.streams})
        else
          let bytes := freadPart (fm.disk.content stream.file) offset.toNat length
          let pos := offset.toNat+bytes.length
          if room < bytes.length then none
          else
            some ((if toInt bytes.length = length then 0 else -3,bytes),
              {fm with streams := change (fun stream => {stream with pos := pos}) fp fm.streams})

def readOpened (pNode : Nat) (offset length : Int) (room : Nat) : Option ((Int × List UInt8) × Readers) :=
  (fm.readFile pNode offset length room).map fun done => ((if done.1.1 < 0 then -6 else 0,done.1.2),done.2)

def readNode (permitted : Bool) (pNode : Nat) (offset length : Int) (room : Nat) :
    Option ((Int × List UInt8) × Readers) :=
  match fm.gDirFileList.heap pNode with
  | none => none
  | some node =>
    if node.info.fp ≠ none then fm.readOpened pNode offset length room
    else (fm.openFile permitted pNode).bind fun done =>
      if done.1 < 0 then some ((-5,[]),done.2) else done.2.readOpened pNode offset length room

/-- The return value and what is written to `pBuf`, whose room `none` says that it is NULL. -/
def fmReadFile (permitted : Bool) (fileInfo : AskedFile) (offset length : Int) (pBuf : Option Nat) :
    Option ((Int × List UInt8) × Readers) :=
  match pBuf with
  | none => some ((-1,[]),fm)
  | some room =>
    if fileInfo.size < toInt (offset+length) then some ((-2,[]),fm)
    else
      match fileInfo.type with
      | none => some ((-3,[]),fm)
      | some type =>
        match findFileNode fm.gDirFileList fileInfo.filename type with
        | none => none
        | some none => some ((-4,[]),fm)
        | some (some pNode) => fm.readNode permitted pNode offset length room

def stopNode (pNode : Nat) : Option (Int × Readers) :=
  match fm.gDirFileList.heap pNode with
  | none => none
  | some node =>
    if node.info.readHdrNum ≤ 0 then some (-4,fm)
    else if node.info.readHdrNum-1 = 0 then
      match node.info.fp with
      | none => none
      | some fp =>
        match opened fm.streams fp with
        | none => none
        | some _ =>
          let info := {node.info with fp := none,readHdrNum := 0}
          some (0,{fm with gDirFileList := fm.setInfo pNode node info,streams := close fp fm.streams})
    else
      let info := {node.info with readHdrNum := node.info.readHdrNum-1}
      some (0,{fm with gDirFileList := fm.setInfo pNode node info})

def fmStopReadFile (fileInfo : AskedFile) : Option (Int × Readers) :=
  match fileInfo.type with
  | none => some (-2,fm)
  | some type =>
    match findFileNode fm.gDirFileList fileInfo.filename type with
    | none => none
    | some none => some (-3,fm)
    | some (some pNode) => fm.stopNode pNode

/-- The thread that is stopped does nothing, and the records are one block. -/
def fmUnInit : Option Readers :=
  (unInitDirfileList fm.gDirFileList).map fun list => {fm with gDirFileList := list}

end Readers

inductive ReaderCall where
  | read (permitted : Bool) (fileInfo : AskedFile) (offset length : Int) (pBuf : Option Nat)
  | stop (fileInfo : AskedFile)
  /-- somebody else changes the files -/
  | changed (disk : Disk)

def readers : Device Readers ReaderCall (Int × List UInt8)
  | fm,.read permitted fileInfo offset length pBuf => fm.fmReadFile permitted fileInfo offset length pBuf
  | fm,.stop fileInfo => (fm.fmStopReadFile fileInfo).map fun done => ((done.1,[]),done.2)
  | fm,.changed disk => some ((0,[]),{fm with disk := disk})

/-- What the readers share: which file a name stands for while it is read. -/
structure ReadTable where
  reading : FileType → Path → Option Nat
  disk : Disk

namespace ReadTable

variable (dirPath : Path) (listed : FileType → Path → Bool) (table : ReadTable)

def setFile (type : FileType) (name : Path) (file : Option Nat) : ReadTable :=
  {table with
    reading := fun other asked => if other = type ∧ asked = name then file else table.reading other asked}

/-- The part of the file that is read, if there is room for it. -/
def part (file : Nat) (offset length : Int) (room : Nat) : Option ((Int × List UInt8) × ReadTable) :=
  if offset < 0 then some ((-6,[]),table)
  else
    let bytes := freadPart (table.disk.content file) offset.toNat length
    if room < bytes.length then none
    else some ((if toInt bytes.length = length then 0 else -6,bytes),table)

def readName (permitted : Bool) (type : FileType) (name : Path) (offset length : Int) (room : Nat) :
    Option ((Int × List UInt8) × ReadTable) :=
  match table.reading type name with
  | some file => table.part file offset length room
  | none =>
    match if permitted then table.disk.named (join (getSubdirPath dirPath type) name) else none with
    | none => some ((-5,[]),table)
    | some file => (table.setFile type name (some file)).part file offset length room

def read (permitted : Bool) (fileInfo : AskedFile) (offset length : Int) (pBuf : Option Nat) :
    Option ((Int × List UInt8) × ReadTable) :=
  match pBuf,fileInfo.type with
  | none,_ => some ((-1,[]),table)
  | some room,type =>
    if fileInfo.size < toInt (offset+length) then some ((-2,[]),table)
    else
      match type with
      | none => some ((-3,[]),table)
      | some type =>
        if listed type fileInfo.filename then
          table.readName dirPath permitted type fileInfo.filename offset length room
        else some ((-4,[]),table)

def stop (fileInfo : AskedFile) : Int × ReadTable :=
  match fileInfo.type with
  | none => (-2,table)
  | some type =>
    if listed type fileInfo.filename then
      match table.reading type fileInfo.filename with
      | none => (-4,table)
      | some _ => (0,table.setFile type fileInfo.filename none)
    else (-3,table)

end ReadTable

def readTable (dirPath : Path) (listed : FileType → Path → Bool) : Device ReadTable ReaderCall (Int × List UInt8)
  | table,.read permitted fileInfo offset length pBuf =>
    table.read dirPath listed permitted fileInfo offset length pBuf
  | table,.stop fileInfo => some (((table.stop listed fileInfo).1,[]),(table.stop listed fileInfo).2)
  | table,.changed disk => some ((0,[]),{table with disk := disk})

end MoCodes.Cps.Server.FileMgr
