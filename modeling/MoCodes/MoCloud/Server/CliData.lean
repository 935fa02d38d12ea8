import MoCodes.MoCloud.Server.DbCtrl

/-! The download threads of cliCtrl.cpp, and how fileMgr.cpp opens the file of one. What the
system calls answer is left open. -/
namespace MoCodes.MoCloud.Server

/-- `absPath` of `FileMgr::getAbsFilepath`; the directory of the server has a name. -/
def getAbsFilepath (mDirpath : Text) (key : FileinfoKey) : Option Text :=
  let root := if mDirpath.getLast? = some 47 then mDirpath else mDirpath ++ text "/"
  let subDir :=
    if key.filetype = filetypeVideo then some (text "/Video")
    else if key.filetype = filetypeAudio then some (text "/Audio")
    else if key.filetype = filetypePic then some (text "/Picture")
    else if key.filetype = filetypeOthers then some (text "/Other")
    else none
  subDir.map fun subDir => root ++ subDir ++ text "/" ++ key.filename

def openFile (db : DbCtrl) (mDirpath : Text) (openSys : Text → Int) (key : FileinfoKey) :
    Option (Except Int Int) :=
  (db.isFileExist key).map fun isFileExist =>
    if !isFileExist then .error (-1)
    else
      match getAbsFilepath mDirpath key with
      | none => .error (-2)
      | some filepath => if openSys filepath < 0 then .error (-3) else .ok (openSys filepath)

/-- CLI_STATE, whose value CLI_STATE_MAX is never set. -/
inductive CliState where
  | idle | keyAgreed | login | invalid
  deriving DecidableEq,Repr

/-- Where a thread is in `CliData::run`; what it has read goes with it. -/
inductive DataPlace where
  | check | seek | read
  | sendHeader (data : Text)
  | sendBody (data : Text)
  | sendEof
  | ended
  deriving DecidableEq

/-- `asked` is the state of the client in which the request for the download was processed. -/
structure CliData where
  mSockId : Int
  mKey : FileinfoKey
  mOffset : Nat
  mFileId : Int
  mReadHdl : Int
  mIsRun : Bool
  unitId : Int
  place : DataPlace
  asked : CliState
  deriving DecidableEq

/-- What `lseek` and `read` return, -1 standing for `none`, and how much the socket takes. -/
structure DataAnswer where
  lseek : Int
  read : Option Text
  taken : Nat

inductive Sent where
  | response (resp : CtrlResponse)
  | filelist (infos : List BasicFileinfo) (bytes : Nat)
  | dataHeader (header : DataHeader) (bytes : Nat)
  | data (bytes : Text)
  deriving DecidableEq

/-- A record of the file list or a byte of a file is among what has been written. -/
def Sent.Content : Sent → Prop
  | .response _ => False
  | .filelist infos bytes => infos ≠ [] ∧ 0 < bytes
  | .dataHeader _ _ => False
  | .data bytes => bytes ≠ []

instance : DecidablePred Sent.Content
  | .response _ => isFalse id
  | .filelist _ _ => inferInstanceAs (Decidable (_ ∧ _))
  | .dataHeader _ _ => isFalse id
  | .data bytes => inferInstanceAs (Decidable (bytes ≠ []))

namespace CliData

/-- How much of a write of `length` bytes the socket takes; -1 is no socket. -/
def written (mSockId : Int) (taken length : Nat) : Nat := if mSockId < 0 then 0 else min taken length

def dataHeaderSize : Nat := 36

variable (thread : CliData) (answer : DataAnswer)

def genEofRespHeader : DataHeader where
  mark := markDwld
  fileId := thread.mFileId
  isEof := true
  unitId := 0
  bodyLen := 0

def genRespHeader (len : Int) : DataHeader where
  mark := markDwld
  fileId := thread.mFileId
  isEof := false
  unitId := thread.unitId
  bodyLen := len

def sendHeader (header : DataHeader) : Sent :=
  .dataHeader header (written thread.mSockId answer.taken dataHeaderSize)

def sendBody (data : Text) : Sent := .data (data.take (written thread.mSockId answer.taken data.length))

/-- The next of the calls of `CliData::run`. -/
def run : CliData × List Sent :=
  match thread.place with
  | .check => ({thread with place := if thread.mIsRun ∧ 0 ≤ thread.mReadHdl then .seek else .ended},[])
  | .seek => ({thread with place := if toInt answer.lseek < 0 then .sendEof else .read},[])
  | .read =>
    match answer.read with
    | none => ({thread with place := .sendEof},[])
    | some data =>
      let data := data.take dataUnitLen
      ({thread with place := if data = [] then .sendEof else .sendHeader data},[])
  | .sendHeader data =>
    ({thread with place := .sendBody data},[thread.sendHeader answer (thread.genRespHeader data.length)])
  | .sendBody data =>
    if data.length ≠ dataUnitLen then ({thread with place := .sendEof},[thread.sendBody answer data])
    else ({thread with place := .check, unitId := thread.unitId+1},[thread.sendBody answer data])
  | .sendEof => ({thread with place := .ended},[thread.sendHeader answer thread.genEofRespHeader])
  | .ended => (thread,[])

/-- `FileMgr::closeFile` of `getFd()`, which is the handle itself, and `stop`. -/
def closeStop : CliData :=
  {thread with mReadHdl := if thread.mReadHdl < 0 then thread.mReadHdl else -1, mIsRun := false}

def isOf (key : FileinfoKey) : Bool := thread.mKey == key

end CliData

def newCliData (sockId : Int) (info : DwldReqInfo) (fd : Int) (created : Bool) (asked : CliState) : CliData where
  mSockId := sockId
  mKey := info.key
  mOffset := toSize info.startOffset
  mFileId := info.fileId
  mReadHdl := fd
  mIsRun := true
  unitId := toInt (toSize info.startOffset/dataUnitLen : Nat)
  place := if created then .check else .ended
  asked := asked

end MoCodes.MoCloud.Server
