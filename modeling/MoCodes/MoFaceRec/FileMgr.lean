import MoCodes.MoFaceRec.CaptFile
import MoCodes.Lib.Transition

/-! Capture requests and the worker of moFaceRec: `captureHdl` of server.cpp, any number of times at
once, and `FileMgr::run`, in any order. What a system call, the conversion or the face library
answers is left open. -/
namespace MoCodes.MoFaceRec
open MoCloud
open Lib.Transition

/-- An element of one of the vectors, with the request it came with. -/
structure Task where
  request : Nat
  fileInfo : CaptFileInfo
  deriving DecidableEq

/-- `std::min_element`, the first of the least ones; `none` is the end of an empty vector. -/
def minElement : List Task → Option Task
  | [] => none
  | first :: tasks =>
    some (tasks.foldl (fun least task => if task.fileInfo.isLess least.fileInfo then task else least) first)

/-- Where `captureHdl` is, from `insertCaptFileTask` on. -/
inductive Capture where
  | inserted (fileInfo : CaptFileInfo)
  | writing (fileInfo : CaptFileInfo)
  | failed (fileInfo : CaptFileInfo)
  | written
  | notified
  | refused
  deriving DecidableEq

/-- Where `FileMgr::run` is: in the check or the wait of the outer loop, at the top of the inner
one, or with a task in `doCaptTask`, then `unlinking` its last files and at its end `found` or not. -/
inductive Worker where
  | looping | waiting | draining
  | begun (task : Task)
  | converting (task : Task)
  | converted (task : Task)
  | yuvSet (task : Task)
  | unlinking (task : Task) (filenames : List Text) (found : Bool)
  | ended
  deriving DecidableEq

def Worker.task : Worker → Option Task
  | .begun task => some task
  | .converting task => some task
  | .converted task => some task
  | .yuvSet task => some task
  | .unlinking task _ _ => some task
  | _ => none

/-- What is done to a file, and for which request. -/
inductive Action where
  | fopen (request : Nat) (filename : Text)
  | fwrite (request : Nat) (filename : Text)
  | unlink (request : Nat) (filename : Text)
  deriving DecidableEq

namespace Action

def request : Action → Nat
  | .fopen request _ => request
  | .fwrite request _ => request
  | .unlink request _ => request

def filename : Action → Text
  | .fopen _ filename => filename
  | .fwrite _ filename => filename
  | .unlink _ filename => filename

end Action

/-- The files of the capture directory, each with the request that has opened it last. -/
abbrev Files := Text → Option Nat

def Files.after (files : Files) : Action → Files
  | .fopen request filename => Function.update files filename (some request)
  | .fwrite _ _ => files
  | .unlink _ filename => Function.update files filename none

/-- `captures` has no entry for a request that has not come to `insertCaptFileTask` yet. -/
structure FileMgr where
  mMaxDisplayJpgNum : Nat
  mpFaceOper : Bool
  mIsRun : Bool
  mTmpCaptFileInfoVector : List Task
  mDisplayCaptFileInfoVector : List Task
  mSemaphore : Nat
  captures : Nat → Option Capture
  worker : Worker
  files : Files

/-- `insert` to `notify` are the steps of `captureHdl`, `stop` is `MoThread::stop`, and `work` is a
step of the worker: whether the call it makes succeeds, and whether a conversion that fails had the
yuv file open. -/
inductive Event where
  | insert (request : Nat) (fileInfo : CaptFileInfo)
  | openFile (request : Nat) (opened : Bool)
  | writeFile (request : Nat)
  | delTask (request : Nat)
  | notify (request : Nat)
  | stop
  | work (ok yuvOpened : Bool)
  deriving DecidableEq

namespace FileMgr

variable (mgr : FileMgr)

def mMaxTmpJpgNum : Nat := mgr.mMaxDisplayJpgNum*2

def insertCaptFileTask (task : Task) : FileMgr × Int :=
  if mgr.mMaxTmpJpgNum < mgr.mTmpCaptFileInfoVector.length then (mgr,-1)
  else if mgr.mTmpCaptFileInfoVector.any fun tmp => tmp.fileInfo.isEqual task.fileInfo then (mgr,-2)
  else ({mgr with mTmpCaptFileInfoVector := mgr.mTmpCaptFileInfoVector ++ [task]},0)

def delCaptFileTask (fileInfo : CaptFileInfo) : FileMgr :=
  { mgr with
    mTmpCaptFileInfoVector := mgr.mTmpCaptFileInfoVector.eraseP fun tmp => tmp.fileInfo.isEqual fileInfo }

def notifyCaptFileTask : FileMgr := {mgr with mSemaphore := mgr.mSemaphore+1}

def insertDisplayFileInfo (task : Task) : Option (FileMgr × List Action) :=
  if mgr.mMaxDisplayJpgNum ≤ mgr.mDisplayCaptFileInfoVector.length then
    (minElement mgr.mDisplayCaptFileInfoVector).map fun minIter =>
      ({ mgr with
          mDisplayCaptFileInfoVector := mgr.mDisplayCaptFileInfoVector.erase minIter ++ [task] },
        [.unlink task.request (getCaptFilename minIter.fileInfo)])
  else some ({mgr with mDisplayCaptFileInfoVector := mgr.mDisplayCaptFileInfoVector ++ [task]},[])

def setCapture (request : Nat) (capture : Capture) : FileMgr :=
  {mgr with captures := Function.update mgr.captures request (some capture)}

def setWorker (worker : Worker) : FileMgr := {mgr with worker}

def setFiles (files : Files) : FileMgr := {mgr with files}

/-- One step of `run` or `doCaptTask`, and what it does to the files. -/
def work (ok yuvOpened : Bool) : Option (FileMgr × List Action) :=
  match mgr.worker with
  | .looping => some (mgr.setWorker (if mgr.mIsRun then .waiting else .ended),[])
  | .waiting =>
    if !ok then some (mgr.setWorker .looping,[])
    else if mgr.mSemaphore = 0 then none
    else some ({mgr with mSemaphore := mgr.mSemaphore-1, worker := .draining},[])
  | .draining =>
    if !mgr.mIsRun then some (mgr.setWorker .looping,[])
    else
      match mgr.mTmpCaptFileInfoVector.getLast? with
      | none => some (mgr.setWorker .looping,[])
      | some task =>
        some
          ({ mgr with
              mTmpCaptFileInfoVector := mgr.mTmpCaptFileInfoVector.dropLast
              worker := .begun task },[])
  | .begun task =>
    let jpgFilename := getCaptFilename task.fileInfo
    if !mgr.mpFaceOper then some (mgr.setWorker .draining,[])
    -- the two calls of access in Jpg2Yuv::convert
    else if (mgr.files jpgFilename).isNone ∨ (mgr.files (getYuvFilename task.fileInfo)).isSome then
      some (mgr.setWorker (.unlinking task [jpgFilename] false),[])
    else some (mgr.setWorker (.converting task),[])
  | .converting task =>
    let yuv := Action.fopen task.request (getYuvFilename task.fileInfo)
    if ok then some (mgr.setWorker (.converted task),[yuv])
    else
      some (mgr.setWorker (.unlinking task [getCaptFilename task.fileInfo] false),
        if yuvOpened then [yuv] else [])
  | .converted task =>
    if ok then some (mgr.setWorker (.yuvSet task),[])
    else
      some (mgr.setWorker
        (.unlinking task [getCaptFilename task.fileInfo,getYuvFilename task.fileInfo] false),[])
  | .yuvSet task =>
    if ok then some (mgr.setWorker (.unlinking task [getYuvFilename task.fileInfo] true),[])
    else
      some (mgr.setWorker
        (.unlinking task [getCaptFilename task.fileInfo,getYuvFilename task.fileInfo] false),[])
  | .unlinking task (filename :: filenames) found =>
    some (mgr.setWorker (.unlinking task filenames found),[.unlink task.request filename])
  | .unlinking task [] found =>
    if found then (mgr.setWorker .draining).insertDisplayFileInfo task
    else some (mgr.setWorker .draining,[])
  | .ended => none

def act : Event → Option (FileMgr × List Action)
  | .insert request fileInfo =>
    match mgr.captures request with
    | none =>
      let (after,ret) := mgr.insertCaptFileTask ⟨request,fileInfo⟩
      some (after.setCapture request (if ret ≠ 0 then .refused else .inserted fileInfo),[])
    | some _ => none
  | .openFile request opened =>
    match mgr.captures request with
    | some (.inserted fileInfo) =>
      if opened then
        some (mgr.setCapture request (.writing fileInfo),[.fopen request (getCaptFilename fileInfo)])
      else some (mgr.setCapture request (.failed fileInfo),[])
    | _ => none
  | .writeFile request =>
    match mgr.captures request with
    | some (.writing fileInfo) =>
      some (mgr.setCapture request .written,[.fwrite request (getCaptFilename fileInfo)])
    | _ => none
  | .delTask request =>
    match mgr.captures request with
    | some (.failed fileInfo) => some ((mgr.delCaptFileTask fileInfo).setCapture request .refused,[])
    | _ => none
  | .notify request =>
    match mgr.captures request with
    | some .written => some (mgr.notifyCaptFileTask.setCapture request .notified,[])
    | _ => none
  | .stop => some ({mgr with mIsRun := false},[])
  | .work ok yuvOpened => mgr.work ok yuvOpened

/-- A step with its actions on the files. -/
def step (event : Event) : Option FileMgr :=
  (mgr.act event).map fun (after,actions) => after.setFiles (actions.foldl Files.after mgr.files)

end FileMgr

/-- An event that cannot happen, or is undefined, has no next state. -/
def faceRec : System FileMgr Event where
  Enabled mgr event := (mgr.step event).isSome
  next mgr event := (mgr.step event).getD mgr

instance (mgr : FileMgr) (event : Event) : Decidable (faceRec.Enabled mgr event) :=
  inferInstanceAs (Decidable (Option.isSome _))

/-- `main`, with no captures from an earlier run in the directory. -/
def started (mMaxDisplayJpgNum : Nat) (mpFaceOper : Bool) : FileMgr where
  mMaxDisplayJpgNum := mMaxDisplayJpgNum
  mpFaceOper := mpFaceOper
  mIsRun := true
  mTmpCaptFileInfoVector := []
  mDisplayCaptFileInfoVector := []
  mSemaphore := 0
  captures := fun _ => none
  worker := .looping
  files := fun _ => none

end MoCodes.MoFaceRec
