import MoCodes.MoFaceRec.FileMgr

/-! What one step of a capture request or of the worker can do. -/
namespace MoCodes.MoFaceRec
open MoCloud

theorem minElement_mem {tasks : List Task} {task : Task} (least : minElement tasks = some task) : task ∈ tasks := by
  cases tasks with
  | nil => cases least
  | cons first tasks =>
    obtain rfl := Option.some.inj least
    clear least
    induction tasks generalizing first with
    | nil => exact List.mem_cons_self
    | cons second tasks ih =>
      rw [List.foldl_cons]
      split
      · exact List.mem_cons_of_mem _ (ih second)
      · rcases List.mem_cons.mp (ih first) with same | later
        · exact List.mem_cons.mpr (Or.inl same)
        · exact List.mem_cons_of_mem _ (List.mem_cons_of_mem _ later)

namespace FileMgr

/-- The waiting tasks leave room for a capture, and none of them is equal to it. -/
def Accepts (mgr : FileMgr) (fileInfo : CaptFileInfo) : Prop :=
  mgr.mTmpCaptFileInfoVector.length ≤ mgr.mMaxTmpJpgNum ∧
    ∀ tmp ∈ mgr.mTmpCaptFileInfoVector, tmp.fileInfo.isEqual fileInfo = false

instance (mgr : FileMgr) (fileInfo : CaptFileInfo) : Decidable (mgr.Accepts fileInfo) := instDecidableAnd

/-- The state after `insertCaptFileTask` has taken a capture in. -/
def taken (mgr : FileMgr) (request : Nat) (fileInfo : CaptFileInfo) : FileMgr :=
  { mgr with
    mTmpCaptFileInfoVector := mgr.mTmpCaptFileInfoVector ++ [⟨request,fileInfo⟩]
    captures := Function.update mgr.captures request (some (.inserted fileInfo)) }

/-- The steps, each with what it does to the files. -/
inductive Acts (mgr : FileMgr) : Event → FileMgr → List Action → Prop where
  | refuse {request fileInfo} (fresh : mgr.captures request = none) (refuses : ¬ mgr.Accepts fileInfo) :
      Acts mgr (.insert request fileInfo) (mgr.setCapture request .refused) []
  | insert {request fileInfo} (fresh : mgr.captures request = none) (accepts : mgr.Accepts fileInfo) :
      Acts mgr (.insert request fileInfo) (mgr.taken request fileInfo) []
  | openFile {request fileInfo} (place : mgr.captures request = some (.inserted fileInfo)) :
      Acts mgr (.openFile request true) (mgr.setCapture request (.writing fileInfo))
        [.fopen request (getCaptFilename fileInfo)]
  | openFails {request fileInfo} (place : mgr.captures request = some (.inserted fileInfo)) :
      Acts mgr (.openFile request false) (mgr.setCapture request (.failed fileInfo)) []
  | writeFile {request fileInfo} (place : mgr.captures request = some (.writing fileInfo)) :
      Acts mgr (.writeFile request) (mgr.setCapture request .written)
        [.fwrite request (getCaptFilename fileInfo)]
  | delTask {request fileInfo} (place : mgr.captures request = some (.failed fileInfo)) :
      Acts mgr (.delTask request) ((mgr.delCaptFileTask fileInfo).setCapture request .refused) []
  | notify {request} (place : mgr.captures request = some .written) :
      Acts mgr (.notify request) (mgr.notifyCaptFileTask.setCapture request .notified) []
  | stop : Acts mgr .stop {mgr with mIsRun := false} []
  | idle {ok yuvOpened} (mSemaphore : Nat) {worker} (before : mgr.worker.task = none)
      (after : worker.task = none) :
      Acts mgr (.work ok yuvOpened) {mgr with mSemaphore, worker} []
  | take {ok yuvOpened front task} (place : mgr.worker = .draining) (runs : mgr.mIsRun)
      (last : mgr.mTmpCaptFileInfoVector = front ++ [task]) :
      Acts mgr (.work ok yuvOpened) {mgr with mTmpCaptFileInfoVector := front, worker := .begun task} []
  | drop {ok yuvOpened task} (place : mgr.worker = .begun task ∨ mgr.worker = .unlinking task [] false) :
      Acts mgr (.work ok yuvOpened) (mgr.setWorker .draining) []
  | noAccess {ok yuvOpened task} (place : mgr.worker = .begun task) :
      Acts mgr (.work ok yuvOpened)
        (mgr.setWorker (.unlinking task [getCaptFilename task.fileInfo] false)) []
  | access {ok yuvOpened task} (place : mgr.worker = .begun task)
      (jpg : (mgr.files (getCaptFilename task.fileInfo)).isSome)
      (yuv : mgr.files (getYuvFilename task.fileInfo) = none) :
      Acts mgr (.work ok yuvOpened) (mgr.setWorker (.converting task)) []
  | convert {ok yuvOpened task} (place : mgr.worker = .converting task) :
      Acts mgr (.work ok yuvOpened) (mgr.setWorker (.converted task))
        [.fopen task.request (getYuvFilename task.fileInfo)]
  | convertFails {ok yuvOpened task actions} (place : mgr.worker = .converting task)
      (most : actions = [] ∨ actions = [.fopen task.request (getYuvFilename task.fileInfo)]) :
      Acts mgr (.work ok yuvOpened)
        (mgr.setWorker (.unlinking task [getCaptFilename task.fileInfo] false)) actions
  | setYuvFile {ok yuvOpened task} (place : mgr.worker = .converted task) :
      Acts mgr (.work ok yuvOpened) (mgr.setWorker (.yuvSet task)) []
  | noFace {ok yuvOpened task} (place : mgr.worker = .converted task ∨ mgr.worker = .yuvSet task) :
      Acts mgr (.work ok yuvOpened) (mgr.setWorker
        (.unlinking task [getCaptFilename task.fileInfo,getYuvFilename task.fileInfo] false)) []
  | face {ok yuvOpened task} (place : mgr.worker = .yuvSet task) :
      Acts mgr (.work ok yuvOpened)
        (mgr.setWorker (.unlinking task [getYuvFilename task.fileInfo] true)) []
  | unlink {ok yuvOpened task filename filenames found}
      (place : mgr.worker = .unlinking task (filename :: filenames) found) :
      Acts mgr (.work ok yuvOpened) (mgr.setWorker (.unlinking task filenames found))
        [.unlink task.request filename]
  | display {ok yuvOpened task} (place : mgr.worker = .unlinking task [] true) :
      Acts mgr (.work ok yuvOpened)
        { mgr with
          mDisplayCaptFileInfoVector := mgr.mDisplayCaptFileInfoVector ++ [task]
          worker := .draining } []
  | evict {ok yuvOpened task minIter} (place : mgr.worker = .unlinking task [] true)
      (shown : minIter ∈ mgr.mDisplayCaptFileInfoVector) :
      Acts mgr (.work ok yuvOpened)
        { mgr with
          mDisplayCaptFileInfoVector := mgr.mDisplayCaptFileInfoVector.erase minIter ++ [task]
          worker := .draining }
        [.unlink task.request (getCaptFilename minIter.fileInfo)]

variable {mgr after : FileMgr} {event : Event} {actions : List Action}

theorem insertCaptFileTask_eq (mgr : FileMgr) (task : Task) :
    mgr.Accepts task.fileInfo ∧ mgr.insertCaptFileTask task =
      ({mgr with mTmpCaptFileInfoVector := mgr.mTmpCaptFileInfoVector ++ [task]},0) ∨
    ¬ mgr.Accepts task.fileInfo ∧ ∃ ret ≠ 0, mgr.insertCaptFileTask task = (mgr,ret) := by
  rw [insertCaptFileTask]
  split_ifs with full equal
  · exact Or.inr ⟨fun accepts => absurd accepts.1 (not_le.mpr full),-1,by decide,rfl⟩
  · obtain ⟨tmp,among,same⟩ := List.any_eq_true.mp equal
    exact Or.inr ⟨fun accepts => by simp [accepts.2 tmp among] at same,-2,by decide,rfl⟩
  · have differ : ∀ tmp ∈ mgr.mTmpCaptFileInfoVector, tmp.fileInfo.isEqual task.fileInfo = false := by
      simpa using equal
    exact Or.inl ⟨⟨not_lt.mp full,differ⟩,rfl⟩

theorem work_acts {ok yuvOpened : Bool} (ran : mgr.work ok yuvOpened = some (after,actions)) :
    mgr.Acts (.work ok yuvOpened) after actions := by
  have same : ∀ {result : FileMgr × List Action}, some result = some (after,actions) →
      mgr.Acts (.work ok yuvOpened) result.1 result.2 → mgr.Acts (.work ok yuvOpened) after actions := by
    intro result equal acts
    obtain rfl := Option.some.inj equal
    exact acts
  rw [work] at ran
  cases place : mgr.worker with
  | looping =>
    rw [place] at ran
    exact same ran (.idle mgr.mSemaphore (by rw [place]; rfl) (by split_ifs <;> rfl))
  | waiting =>
    simp only [place] at ran
    split_ifs at ran
    · exact same ran (.idle mgr.mSemaphore (by rw [place]; rfl) rfl)
    · exact same ran (.idle _ (by rw [place]; rfl) rfl)
  | draining =>
    simp only [place] at ran
    split_ifs at ran with stopped
    · exact same ran (.idle mgr.mSemaphore (by rw [place]; rfl) rfl)
    · split at ran
      · exact same ran (.idle mgr.mSemaphore (by rw [place]; rfl) rfl)
      · rename_i task last
        exact same ran (.take place (by simpa using stopped) (List.dropLast_append_getLast? _ last).symm)
  | begun task =>
    simp only [place] at ran
    split_ifs at ran with _ missing
    · exact same ran (.drop (Or.inl place))
    · exact same ran (.noAccess place)
    · obtain ⟨jpg,yuv⟩ := not_or.mp missing
      exact same ran (.access place (by simpa [Option.isSome_iff_ne_none] using jpg) (by simpa using yuv))
  | converting task =>
    simp only [place] at ran
    split_ifs at ran
    · exact same ran (.convert place)
    · exact same ran (.convertFails place (Or.inr rfl))
    · exact same ran (.convertFails place (Or.inl rfl))
  | converted task =>
    simp only [place] at ran
    split_ifs at ran
    · exact same ran (.setYuvFile place)
    · exact same ran (.noFace (Or.inl place))
  | yuvSet task =>
    simp only [place] at ran
    split_ifs at ran
    · exact same ran (.face place)
    · exact same ran (.noFace (Or.inr place))
  | unlinking task filenames found =>
    cases filenames with
    | cons filename filenames =>
      simp only [place] at ran
      exact same ran (.unlink place)
    | nil =>
      simp only [place] at ran
      split_ifs at ran with kept
      · subst kept
        rw [insertDisplayFileInfo] at ran
        split_ifs at ran
        · obtain ⟨minIter,least,made⟩ := Option.map_eq_some_iff.mp ran
          exact same (congrArg some made) (.evict place (minElement_mem least))
        · exact same ran (.display place)
      · rw [Bool.not_eq_true] at kept
        subst kept
        exact same ran (.drop (Or.inr place))
  | ended =>
    rw [place] at ran
    cases ran

theorem act_acts (ran : mgr.act event = some (after,actions)) : mgr.Acts event after actions := by
  cases event with
  | insert request fileInfo =>
    simp only [act] at ran
    split at ran
    · rename_i fresh
      rcases insertCaptFileTask_eq mgr ⟨request,fileInfo⟩ with ⟨accepts,given⟩ | ⟨refuses,ret,failed,given⟩
      · rw [given] at ran
        obtain ⟨rfl,rfl⟩ := Prod.mk.inj (Option.some.inj ran)
        exact .insert fresh accepts
      · rw [given] at ran
        simp only [failed,ne_eq,not_false_eq_true,if_true] at ran
        obtain ⟨rfl,rfl⟩ := Prod.mk.inj (Option.some.inj ran)
        exact .refuse fresh refuses
    · cases ran
  | openFile request opened =>
    simp only [act] at ran
    split at ran
    · rename_i fileInfo place
      cases opened with
      | true =>
        obtain ⟨rfl,rfl⟩ := Prod.mk.inj (Option.some.inj ran)
        exact .openFile place
      | false =>
        obtain ⟨rfl,rfl⟩ := Prod.mk.inj (Option.some.inj ran)
        exact .openFails place
    · cases ran
  | writeFile request =>
    simp only [act] at ran
    split at ran
    · rename_i fileInfo place
      obtain ⟨rfl,rfl⟩ := Prod.mk.inj (Option.some.inj ran)
      exact .writeFile place
    · cases ran
  | delTask request =>
    simp only [act] at ran
    split at ran
    · rename_i fileInfo place
      obtain ⟨rfl,rfl⟩ := Prod.mk.inj (Option.some.inj ran)
      exact .delTask place
    · cases ran
  | notify request =>
    simp only [act] at ran
    split at ran
    · rename_i place
      obtain ⟨rfl,rfl⟩ := Prod.mk.inj (Option.some.inj ran)
      exact .notify place
    · cases ran
  | stop =>
    obtain ⟨rfl,rfl⟩ := Prod.mk.inj (Option.some.inj ran)
    exact .stop
  | work ok yuvOpened => exact work_acts ran

theorem step_acts (enabled : faceRec.Enabled mgr event) :
    ∃ after actions, mgr.act event = some (after,actions) ∧ mgr.Acts event after actions ∧
      faceRec.next mgr event = after.setFiles (actions.foldl Files.after mgr.files) := by
  obtain ⟨next,ran⟩ := Option.isSome_iff_exists.mp enabled
  obtain ⟨⟨after,actions⟩,did,rfl⟩ := Option.map_eq_some_iff.mp ran
  refine ⟨after,actions,did,act_acts did,?_⟩
  change (mgr.step event).getD mgr = _
  rw [ran]
  rfl

end FileMgr

end MoCodes.MoFaceRec
