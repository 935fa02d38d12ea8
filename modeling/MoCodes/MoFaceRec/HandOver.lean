import MoCodes.MoFaceRec.DisplayStore

/-! When the worker gets a task whose file has been written. A task waits from before its file is
opened, and whoever wakes the worker makes it take all that wait. -/
namespace MoCodes.MoFaceRec
open MoCloud
open Lib.Transition

/-- `captureHdl` is between the insertion of its task and the end of `saveJpgFile`, or of
`delCaptFileTask` after a failure. -/
def Capture.inFlight : Capture → Option CaptFileInfo
  | .inserted fileInfo => some fileInfo
  | .writing fileInfo => some fileInfo
  | .failed fileInfo => some fileInfo
  | _ => none

/-- `saveJpgFile` has returned with the file written and closed. -/
def Capture.isWritten : Capture → Bool
  | .written => true
  | .notified => true
  | _ => false

theorem Capture.written_inFlight {capture : Capture} (isWritten : capture.isWritten) : capture.inFlight = none := by
  cases capture <;> first | rfl | cases isWritten

/-- No two of the tasks have one key. -/
def DistinctKeys (tasks : List Task) : Prop :=
  tasks.Pairwise fun task other => task.fileInfo.isEqual other.fileInfo = false

theorem DistinctKeys.eq {tasks : List Task} (keys : DistinctKeys tasks) {task other : Task}
    (among : task ∈ tasks) (among' : other ∈ tasks) (equal : task.fileInfo.isEqual other.fileInfo) :
    task = other := by
  induction tasks with
  | nil => cases among
  | cons head tasks ih =>
    obtain ⟨apart,keys⟩ := List.pairwise_cons.mp keys
    rcases List.mem_cons.mp among with rfl | later <;> rcases List.mem_cons.mp among' with rfl | later'
    · rfl
    · rw [apart other later'] at equal
      cases equal
    · rw [CaptFileInfo.isEqual_comm,apart task later] at equal
      cases equal
    · exact ih keys later later'

/-- `delCaptFileTask` removes all that is equal to the capture. -/
theorem DistinctKeys.mem_eraseP {tasks : List Task} (keys : DistinctKeys tasks) (fileInfo : CaptFileInfo)
    {task : Task} : task ∈ tasks.eraseP (fun tmp => tmp.fileInfo.isEqual fileInfo) ↔
      task ∈ tasks ∧ task.fileInfo.isEqual fileInfo = false := by
  induction tasks with
  | nil => simp
  | cons head tasks ih =>
    obtain ⟨apart,keys⟩ := List.pairwise_cons.mp keys
    by_cases equal : head.fileInfo.isEqual fileInfo
    · rw [List.eraseP_cons_of_pos (by exact equal),List.mem_cons]
      constructor
      · intro among
        refine ⟨Or.inr among,?_⟩
        by_contra same
        rw [Bool.not_eq_false,CaptFileInfo.isEqual_comm] at same
        have both := CaptFileInfo.isEqual_trans equal same
        rw [apart task among] at both
        cases both
      · rintro ⟨rfl | among,differ⟩
        · rw [equal] at differ
          cases differ
        · exact among
    · rw [List.eraseP_cons_of_neg (by exact equal),List.mem_cons,List.mem_cons,ih keys,or_and_right]
      refine or_congr_left ⟨?_,And.left⟩
      rintro rfl
      exact ⟨rfl,Bool.eq_false_of_not_eq_true equal⟩

namespace FileMgr

/-- `captureHdl` has written the file of the task. -/
def Written (mgr : FileMgr) (task : Task) : Prop :=
  ∃ capture, mgr.captures task.request = some capture ∧ capture.isWritten

/-- The worker takes a task only while no request is between inserting its task and having
written its file. -/
def handsOver (mgr : FileMgr) : Event → Prop
  | .work _ _ => mgr.worker = .draining → mgr.mIsRun → mgr.mTmpCaptFileInfoVector ≠ [] →
    ∀ request capture, mgr.captures request = some capture → capture.inFlight = none
  | _ => True

structure HandedOver (mgr : FileMgr) : Prop where
  waiting : ∀ task ∈ mgr.mTmpCaptFileInfoVector, ∃ capture, mgr.captures task.request = some capture ∧
    (capture.isWritten ∨ capture.inFlight = some task.fileInfo)
  flight : ∀ request capture fileInfo, mgr.captures request = some capture →
    capture.inFlight = some fileInfo → ⟨request,fileInfo⟩ ∈ mgr.mTmpCaptFileInfoVector
  keys : DistinctKeys mgr.mTmpCaptFileInfoVector
  working : ∀ task ∈ mgr.worker.task, mgr.Written task

variable {mgr after : FileMgr} {event : Event} {actions : List Action}

section Captures

variable {request : Nat} {capture : Capture}

theorem setCapture_captures (mgr : FileMgr) (request : Nat) (capture : Capture) :
    (mgr.setCapture request capture).captures request = some capture := Function.update_self ..

theorem setCapture_other {other : Nat} (apart : other ≠ request) :
    (mgr.setCapture request capture).captures other = mgr.captures other := Function.update_of_ne apart _ _

theorem Written.setCapture {before : Capture} {task : Task} (written : mgr.Written task)
    (place : mgr.captures request = some before) (goes : before.isWritten → capture.isWritten) :
    (mgr.setCapture request capture).Written task := by
  obtain ⟨here,found,isWritten⟩ := written
  by_cases same : task.request = request
  · rw [same,place] at found
    obtain rfl := Option.some.inj found
    exact ⟨capture,same ▸ setCapture_captures mgr _ _,goes isWritten⟩
  · exact ⟨here,(setCapture_other same).trans found,isWritten⟩

theorem HandedOver.setCapture {before : Capture} (handed : mgr.HandedOver)
    (place : mgr.captures request = some before)
    (goes : before.isWritten → capture.isWritten)
    (flies : ∀ fileInfo, before.inFlight = some fileInfo → capture.isWritten ∨ capture.inFlight = some fileInfo)
    (flew : ∀ fileInfo, capture.inFlight = some fileInfo → before.inFlight = some fileInfo) :
    (mgr.setCapture request capture).HandedOver where
  waiting task among := by
    obtain ⟨here,found,state⟩ := handed.waiting task among
    by_cases same : task.request = request
    · rw [same,place] at found
      obtain rfl := Option.some.inj found
      refine ⟨capture,same ▸ setCapture_captures mgr _ _,?_⟩
      rcases state with isWritten | inFlight
      · exact Or.inl (goes isWritten)
      · exact flies _ inFlight
    · exact ⟨here,(setCapture_other same).trans found,state⟩
  flight other here fileInfo found inFlight := by
    by_cases same : other = request
    · subst same
      rw [setCapture_captures] at found
      obtain rfl := Option.some.inj found
      exact handed.flight _ before fileInfo place (flew fileInfo inFlight)
    · exact handed.flight other here fileInfo ((setCapture_other same).symm.trans found) inFlight
  keys := handed.keys
  working task working := (handed.working task working).setCapture place goes

end Captures

section Steps

variable {request : Nat} {fileInfo : CaptFileInfo}

theorem taken_self (mgr : FileMgr) (request : Nat) (fileInfo : CaptFileInfo) :
    (mgr.taken request fileInfo).captures request = some (.inserted fileInfo) := Function.update_self ..

theorem HandedOver.taken (handed : mgr.HandedOver) (fresh : mgr.captures request = none)
    (accepts : mgr.Accepts fileInfo) : (mgr.taken request fileInfo).HandedOver where
  waiting task among := by
    rcases List.mem_append.mp among with old | new
    · obtain ⟨capture,found,state⟩ := handed.waiting task old
      have apart : task.request ≠ request := fun same => by simp [same,fresh] at found
      exact ⟨capture,(taken_captures apart).trans found,state⟩
    · obtain rfl := List.mem_singleton.mp new
      exact ⟨.inserted fileInfo,taken_self ..,Or.inr rfl⟩
  flight other capture fileInfo' found inFlight := by
    by_cases same : other = request
    · subst same
      rw [taken_self] at found
      obtain rfl := Option.some.inj found
      obtain rfl := Option.some.inj inFlight
      exact List.mem_append_right _ List.mem_cons_self
    · rw [taken_captures same] at found
      exact List.mem_append_left _ (handed.flight other capture fileInfo' found inFlight)
  keys := by
    refine List.pairwise_append.mpr ⟨handed.keys,List.pairwise_singleton _ _,fun task among other new => ?_⟩
    obtain rfl := List.mem_singleton.mp new
    exact accepts.2 task among
  working task working := by
    obtain ⟨capture,found,isWritten⟩ := handed.working task working
    have apart : task.request ≠ request := fun same => by simp [same,fresh] at found
    exact ⟨capture,(taken_captures apart).trans found,isWritten⟩

theorem HandedOver.refused (handed : mgr.HandedOver) (fresh : mgr.captures request = none) :
    (mgr.setCapture request .refused).HandedOver where
  waiting task among := by
    obtain ⟨capture,found,state⟩ := handed.waiting task among
    have apart : task.request ≠ request := fun same => by simp [same,fresh] at found
    exact ⟨capture,(setCapture_other apart).trans found,state⟩
  flight other capture fileInfo' found inFlight := by
    by_cases same : other = request
    · subst same
      rw [setCapture_captures] at found
      obtain rfl := Option.some.inj found
      cases inFlight
    · exact handed.flight other capture fileInfo' ((setCapture_other same).symm.trans found) inFlight
  keys := handed.keys
  working task working := by
    obtain ⟨capture,found,isWritten⟩ := handed.working task working
    have apart : task.request ≠ request := fun same => by simp [same,fresh] at found
    exact ⟨capture,(setCapture_other apart).trans found,isWritten⟩

/-- The task of a failed request still waits, so it is the one that is deleted. -/
theorem HandedOver.deleted (handed : mgr.HandedOver) (place : mgr.captures request = some (.failed fileInfo)) :
    ((mgr.delCaptFileTask fileInfo).setCapture request .refused).HandedOver := by
  have own : ⟨request,fileInfo⟩ ∈ mgr.mTmpCaptFileInfoVector := handed.flight request _ fileInfo place rfl
  have self : fileInfo.isEqual fileInfo := by simp [CaptFileInfo.isEqual]
  refine ⟨fun task among => ?_,fun other capture fileInfo' found inFlight => ?_,?_,fun task working => ?_⟩
  · obtain ⟨before,differ⟩ := (handed.keys.mem_eraseP fileInfo).mp among
    obtain ⟨capture,found,state⟩ := handed.waiting task before
    refine ⟨capture,(setCapture_other fun same => ?_).trans found,state⟩
    rw [same,place] at found
    obtain rfl := Option.some.inj found
    rcases state with isWritten | inFlight
    · cases isWritten
    · rw [← Option.some.inj inFlight,self] at differ
      cases differ
  · by_cases same : other = request
    · subst same
      rw [setCapture_captures] at found
      obtain rfl := Option.some.inj found
      cases inFlight
    · rw [setCapture_other same] at found
      have before := handed.flight other capture fileInfo' found inFlight
      refine (handed.keys.mem_eraseP fileInfo).mpr ⟨before,?_⟩
      by_contra equal
      rw [Bool.not_eq_false] at equal
      exact same (congrArg Task.request (handed.keys.eq before own equal))
  · exact handed.keys.sublist List.eraseP_sublist
  · obtain ⟨capture,found,isWritten⟩ := handed.working task working
    refine ⟨capture,(setCapture_other fun same => ?_).trans found,isWritten⟩
    rw [same,place] at found
    obtain rfl := Option.some.inj found
    cases isWritten

theorem HandedOver.worked {next : FileMgr} (handed : mgr.HandedOver) (captures : next.captures = mgr.captures)
    (waiting : next.mTmpCaptFileInfoVector = mgr.mTmpCaptFileInfoVector)
    (working : next.worker.task = none ∨ next.worker.task = mgr.worker.task) : next.HandedOver where
  waiting := captures ▸ waiting ▸ handed.waiting
  flight := captures ▸ waiting ▸ handed.flight
  keys := waiting ▸ handed.keys
  working task among := by
    rcases working with none | same
    · rw [none] at among
      cases among
    · rw [same] at among
      rw [Written,captures]
      exact handed.working task among

theorem HandedOver.acts (handed : mgr.HandedOver) (acts : mgr.Acts event after actions)
    (hands : mgr.handsOver event) : after.HandedOver := by
  cases acts with
  | refuse fresh => exact handed.refused fresh
  | insert fresh accepts => exact handed.taken fresh accepts
  | openFile place =>
    exact handed.setCapture place (fun written => (by cases written)) (fun _ => Or.inr) fun _ => id
  | openFails place =>
    exact handed.setCapture place (fun written => (by cases written)) (fun _ => Or.inr) fun _ => id
  | writeFile place =>
    exact handed.setCapture place (fun _ => rfl) (fun _ _ => Or.inl rfl) fun _ flies => (by cases flies)
  | delTask place => exact handed.deleted place
  | notify place =>
    have posted : mgr.notifyCaptFileTask.HandedOver := handed.worked rfl rfl (Or.inr rfl)
    exact posted.setCapture place (fun _ => rfl) (fun _ _ => Or.inl rfl) fun _ flies => (by cases flies)
  | stop => exact handed.worked rfl rfl (Or.inr rfl)
  | idle _ _ free => exact handed.worked rfl rfl (Or.inl free)
  | take place runs last =>
    have some : mgr.mTmpCaptFileInfoVector ≠ [] := by simp [last]
    have none := hands place runs some
    have kept := handed.keys
    rw [last] at kept
    refine ⟨fun task among => ?_,fun request capture fileInfo found flies => ?_,?_,fun task working => ?_⟩
    · exact handed.waiting task (last ▸ List.mem_append_left _ among)
    · rw [none request capture found] at flies
      cases flies
    · exact (List.pairwise_append.mp kept).1
    · obtain rfl := Option.mem_some_iff.mp working
      obtain ⟨capture,found,state⟩ := handed.waiting _ (last ▸ List.mem_append_right _ List.mem_cons_self)
      refine ⟨capture,found,state.resolve_right fun flies => ?_⟩
      rw [none _ capture found] at flies
      cases flies
  | drop => exact handed.worked rfl rfl (Or.inl rfl)
  | noAccess place => exact handed.worked rfl rfl (Or.inr (by rw [place]; rfl))
  | access place => exact handed.worked rfl rfl (Or.inr (by rw [place]; rfl))
  | convert place => exact handed.worked rfl rfl (Or.inr (by rw [place]; rfl))
  | convertFails place => exact handed.worked rfl rfl (Or.inr (by rw [place]; rfl))
  | setYuvFile place => exact handed.worked rfl rfl (Or.inr (by rw [place]; rfl))
  | noFace place =>
    refine handed.worked rfl rfl (Or.inr ?_)
    rcases place with place | place <;> rw [place] <;> rfl
  | face place => exact handed.worked rfl rfl (Or.inr (by rw [place]; rfl))
  | unlink place => exact handed.worked rfl rfl (Or.inr (by rw [place]; rfl))
  | display => exact handed.worked rfl rfl (Or.inl rfl)
  | evict => exact handed.worked rfl rfl (Or.inl rfl)

theorem handed_next (handed : mgr.HandedOver) (enabled : faceRec.Enabled mgr event)
    (hands : mgr.handsOver event) : (faceRec.next mgr event).HandedOver := by
  obtain ⟨after,actions,_,acts,made⟩ := step_acts enabled
  rw [made]
  exact (handed.acts acts hands).worked rfl rfl (Or.inr rfl)

theorem started_handed (mMaxDisplayJpgNum : Nat) (mpFaceOper : Bool) :
    (started mMaxDisplayJpgNum mpFaceOper).HandedOver :=
  ⟨fun _ among => (by cases among),fun _ _ _ found => (by cases found),List.Pairwise.nil,
    fun _ working => (by cases working)⟩

end Steps

section Present

/-- A capture that is taken in shares no file with a live one, not even a yuv file. -/
def ownNames (mgr : FileMgr) : Event → Prop
  | .insert _ fileInfo => mgr.Accepts fileInfo → ∀ task, mgr.Live task →
    getCaptFilename task.fileInfo ≠ getCaptFilename fileInfo ∧
      getCaptFilename task.fileInfo ≠ getYuvFilename fileInfo ∧
        getYuvFilename task.fileInfo ≠ getCaptFilename fileInfo
  | _ => True

theorem ownFile_of_ownNames (own : mgr.ownNames event) : mgr.ownFile event := by
  cases event with
  | insert request fileInfo => exact fun accepts task live => (own accepts task live).1
  | _ => trivial

/-- `captureHdl` has opened the file of the task. -/
def Opened (mgr : FileMgr) (task : Task) : Prop :=
  ∃ capture, mgr.captures task.request = some capture ∧
    (capture.isWritten ∨ capture = .writing task.fileInfo)

/-- The task is in the vector, or the worker has just taken it. -/
def Waits (mgr : FileMgr) (task : Task) : Prop :=
  task ∈ mgr.mTmpCaptFileInfoVector ∨ mgr.worker = .begun task

/-- The file of a task that has been opened by its `captureHdl` is there until the worker looks for it. -/
structure Present (mgr : FileMgr) : Prop where
  yuv : ∀ task other, mgr.Live task → mgr.Live other → task.request ≠ other.request →
    getYuvFilename task.fileInfo ≠ getCaptFilename other.fileInfo
  touched : ∀ task filenames found, mgr.worker = .unlinking task filenames found →
    ∀ filename ∈ filenames, filename = getCaptFilename task.fileInfo ∨ filename = getYuvFilename task.fileInfo
  there : ∀ task, mgr.Waits task → mgr.Opened task →
    mgr.files (getCaptFilename task.fileInfo) = some task.request

theorem files_untouched {files : Files} {actions : List Action} {filename : Text}
    (apart : ∀ action ∈ actions, action.filename ≠ filename) :
    actions.foldl Files.after files filename = files filename := by
  induction actions generalizing files with
  | nil => rfl
  | cons action actions ih =>
    rw [List.foldl_cons,ih fun other among => apart other (List.mem_cons_of_mem _ among)]
    have first := (apart action List.mem_cons_self).symm
    cases action with
    | fopen request opened => exact Function.update_of_ne first _ _
    | fwrite request written => rfl
    | unlink request gone => exact Function.update_of_ne first _ _

theorem waiting_apart (named : mgr.Named) {task other : Task} (waits : task ∈ mgr.mTmpCaptFileInfoVector)
    (held : other ∈ mgr.worker.task.toList ++ mgr.mDisplayCaptFileInfoVector) :
    other.request ≠ task.request := by
  have once := named.once
  rw [FileMgr.held,List.append_assoc,List.map_append,List.nodup_append] at once
  exact (once.2.2 _ (List.mem_map_of_mem waits) _ (List.mem_map_of_mem held)).symm

theorem work_spares (named : mgr.Named) (present : mgr.Present) {ok yuvOpened : Bool}
    (acts : mgr.Acts (.work ok yuvOpened) after actions) {task : Task}
    (waits : task ∈ mgr.mTmpCaptFileInfoVector) {action : Action} (among : action ∈ actions) :
    action.filename ≠ getCaptFilename task.fileInfo := by
  have lives : mgr.Live task := Or.inl (List.mem_append_left _ (List.mem_append_left _ waits))
  have working : ∀ {current}, mgr.worker.task = some current →
      getCaptFilename current.fileInfo ≠ getCaptFilename task.fileInfo ∧
        getYuvFilename current.fileInfo ≠ getCaptFilename task.fileInfo := by
    intro current works
    have held : current ∈ mgr.worker.task.toList := by simp [works]
    have live : mgr.Live current := Or.inl (List.mem_append_left _ (List.mem_append_right _ held))
    have differ := waiting_apart named waits (List.mem_append_left _ held)
    exact ⟨named.apart _ _ live lives differ,present.yuv _ _ live lives differ⟩
  cases acts with
  | convert place =>
    obtain rfl := List.mem_singleton.mp among
    exact (working (by rw [place]; rfl)).2
  | convertFails place most =>
    rcases most with rfl | rfl
    · cases among
    · obtain rfl := List.mem_singleton.mp among
      exact (working (by rw [place]; rfl)).2
  | unlink place =>
    obtain rfl := List.mem_singleton.mp among
    have apart := working (by rw [place]; rfl)
    rcases present.touched _ _ _ place _ List.mem_cons_self with same | same
    · exact same ▸ apart.1
    · exact same ▸ apart.2
  | evict place shown =>
    obtain rfl := List.mem_singleton.mp among
    exact named.apart _ _ (Or.inl (List.mem_append_right _ shown)) lives
      (waiting_apart named waits (List.mem_append_right _ shown))
  | _ => cases among

theorem work_waits {ok yuvOpened : Bool} (acts : mgr.Acts (.work ok yuvOpened) after actions) :
    after.captures = mgr.captures ∧ ∀ task, after.Waits task → task ∈ mgr.mTmpCaptFileInfoVector := by
  have free : ∀ {worker : Worker} {task : Task}, worker.task = none → worker ≠ .begun task := by
    rintro worker task none rfl
    cases none
  cases acts with
  | idle _ _ none => exact ⟨rfl,fun task waits => waits.resolve_right (free none)⟩
  | take place runs last =>
    refine ⟨rfl,fun task waits => ?_⟩
    rcases waits with front | begun
    · exact last ▸ List.mem_append_left _ front
    · obtain rfl := Worker.begun.inj begun
      exact last ▸ List.mem_append_right _ List.mem_cons_self
  | _ => exact ⟨rfl,fun task waits => waits.resolve_right (by rintro ⟨⟩)⟩

theorem waits_live {task : Task} (waits : mgr.Waits task) : mgr.Live task := by
  rcases waits with among | begun
  · exact Or.inl (List.mem_append_left _ (List.mem_append_left _ among))
  · exact Or.inl (List.mem_append_left _ (List.mem_append_right _ (by simp [begun,Worker.task])))

/-- What is in flight for a task that waits is its own file. -/
theorem HandedOver.flies (handed : mgr.HandedOver) {task : Task} (waits : mgr.Waits task) {capture : Capture}
    (found : mgr.captures task.request = some capture) {fileInfo : CaptFileInfo}
    (flies : capture.inFlight = some fileInfo) : fileInfo = task.fileInfo := by
  rcases waits with among | begun
  · obtain ⟨here,found',state⟩ := handed.waiting task among
    obtain rfl := Option.some.inj (found.symm.trans found')
    rcases state with isWritten | own
    · rw [Capture.written_inFlight isWritten] at flies
      cases flies
    · exact Option.some.inj (flies.symm.trans own)
  · obtain ⟨here,found',isWritten⟩ := handed.working task (by simp [begun,Worker.task])
    obtain rfl := Option.some.inj (found.symm.trans found')
    rw [Capture.written_inFlight isWritten] at flies
    cases flies

theorem there_work (named : mgr.Named) (present : mgr.Present) {ok yuvOpened : Bool}
    (acts : mgr.Acts (.work ok yuvOpened) after actions) {task : Task} (waits : after.Waits task)
    (opened : after.Opened task) :
    actions.foldl Files.after mgr.files (getCaptFilename task.fileInfo) = some task.request := by
  obtain ⟨captures,waited⟩ := work_waits acts
  have among := waited task waits
  rw [files_untouched fun action done => work_spares named present acts among done]
  exact present.there task (Or.inl among) (by rwa [Opened,captures] at opened)

theorem opened_other {request : Nat} {capture : Capture} {task : Task} (apart : task.request ≠ request)
    (opened : (mgr.setCapture request capture).Opened task) : mgr.Opened task := by
  obtain ⟨here,found,state⟩ := opened
  exact ⟨here,(setCapture_other apart).symm.trans found,state⟩

/-- A request whose place is not one with an open or written file is not that of the task. -/
theorem opened_apart {request : Nat} {capture : Capture} {task : Task} (unwritten : capture.isWritten = false)
    (closed : capture.writes = none ∨ ∃ fileInfo, capture = .inserted fileInfo)
    (opened : (mgr.setCapture request capture).Opened task) : task.request ≠ request := by
  rintro rfl
  obtain ⟨here,found,state⟩ := opened
  rw [setCapture_captures] at found
  obtain rfl := Option.some.inj found
  rcases state with isWritten | writing
  · rw [unwritten] at isWritten
    cases isWritten
  · subst writing
    rcases closed with none | ⟨_,same⟩
    · cases none
    · cases same

theorem there_acts (named : mgr.Named) (present : mgr.Present) (handed : mgr.HandedOver)
    (acts : mgr.Acts event after actions) {task : Task} (waits : after.Waits task) (opened : after.Opened task) :
    actions.foldl Files.after mgr.files (getCaptFilename task.fileInfo) = some task.request := by
  cases event with
  | insert request fileInfo =>
    cases acts with
    | refuse =>
      have apart := opened_apart rfl (Or.inl rfl) opened
      exact present.there task waits (opened_other apart opened)
    | insert =>
      have inserted : (mgr.setCapture request (.inserted fileInfo)).Opened task := opened
      have apart := opened_apart rfl (Or.inr ⟨_,rfl⟩) inserted
      refine present.there task ?_ (opened_other apart opened)
      rcases waits with among | begun
      · rcases List.mem_append.mp among with old | new
        · exact Or.inl old
        · exact absurd (congrArg Task.request (List.mem_singleton.mp new)) apart
      · exact Or.inr begun
  | openFile request ok =>
    cases acts with
    | @openFile _ fileInfo place =>
      by_cases same : task.request = request
      · subst same
        obtain rfl := handed.flies waits place rfl
        exact Function.update_self ..
      · have apart := named.apart task ⟨request,fileInfo⟩ (waits_live waits) (Or.inr ⟨_,place,rfl⟩) same
        exact (Function.update_of_ne apart _ _).trans (present.there task waits (opened_other same opened))
    | openFails =>
      have apart := opened_apart rfl (Or.inl rfl) opened
      exact present.there task waits (opened_other apart opened)
  | writeFile request =>
    cases acts with
    | writeFile place =>
      by_cases same : task.request = request
      · subst same
        obtain rfl := handed.flies waits place rfl
        exact present.there task waits ⟨_,place,Or.inr rfl⟩
      · exact present.there task waits (opened_other same opened)
  | delTask request =>
    cases acts with
    | delTask =>
      have apart := opened_apart rfl (Or.inl rfl) opened
      exact present.there task (waits.imp_left List.mem_of_mem_eraseP) (opened_other apart opened)
  | notify request =>
    cases acts with
    | notify place =>
      by_cases same : task.request = request
      · exact present.there task waits ⟨_,same ▸ place,Or.inl rfl⟩
      · exact present.there task waits (opened_other same opened)
  | stop =>
    cases acts with
    | stop => exact present.there task waits opened
  | work ok yuvOpened => exact there_work named present acts waits opened

theorem touched_acts (present : mgr.Present) (acts : mgr.Acts event after actions) {task : Task}
    {filenames : List Text} {found : Bool} (place : after.worker = .unlinking task filenames found)
    {filename : Text} (among : filename ∈ filenames) :
    filename = getCaptFilename task.fileInfo ∨ filename = getYuvFilename task.fileInfo := by
  cases acts with
  | refuse | insert | openFile | openFails | writeFile | delTask | notify | stop =>
    exact present.touched _ _ _ place _ among
  | idle _ _ free =>
    obtain rfl := place
    cases free
  | noAccess | convertFails =>
    obtain ⟨rfl,rfl,_⟩ := Worker.unlinking.inj place
    exact Or.inl (List.mem_singleton.mp among)
  | noFace =>
    obtain ⟨rfl,rfl,_⟩ := Worker.unlinking.inj place
    exact (List.mem_cons.mp among).imp_right List.mem_singleton.mp
  | face =>
    obtain ⟨rfl,rfl,_⟩ := Worker.unlinking.inj place
    exact Or.inr (List.mem_singleton.mp among)
  | unlink before =>
    obtain ⟨rfl,rfl,_⟩ := Worker.unlinking.inj place
    exact present.touched _ _ _ before _ (List.mem_cons_of_mem _ among)
  | _ => cases place

end Present

theorem present_next (named : mgr.Named) (handed : mgr.HandedOver) (present : mgr.Present)
    (enabled : faceRec.Enabled mgr event) (own : mgr.ownNames event) : (faceRec.next mgr event).Present := by
  obtain ⟨after,actions,_,acts,made⟩ := step_acts enabled
  rw [made]
  refine ⟨?_,fun _ _ _ place _ among => touched_acts present acts place among,
    fun _ waits opened => there_acts named present handed acts waits opened⟩
  rcases acts_less acts with less | ⟨request,fileInfo,rfl,fresh,accepts,rfl⟩
  · exact fun task other live live' => present.yuv task other (less.live live) (less.live live')
  · exact fun _ _ => taken_apart (R := fun first second => getYuvFilename first ≠ getCaptFilename second)
      present.yuv fun task live => ⟨(own accepts task live).2.2,(own accepts task live).2.1.symm⟩

theorem started_present (mMaxDisplayJpgNum : Nat) (mpFaceOper : Bool) :
    (started mMaxDisplayJpgNum mpFaceOper).Present := by
  refine ⟨fun task _ live => ?_,fun _ _ _ place => (by cases place),fun task waits => ?_⟩
  · rcases live with held | ⟨_,place,_⟩
    · cases held
    · cases place
  · rcases waits with among | begun
    · cases among
    · cases begun

end FileMgr

/-- In a run in which the worker takes tasks only while no request is between insertion and written
file, each task it gets has been written; and if no two live captures have a file name in common,
its file is there when `doCaptTask` starts. -/
theorem handed_over (mMaxDisplayJpgNum : Nat) (mpFaceOper : Bool) :
    (∀ mgr, faceRec.Run FileMgr.handsOver (started mMaxDisplayJpgNum mpFaceOper) mgr →
      ∀ task, mgr.worker.task = some task → mgr.Written task) ∧
    ∀ mgr, faceRec.Run (fun mgr event => mgr.handsOver event ∧ mgr.ownNames event)
        (started mMaxDisplayJpgNum mpFaceOper) mgr →
      ∀ task, mgr.worker = .begun task → mgr.files (getCaptFilename task.fileInfo) = some task.request := by
  constructor
  · intro mgr run task working
    have handed := run_invariant (FileMgr.started_handed mMaxDisplayJpgNum mpFaceOper) FileMgr.handed_next run
    exact handed.working task working
  · intro mgr run task begun
    have initially : ∀ start, start = started mMaxDisplayJpgNum mpFaceOper →
        (start.Named ∧ start.Shown) ∧ start.HandedOver ∧ start.Present := by
      rintro _ rfl
      exact ⟨FileMgr.started_kept _ _,FileMgr.started_handed _ _,FileMgr.started_present _ _⟩
    obtain ⟨_,handed,present⟩ :=
      run_invariant (I := fun mgr => (mgr.Named ∧ mgr.Shown) ∧ mgr.HandedOver ∧ mgr.Present) (initially _ rfl)
        (fun kept enabled allowed => ⟨FileMgr.kept_next kept.1 enabled (FileMgr.ownFile_of_ownNames allowed.2),
          FileMgr.handed_next kept.2.1 enabled allowed.1,
          FileMgr.present_next kept.1.1 kept.2.1 kept.2.2 enabled allowed.2⟩) run
    obtain ⟨capture,found,isWritten⟩ := handed.working task (by simp [begun,Worker.task])
    exact present.there task (Or.inr begun) ⟨capture,found,Or.inl isWritten⟩

/-- One capture is written, and the worker takes it. -/
def taking : List Event := capture 0 doorCapture ++ List.replicate 3 (.work true false)

theorem taking_follows :
    faceRec.Follows (fun mgr event => mgr.handsOver event ∧ mgr.ownNames event) (started 9 true) taking := by
  have notified : ∀ request here,
      ((taking.take 6).foldl faceRec.next (started 9 true)).captures request = some here →
        here.inFlight = none := by
    intro request here found
    rcases request with _ | request
    · obtain rfl : Capture.notified = here := Option.some.inj found
      rfl
    · cases found
  have none : ∀ task, ¬ (started 9 true).Live task := by
    rintro task (held | ⟨_,place,_⟩)
    · cases held
    · cases place
  have busy : ∀ {mgr : FileMgr}, mgr.worker ≠ .draining → mgr.handsOver (.work true false) :=
    fun other draining => absurd draining other
  exact ⟨⟨rfl,trivial,fun _ task live => absurd live (none task)⟩,⟨rfl,trivial,trivial⟩,⟨rfl,trivial,trivial⟩,
    ⟨rfl,trivial,trivial⟩,⟨rfl,busy (by decide +kernel),trivial⟩,⟨rfl,busy (by decide +kernel),trivial⟩,
    ⟨rfl,fun _ _ _ => notified,trivial⟩,trivial⟩

theorem handed_over_door :
    (taking.foldl faceRec.next (started 9 true)).Written ⟨0,doorCapture⟩ ∧
      (taking.foldl faceRec.next (started 9 true)).files (getCaptFilename doorCapture) = some 0 := by
  have run := run_of_events taking_follows .start
  exact ⟨(handed_over 9 true).1 _ (run_mono (fun _ _ => And.left) run) ⟨0,doorCapture⟩ rfl,
    (handed_over 9 true).2 _ run ⟨0,doorCapture⟩ rfl⟩

/-- The worker is busy with one capture when another one is inserted, and takes that as well. -/
def overlapping : List Event :=
  capture 0 doorCapture ++ List.replicate 3 (.work true false) ++
    [.insert 1 {doorCapture with mTimestamp := 1500000001}] ++ List.replicate 7 (.work true false)

theorem taken_unwritten : faceRec.Follows anyEvent (started 9 true) overlapping ∧
    (overlapping.foldl faceRec.next (started 9 true)).worker =
      .begun ⟨1,{doorCapture with mTimestamp := 1500000001}⟩ ∧
    (overlapping.foldl faceRec.next (started 9 true)).captures 1 =
      some (.inserted {doorCapture with mTimestamp := 1500000001}) ∧
    ¬ (overlapping.foldl faceRec.next (started 9 true)).Written
      ⟨1,{doorCapture with mTimestamp := 1500000001}⟩ := by
  have place : (overlapping.foldl faceRec.next (started 9 true)).captures 1 =
      some (.inserted {doorCapture with mTimestamp := 1500000001}) := by
    decide +kernel
  refine ⟨by decide +kernel,by decide +kernel,place,?_⟩
  rintro ⟨here,found,isWritten⟩
  obtain rfl := Option.some.inj (place.symm.trans found)
  cases isWritten

end MoCodes.MoFaceRec
