import MoCodes.MoFaceRec.CaptScan
import MoCodes.MoFaceRec.Steps

/-! `initCaptFiles` of main.cpp, which takes the captures of an earlier run in while the worker of
`FileMgr` is running already. readdir returns what the directory held when it was opened. -/
namespace MoCodes.MoFaceRec
open MoCloud
open Lib.Transition

/-- `todo` is what readdir has not returned yet, and `posting` that a capture has been taken in and
`notifyCaptFileTask` comes next. -/
structure Startup where
  mgr : FileMgr
  todo : List Text
  posting : Bool
  delFilenameList : List Text
  inserted : List CaptFileInfo
  unlinked : List Text

inductive StartupEvent where
  | readdir
  | notify
  | unlink
  | work (ok yuvOpened : Bool)
  deriving DecidableEq

def isDot (d_name : Text) : Bool := d_name == text "." || d_name == text ".."

namespace Startup

variable (s : Startup)

/-- The loop over the entries; a file that does not become a task is put down for deletion. -/
def readEntry (pCurFile : Text) : Startup :=
  if isDot pCurFile then s
  else match initCaptFile pCurFile with
    | none => {s with delFilenameList := s.delFilenameList ++ [pCurFile]}
    | some curFileInfo =>
      let (mgr,ret) := s.mgr.insertCaptFileTask ⟨s.inserted.length,curFileInfo⟩
      if ret ≠ 0 then {s with delFilenameList := s.delFilenameList ++ [pCurFile]}
      else {s with mgr, posting := true, inserted := s.inserted ++ [curFileInfo]}

def step : StartupEvent → Option Startup
  | .readdir => match s.todo with
    | [] => none
    | pCurFile :: todo => if s.posting then none else some {s.readEntry pCurFile with todo}
  | .notify => if s.posting then some {s with mgr := s.mgr.notifyCaptFileTask, posting := false} else none
  | .unlink =>
    if s.posting || !s.todo.isEmpty then none
    else match s.delFilenameList with
      | [] => none
      | curFilename :: delFilenameList => some
        { s with
          mgr := s.mgr.setFiles (s.mgr.files.after (.unlink 0 curFilename))
          delFilenameList
          unlinked := s.unlinked ++ [curFilename] }
  | .work ok yuvOpened => (s.mgr.step (.work ok yuvOpened)).map fun mgr => {s with mgr}

end Startup

def startup : System Startup StartupEvent where
  Enabled s event := (s.step event).isSome
  next s event := (s.step event).getD s

instance (s : Startup) (event : StartupEvent) : Decidable (startup.Enabled s event) :=
  inferInstanceAs (Decidable (Option.isSome _))

/-- `main` with these files in the directory, from the `opendir` on. -/
def initCaptFiles (names : List Text) (mMaxDisplayJpgNum : Nat) (mpFaceOper : Bool) : Startup where
  mgr := {started mMaxDisplayJpgNum mpFaceOper with files := fun name => if names.elem name then some 0 else none}
  todo := names
  posting := false
  delFilenameList := []
  inserted := []
  unlinked := []

/-- The captures that the names of the files give. -/
def savedCaptures (names : List Text) : List CaptFileInfo := names.filterMap initCaptFile

def otherFiles (names : List Text) : List Text :=
  names.filter fun name => !isDot name && (initCaptFile name).isNone

/-- Every capture has become a task once its name has been read, and nothing else is deleted than the
files that are none. -/
def Startup.Restores (s : Startup) (names : List Text) : Prop :=
  ∃ front, names = front ++ s.todo ∧ s.inserted = savedCaptures front ∧ s.unlinked ++ s.delFilenameList = otherFiles front

theorem initCaptFile_dot {name : Text} (dot : isDot name = true) : initCaptFile name = none := by
  rcases (Bool.or_eq_true _ _).mp dot with same | same
  all_goals
    rw [beq_iff_eq.mp same]
    decide

section Steps

variable {s after : Startup} {names : List Text}

theorem work_tmp {mgr next : FileMgr} {ok yuvOpened : Bool} (ran : mgr.step (.work ok yuvOpened) = some next) :
    next.mTmpCaptFileInfoVector.Sublist mgr.mTmpCaptFileInfoVector ∧ next.mMaxDisplayJpgNum = mgr.mMaxDisplayJpgNum := by
  obtain ⟨⟨after,actions⟩,worked,rfl⟩ := Option.map_eq_some_iff.mp ran
  cases FileMgr.work_acts worked with
  | take place runs last =>
    rw [last]
    exact ⟨List.sublist_append_left _ _,rfl⟩
  | _ => exact ⟨List.Sublist.refl _,rfl⟩

theorem savedCaptures_concat (front : List Text) (name : Text) :
    savedCaptures (front ++ [name]) = savedCaptures front ++ (initCaptFile name).toList := by
  rw [savedCaptures,List.filterMap_append]
  cases scanned : initCaptFile name <;> simp [savedCaptures,scanned]

theorem otherFiles_concat (front : List Text) (name : Text) :
    otherFiles (front ++ [name]) = otherFiles front ++ if !isDot name && (initCaptFile name).isNone then [name] else [] := by
  rw [otherFiles,List.filter_append,List.filter_singleton,Bool.cond_eq_ite]
  rfl

/-- What one entry of the directory can lead to. -/
theorem readEntry_cases (s : Startup) (name : Text) :
    initCaptFile name = none ∧
      s.readEntry name = {s with delFilenameList := s.delFilenameList ++ if isDot name then [] else [name]} ∨
    ∃ info, initCaptFile name = some info ∧
      (¬ s.mgr.Accepts info ∧ s.readEntry name = {s with delFilenameList := s.delFilenameList ++ [name]} ∨
        s.mgr.Accepts info ∧ s.readEntry name =
          { s with
            mgr := {s.mgr with
              mTmpCaptFileInfoVector := s.mgr.mTmpCaptFileInfoVector ++ [⟨s.inserted.length,info⟩]}
            posting := true
            inserted := s.inserted ++ [info] }) := by
  rw [Startup.readEntry]
  by_cases dot : isDot name = true
  · rw [if_pos dot,if_pos dot,List.append_nil]
    exact Or.inl ⟨initCaptFile_dot dot,rfl⟩
  · rw [if_neg dot,if_neg dot]
    cases scanned : initCaptFile name with
    | none => exact Or.inl ⟨rfl,rfl⟩
    | some info =>
      refine Or.inr ⟨info,rfl,?_⟩
      rcases FileMgr.insertCaptFileTask_eq s.mgr ⟨s.inserted.length,info⟩ with ⟨accepts,inserts⟩ | ⟨refuses,ret,bad,inserts⟩
      · simp only [inserts]
        exact Or.inr ⟨accepts,rfl⟩
      · exact Or.inl ⟨refuses,by simp only [inserts,if_pos bad]⟩

/-- No two of the captures are equal, and all of them can wait at once. -/
def Room (names : List Text) (mMaxDisplayJpgNum : Nat) : Prop :=
  (savedCaptures names).Pairwise (fun fileInfo cmp => fileInfo.isEqual cmp = false) ∧
    (savedCaptures names).length ≤ mMaxDisplayJpgNum*2+1

structure Startup.Kept (s : Startup) (names : List Text) (mMaxDisplayJpgNum : Nat) : Prop where
  max : s.mgr.mMaxDisplayJpgNum = mMaxDisplayJpgNum
  restores : s.Restores names
  waiting : (s.mgr.mTmpCaptFileInfoVector.map Task.fileInfo).Sublist s.inserted

variable {mMaxDisplayJpgNum : Nat}

/-- The worker can only have made more room. -/
theorem kept_accepts (kept : s.Kept names mMaxDisplayJpgNum) (room : Room names mMaxDisplayJpgNum) {name : Text}
    {todo : List Text} (next : s.todo = name :: todo) {info : CaptFileInfo} (scanned : initCaptFile name = some info) :
    s.mgr.Accepts info := by
  obtain ⟨front,split,inserted,_⟩ := kept.restores
  have whole : savedCaptures names = s.inserted ++ info :: savedCaptures todo := by
    rw [split,next,inserted,savedCaptures,List.filterMap_append,List.filterMap_cons_some scanned]
    rfl
  obtain ⟨apart,few⟩ := room
  rw [whole] at apart few
  constructor
  · have waiting := kept.waiting.length_le
    rw [List.length_map] at waiting
    rw [List.length_append,List.length_cons] at few
    rw [FileMgr.mMaxTmpJpgNum,kept.max]
    omega
  · intro tmp among
    have before := kept.waiting.subset (List.mem_map_of_mem among)
    exact (List.pairwise_append.mp apart).2.2 _ before info List.mem_cons_self

theorem kept_next (room : Room names mMaxDisplayJpgNum) {event : StartupEvent} (kept : s.Kept names mMaxDisplayJpgNum)
    (ran : s.step event = some after) : after.Kept names mMaxDisplayJpgNum := by
  obtain ⟨front,split,inserted,others⟩ := kept.restores
  cases event with
  | readdir =>
    cases next : s.todo with
    | nil => simp [Startup.step,next] at ran
    | cons name todo =>
      simp only [Startup.step,next] at ran
      split_ifs at ran
      obtain rfl := Option.some.inj ran
      have split' : names = (front ++ [name]) ++ todo := by rw [split,next,List.append_cons]
      rcases readEntry_cases s name with ⟨scanned,read⟩ | ⟨info,scanned,⟨refuses,_⟩ | ⟨_,read⟩⟩
      · rw [read]
        refine ⟨kept.max,⟨front ++ [name],split',?_,?_⟩,kept.waiting⟩
        · rw [savedCaptures_concat,scanned,Option.toList_none,List.append_nil]
          exact inserted
        · rw [otherFiles_concat,← others,scanned]
          cases isDot name <;> simp
      · exact absurd (kept_accepts kept room next scanned) refuses
      · rw [read]
        refine ⟨kept.max,⟨front ++ [name],split',?_,?_⟩,?_⟩
        · rw [savedCaptures_concat,scanned,← inserted]
          rfl
        · rw [otherFiles_concat,scanned]
          simpa using others
        · rw [List.map_append]
          exact kept.waiting.append (List.Sublist.refl _)
  | notify =>
    simp only [Startup.step] at ran
    split_ifs at ran
    obtain rfl := Option.some.inj ran
    exact ⟨kept.max,⟨front,split,inserted,others⟩,kept.waiting⟩
  | unlink =>
    simp only [Startup.step] at ran
    split_ifs at ran
    cases first : s.delFilenameList with
    | nil => simp [first] at ran
    | cons curFilename delFilenameList =>
      rw [first] at ran others
      obtain rfl := Option.some.inj ran
      refine ⟨kept.max,⟨front,split,inserted,?_⟩,kept.waiting⟩
      rw [← others]
      exact List.append_cons .. |>.symm
  | work ok yuvOpened =>
    obtain ⟨mgr,worked,rfl⟩ := Option.map_eq_some_iff.mp ran
    obtain ⟨fewer,same⟩ := work_tmp worked
    exact ⟨same.trans kept.max,⟨front,split,inserted,others⟩,(fewer.map Task.fileInfo).trans kept.waiting⟩

/-- While the worker has not taken any of the captures yet. -/
structure Startup.Unserved (s : Startup) (front todo : List Text) (mMaxDisplayJpgNum : Nat) : Prop where
  max : s.mgr.mMaxDisplayJpgNum = mMaxDisplayJpgNum
  todo : s.todo = todo
  posting : s.posting = false
  inserted : s.inserted = savedCaptures front
  waiting : s.mgr.mTmpCaptFileInfoVector.map Task.fileInfo = savedCaptures front

theorem room_nil : Room [] mMaxDisplayJpgNum := ⟨List.Pairwise.nil,Nat.zero_le _⟩

theorem room_concat {front todo : List Text} (unserved : s.Unserved front todo mMaxDisplayJpgNum)
    (room : Room front mMaxDisplayJpgNum) {name : Text} {info : CaptFileInfo}
    (scanned : initCaptFile name = some info) (accepts : s.mgr.Accepts info) :
    Room (front ++ [name]) mMaxDisplayJpgNum := by
  obtain ⟨few,apart⟩ := accepts
  rw [FileMgr.mMaxTmpJpgNum,unserved.max,← List.length_map Task.fileInfo,unserved.waiting] at few
  rw [Room,savedCaptures_concat,scanned,Option.toList_some]
  constructor
  · refine List.pairwise_append.mpr ⟨room.1,List.pairwise_singleton _ _,?_⟩
    intro before among cmp same
    rw [← unserved.waiting] at among
    obtain ⟨tmp,waits,rfl⟩ := List.mem_map.mp among
    rw [List.mem_singleton.mp same]
    exact apart tmp waits
  · rw [List.length_append,List.length_singleton]
    omega

theorem startup_next {event : StartupEvent} (run : startup.Run anyEvent after s) {next : Startup}
    (moves : s.step event = some next) : startup.Run anyEvent after next := by
  refine run_event event run ?_ ?_
  · exact Option.isSome_of_eq_some moves
  · change (s.step event).getD s = next
    rw [moves,Option.getD_some]

theorem step_notify (posting : s.posting = true) :
    s.step .notify = some {s with mgr := s.mgr.notifyCaptFileTask, posting := false} := if_pos posting

/-- With the worker never running, an entry that is refused is a capture that is lost. -/
theorem unserved_next {front todo : List Text} {name : Text} {start : Startup} (run : startup.Run anyEvent start s)
    (lossless : ∀ {s}, startup.Run anyEvent start s → s.Restores (front ++ name :: todo))
    (unserved : s.Unserved front (name :: todo) mMaxDisplayJpgNum) (room : Room front mMaxDisplayJpgNum) :
    (∃ after, startup.Run anyEvent start after ∧ after.Unserved (front ++ [name]) todo mMaxDisplayJpgNum) ∧
      Room (front ++ [name]) mMaxDisplayJpgNum := by
  have reads : s.step .readdir = some {s.readEntry name with todo} := by
    simp [Startup.step,unserved.todo,unserved.posting]
  have read := startup_next run reads
  rcases readEntry_cases s name with ⟨scanned,entry⟩ | ⟨info,scanned,⟨_,entry⟩ | ⟨accepts,entry⟩⟩
  · have same : savedCaptures (front ++ [name]) = savedCaptures front := by
      rw [savedCaptures_concat,scanned,Option.toList_none,List.append_nil]
    rw [entry] at read
    constructor
    · exact ⟨_,read,unserved.max,rfl,unserved.posting,unserved.inserted.trans same.symm,unserved.waiting.trans same.symm⟩
    · rwa [Room,same]
  · obtain ⟨front',split,inserted,_⟩ := lossless read
    rw [entry] at split inserted
    rw [List.append_cons] at split
    obtain rfl := List.append_cancel_right split
    rw [savedCaptures_concat,scanned,unserved.inserted] at inserted
    exact absurd (congrArg List.length inserted) (by simp)
  · have more : savedCaptures (front ++ [name]) = savedCaptures front ++ [info] := by
      rw [savedCaptures_concat,scanned,Option.toList_some]
    rw [entry] at read
    constructor
    · refine ⟨_,startup_next read (step_notify rfl),unserved.max,rfl,rfl,?_,?_⟩
      · rw [more,← unserved.inserted]
      · rw [more,← unserved.waiting]
        exact List.map_append
    · exact room_concat unserved room scanned accepts

theorem unserved_run {mpFaceOper : Bool}
    (lossless : ∀ {s}, startup.Run anyEvent (initCaptFiles names mMaxDisplayJpgNum mpFaceOper) s → s.Restores names)
    (front : List Text) : ∀ todo, names = front ++ todo →
      (∃ s, startup.Run anyEvent (initCaptFiles names mMaxDisplayJpgNum mpFaceOper) s ∧
        s.Unserved front todo mMaxDisplayJpgNum) ∧ Room front mMaxDisplayJpgNum := by
  induction front using List.reverseRecOn with
  | nil =>
    rintro todo rfl
    exact ⟨⟨_,.start,rfl,rfl,rfl,rfl,rfl⟩,room_nil⟩
  | append_singleton front name ih =>
    intro todo split
    rw [← List.append_cons] at split
    obtain ⟨⟨s,run,unserved⟩,room⟩ := ih (name :: todo) split
    subst split
    exact unserved_next run lossless unserved room

end Steps

/-- However the worker interleaves with it, the scan takes every capture of an earlier run in and has
no file but the others deleted: exactly when the captures fit in at once and no two of them are equal. -/
theorem initCaptFiles_restores_iff (names : List Text) (mMaxDisplayJpgNum : Nat) (mpFaceOper : Bool) :
    (∀ s, startup.Run anyEvent (initCaptFiles names mMaxDisplayJpgNum mpFaceOper) s → s.Restores names) ↔
      Room names mMaxDisplayJpgNum := by
  constructor
  · intro lossless
    exact (unserved_run (lossless _) names [] (List.append_nil _).symm).2
  · intro room s run
    have start : (initCaptFiles names mMaxDisplayJpgNum mpFaceOper).Kept names mMaxDisplayJpgNum :=
      ⟨rfl,⟨[],rfl,rfl,rfl⟩,List.Sublist.refl _⟩
    refine (run_invariant (I := (Startup.Kept · names mMaxDisplayJpgNum)) start ?_ run).restores
    intro state event kept enabled _
    obtain ⟨after,ran⟩ := Option.isSome_iff_exists.mp enabled
    change ((state.step event).getD state).Kept names mMaxDisplayJpgNum
    rw [ran]
    exact kept_next room kept ran

end MoCodes.MoFaceRec
