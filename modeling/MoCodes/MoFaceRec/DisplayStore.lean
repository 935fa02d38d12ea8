import MoCodes.MoFaceRec.Steps

/-! The jpg files of the captures that are displayed. They are left alone as long as no capture is
inserted with the file name of another one that is still around. -/
namespace MoCodes.MoFaceRec
open MoCloud
open Lib.Transition

/-- What `captureHdl` still has to write. -/
def Capture.writes : Capture → Option CaptFileInfo
  | .inserted fileInfo => some fileInfo
  | .writing fileInfo => some fileInfo
  | _ => none

/-- The task that is displayed if nothing fails any more, and what is unlinked before. -/
def Worker.keeps : Worker → Option (Task × List Text)
  | .converting task => some (task,[getYuvFilename task.fileInfo])
  | .converted task => some (task,[getYuvFilename task.fileInfo])
  | .yuvSet task => some (task,[getYuvFilename task.fileInfo])
  | .unlinking task filenames true => some (task,filenames)
  | _ => none

/-- The files that the worker may open or unlink before it is done with its task. -/
def Worker.touches : Worker → List Text
  | .converting task => [getCaptFilename task.fileInfo,getYuvFilename task.fileInfo]
  | .converted task => [getCaptFilename task.fileInfo,getYuvFilename task.fileInfo]
  | .yuvSet task => [getCaptFilename task.fileInfo,getYuvFilename task.fileInfo]
  | .unlinking _ filenames _ => filenames
  | _ => []

theorem Worker.keeps_none {worker : Worker} (free : worker.task = none) : worker.keeps = none := by
  cases worker <;> first | rfl | cases free

theorem Worker.touches_none {worker : Worker} (free : worker.task = none) : worker.touches = [] := by
  cases worker <;> first | rfl | cases free

theorem Worker.keeps_unlinked {task kept : Task} {filename : Text} {filenames left : List Text} {found : Bool}
    (keeps : (Worker.unlinking task filenames found).keeps = some (kept,left)) :
    (Worker.unlinking task (filename :: filenames) found).keeps = some (kept,filename :: left) := by
  cases found with
  | false => cases keeps
  | true =>
    obtain ⟨rfl,rfl⟩ := Prod.mk.inj (Option.some.inj keeps)
    rfl

/-- No file goes. -/
def Files.Grow (files later : Files) : Prop := ∀ filename, (files filename).isSome → (later filename).isSome

theorem Files.Grow.refl (files : Files) : files.Grow files := fun _ => id

theorem Files.grow_fopen (files : Files) (request : Nat) (opened : Text) :
    files.Grow ([Action.fopen request opened].foldl Files.after files) := by
  intro filename there
  change (Function.update files opened (some request) filename).isSome
  rw [Function.update_apply]
  split
  · rfl
  · exact there

theorem Files.unlink_isSome {files : Files} {request : Nat} {gone filename : Text} (apart : filename ≠ gone)
    (there : (files filename).isSome) :
    ([Action.unlink request gone].foldl Files.after files filename).isSome := by
  change (Function.update files gone none filename).isSome
  rwa [Function.update_of_ne apart]

namespace FileMgr

/-- The tasks of the two vectors and of the worker. -/
def held (mgr : FileMgr) : List Task :=
  mgr.mTmpCaptFileInfoVector ++ mgr.worker.task.toList ++ mgr.mDisplayCaptFileInfoVector

/-- A capture is waiting, processed or displayed, or its file is being written. -/
def Live (mgr : FileMgr) (task : Task) : Prop :=
  task ∈ mgr.held ∨ ∃ capture ∈ mgr.captures task.request, capture.writes = some task.fileInfo

/-- Live captures do not share a file, the files of the display are there, and no step does anything
to one of them for another capture. -/
structure Unshared (mgr : FileMgr) : Prop where
  apart : ∀ task other, mgr.Live task → mgr.Live other → task.request ≠ other.request →
    getCaptFilename task.fileInfo ≠ getCaptFilename other.fileInfo
  shown : ∀ entry ∈ mgr.mDisplayCaptFileInfoVector, (mgr.files (getCaptFilename entry.fileInfo)).isSome
  spared : ∀ event after actions, mgr.act event = some (after,actions) →
    ∀ entry ∈ mgr.mDisplayCaptFileInfoVector, entry ∈ after.mDisplayCaptFileInfoVector →
      ∀ action ∈ actions, action.filename = getCaptFilename entry.fileInfo → action.request = entry.request

/-- A capture that is taken in has a file name of its own among those that are live. -/
def ownFile (mgr : FileMgr) : Event → Prop
  | .insert _ fileInfo => mgr.Accepts fileInfo →
    ∀ task, mgr.Live task → getCaptFilename task.fileInfo ≠ getCaptFilename fileInfo
  | _ => True

/-- What the file names rest on. -/
structure Named (mgr : FileMgr) : Prop where
  known : ∀ task, mgr.Live task → mgr.captures task.request ≠ none
  once : (mgr.held.map Task.request).Nodup
  apart : ∀ task other, mgr.Live task → mgr.Live other → task.request ≠ other.request →
    getCaptFilename task.fileInfo ≠ getCaptFilename other.fileInfo

/-- What the files of the display rest on. -/
structure Shown (mgr : FileMgr) : Prop where
  shown : ∀ entry ∈ mgr.mDisplayCaptFileInfoVector, (mgr.files (getCaptFilename entry.fileInfo)).isSome
  keeps : ∀ task filenames, mgr.worker.keeps = some (task,filenames) →
    (mgr.files (getCaptFilename task.fileInfo)).isSome ∧ getCaptFilename task.fileInfo ∉ filenames
  clear : ∀ entry ∈ mgr.mDisplayCaptFileInfoVector, getCaptFilename entry.fileInfo ∉ mgr.worker.touches

/-- No capture has come to live from one state to the other. -/
structure Less (mgr after : FileMgr) : Prop where
  held : after.held.Subperm mgr.held
  writes : ∀ request fileInfo, (∃ capture ∈ after.captures request, capture.writes = some fileInfo) →
    ∃ capture ∈ mgr.captures request, capture.writes = some fileInfo
  known : ∀ request, mgr.captures request ≠ none → after.captures request ≠ none

variable {mgr after : FileMgr} {event : Event} {actions : List Action}

theorem Less.live (less : mgr.Less after) {task : Task} (live : after.Live task) : mgr.Live task := by
  rcases live with held | writes
  · exact Or.inl (less.held.subset held)
  · exact Or.inr (less.writes _ _ writes)

theorem Less.once (less : mgr.Less after) (once : (mgr.held.map Task.request).Nodup) :
    (after.held.map Task.request).Nodup := by
  obtain ⟨part,same,within⟩ := less.held
  rw [← (same.map Task.request).nodup_iff]
  exact once.sublist (within.map Task.request)

theorem Named.less (named : mgr.Named) (less : mgr.Less after) : after.Named where
  known task live := less.known _ (named.known task (less.live live))
  once := less.once named.once
  apart task other live live' := named.apart task other (less.live live) (less.live live')

theorem Less.of_captures (captures : after.captures = mgr.captures) (held : after.held.Subperm mgr.held) :
    mgr.Less after where
  held := held
  writes _ _ writes := captures ▸ writes
  known _ known := captures ▸ known

theorem Less.of_setCapture {request : Nat} {capture : Capture} (held : after.held.Subperm mgr.held)
    (captures : after.captures = Function.update mgr.captures request (some capture))
    (fewer : capture.writes = none ∨ ∃ before ∈ mgr.captures request, before.writes = capture.writes) :
    mgr.Less after where
  held := held
  writes other fileInfo writes := by
    rw [captures,Function.update_apply] at writes
    split at writes
    · rename_i same
      obtain ⟨_,placed,writes⟩ := writes
      obtain rfl := Option.mem_some_iff.mp placed
      rcases fewer with none | ⟨before,place,equal⟩
      · rw [none] at writes
        cases writes
      · exact ⟨before,same ▸ place,equal.trans writes⟩
    · exact writes
  known other known := by
    rw [captures,Function.update_apply]
    split
    · exact Option.some_ne_none _
    · exact known

/-- Only a capture that is taken in comes to live. -/
theorem acts_less (acts : mgr.Acts event after actions) :
    mgr.Less after ∨ ∃ request fileInfo, event = .insert request fileInfo ∧
      mgr.captures request = none ∧ mgr.Accepts fileInfo ∧
      after = mgr.taken request fileInfo := by
  have plain : ∀ {request : Nat} {capture : Capture}, (capture.writes = none ∨
      ∃ before ∈ mgr.captures request, before.writes = capture.writes) →
      mgr.Less (mgr.setCapture request capture) :=
    fun fewer => .of_setCapture (List.Subperm.refl _) rfl fewer
  have moved : ∀ {worker : Worker}, worker.task = mgr.worker.task → mgr.Less (mgr.setWorker worker) := by
    intro worker task
    refine .of_captures rfl ?_
    rw [held,held,setWorker,task]
  have freed : ∀ {worker : Worker} {shown : List Task}, worker.task = none →
      shown.Subperm (mgr.worker.task.toList ++ mgr.mDisplayCaptFileInfoVector) →
      mgr.Less {mgr with mDisplayCaptFileInfoVector := shown, worker} := by
    intro worker shown task fewer
    refine .of_captures rfl ?_
    rw [held,held,task,Option.toList_none,List.append_nil,List.append_assoc]
    exact (List.subperm_append_left _).mpr fewer
  cases acts with
  | refuse fresh => exact Or.inl (plain (Or.inl rfl))
  | insert fresh accepts => exact Or.inr ⟨_,_,rfl,fresh,accepts,rfl⟩
  | openFile place => exact Or.inl (plain (Or.inr ⟨_,place,rfl⟩))
  | openFails place => exact Or.inl (plain (Or.inl rfl))
  | writeFile place => exact Or.inl (plain (Or.inl rfl))
  | delTask place =>
    refine Or.inl (.of_setCapture ?_ rfl (Or.inl rfl))
    exact (List.subperm_append_right _).mpr ((List.subperm_append_right _).mpr List.eraseP_sublist.subperm)
  | notify place => exact Or.inl (.of_setCapture (List.Subperm.refl _) rfl (Or.inl rfl))
  | stop => exact Or.inl (.of_captures rfl (List.Subperm.refl _))
  | idle mSemaphore before free =>
    refine Or.inl (.of_captures rfl ?_)
    rw [held,held,before,free]
  | take place _ last =>
    refine Or.inl (.of_captures rfl ?_)
    rw [held,held,place,last]
    simp [Worker.task,List.Subperm.refl]
  | drop place =>
    refine Or.inl (freed rfl ?_)
    exact (List.sublist_append_right _ _).subperm
  | noAccess place | access place | convert place | convertFails place | setYuvFile place | face place
  | unlink place =>
    exact Or.inl (moved (by rw [place]; rfl))
  | noFace place => exact Or.inl (moved (by rcases place with place | place <;> rw [place] <;> rfl))
  | display place =>
    refine Or.inl (freed rfl ?_)
    rw [place]
    exact List.perm_append_comm.subperm
  | evict place shown =>
    refine Or.inl (freed rfl ?_)
    rw [place]
    exact List.perm_append_comm.subperm.trans
      ((List.subperm_append_left _).mpr (List.erase_subperm _ _))

section Insert

variable {request : Nat} {fileInfo : CaptFileInfo}

theorem taken_held : (mgr.taken request fileInfo).held.Perm (⟨request,fileInfo⟩ :: mgr.held) := by
  simp only [held,taken,List.append_assoc,List.singleton_append]
  exact List.perm_middle

theorem taken_live {task : Task} (live : (mgr.taken request fileInfo).Live task) :
    task = ⟨request,fileInfo⟩ ∨ mgr.Live task := by
  rcases live with held | ⟨capture,place,writes⟩
  · rcases List.mem_cons.mp (taken_held.mem_iff.mp held) with new | held
    · exact Or.inl new
    · exact Or.inr (Or.inl held)
  · simp only [taken,Function.update_apply] at place
    split at place
    · rename_i same
      obtain rfl := Option.mem_some_iff.mp place
      obtain rfl : fileInfo = task.fileInfo := Option.some.inj writes
      exact Or.inl (congrArg (Task.mk · task.fileInfo) same)
    · exact Or.inr (Or.inr ⟨capture,place,writes⟩)

theorem taken_captures {other : Nat} (apart : other ≠ request) :
    (mgr.taken request fileInfo).captures other = mgr.captures other := Function.update_of_ne apart _ _

theorem taken_lives : (mgr.taken request fileInfo).Live ⟨request,fileInfo⟩ :=
  Or.inl (taken_held.mem_iff.mpr List.mem_cons_self)

theorem live_taken (named : mgr.Named) (fresh : mgr.captures request = none) {task : Task} (live : mgr.Live task) :
    (mgr.taken request fileInfo).Live task ∧ task.request ≠ request := by
  have apart : task.request ≠ request := fun same => named.known task live (same ▸ fresh)
  refine ⟨?_,apart⟩
  rcases live with held | ⟨capture,place,writes⟩
  · exact Or.inl (taken_held.mem_iff.mpr (List.mem_cons_of_mem _ held))
  · refine Or.inr ⟨capture,?_,writes⟩
    rw [taken_captures apart]
    exact place

/-- What holds between any two live captures goes on to hold if it does with the new one. -/
theorem taken_apart {R : CaptFileInfo → CaptFileInfo → Prop}
    (apart : ∀ task other, mgr.Live task → mgr.Live other → task.request ≠ other.request →
      R task.fileInfo other.fileInfo)
    (own : ∀ task, mgr.Live task → R task.fileInfo fileInfo ∧ R fileInfo task.fileInfo)
    {task other : Task} (live : (mgr.taken request fileInfo).Live task)
    (live' : (mgr.taken request fileInfo).Live other) (differ : task.request ≠ other.request) :
    R task.fileInfo other.fileInfo := by
  rcases taken_live live with rfl | before <;> rcases taken_live live' with rfl | before'
  · exact absurd rfl differ
  · exact (own other before').2
  · exact (own task before).1
  · exact apart task other before before' differ

theorem Named.insert (named : mgr.Named) (fresh : mgr.captures request = none)
    (own : ∀ task, mgr.Live task → getCaptFilename task.fileInfo ≠ getCaptFilename fileInfo) :
    (mgr.taken request fileInfo).Named where
  known task live := by
    rcases taken_live live with rfl | before
    · simp [taken]
    · have apart : task.request ≠ request := fun same => named.known task before (same ▸ fresh)
      rw [taken_captures apart]
      exact named.known task before
  once := by
    rw [(taken_held.map Task.request).nodup_iff,List.map_cons,List.nodup_cons]
    refine ⟨fun among => ?_,named.once⟩
    obtain ⟨task,held,same⟩ := List.mem_map.mp among
    exact named.known task (Or.inl held) (same ▸ fresh)
  apart _ _ := taken_apart (R := fun first second => getCaptFilename first ≠ getCaptFilename second) named.apart
    fun task live => ⟨own task live,(own task live).symm⟩

end Insert

section Display

theorem Named.entry_apart (named : mgr.Named) {entry task : Task}
    (shown : entry ∈ mgr.mDisplayCaptFileInfoVector) (working : mgr.worker.task = some task) :
    entry.request ≠ task.request ∧ getCaptFilename entry.fileInfo ≠ getCaptFilename task.fileInfo := by
  have held : task ∈ mgr.mTmpCaptFileInfoVector ++ mgr.worker.task.toList :=
    List.mem_append_right _ (by simp [working])
  have once := named.once
  rw [FileMgr.held,List.map_append,List.nodup_append] at once
  have differ : entry.request ≠ task.request :=
    (once.2.2 _ (List.mem_map_of_mem held) _ (List.mem_map_of_mem shown)).symm
  exact ⟨differ,named.apart entry task (Or.inl (List.mem_append_right _ shown))
    (Or.inl (List.mem_append_left _ held)) differ⟩

theorem Named.entries_apart (named : mgr.Named) {entry other : Task}
    (shown : entry ∈ mgr.mDisplayCaptFileInfoVector)
    (remains : other ∈ mgr.mDisplayCaptFileInfoVector.erase entry) :
    getCaptFilename other.fileInfo ≠ getCaptFilename entry.fileInfo := by
  have once := named.once
  rw [FileMgr.held,List.map_append,List.nodup_append] at once
  have all : mgr.mDisplayCaptFileInfoVector.Nodup := once.2.1.of_map
  obtain ⟨differ,shown'⟩ := all.mem_erase_iff.mp remains
  refine named.apart other entry (Or.inl (List.mem_append_right _ shown'))
    (Or.inl (List.mem_append_right _ shown)) fun same => ?_
  exact differ (List.inj_on_of_nodup_map once.2.1 shown' shown same)

theorem Shown.of_files {next : FileMgr} {files : Files}
    (shown : ∀ entry ∈ next.mDisplayCaptFileInfoVector, (files (getCaptFilename entry.fileInfo)).isSome)
    (keeps : ∀ task filenames, next.worker.keeps = some (task,filenames) →
      (files (getCaptFilename task.fileInfo)).isSome ∧ getCaptFilename task.fileInfo ∉ filenames)
    (clear : ∀ entry ∈ next.mDisplayCaptFileInfoVector, getCaptFilename entry.fileInfo ∉ next.worker.touches) :
    (next.setFiles files).Shown := ⟨shown,keeps,clear⟩

/-- Files may come, and the worker may have less left to do. -/
theorem Shown.of_less {next : FileMgr} {files : Files} (before : mgr.Shown)
    (display : next.mDisplayCaptFileInfoVector = mgr.mDisplayCaptFileInfoVector)
    (grow : mgr.files.Grow files) (keeps : next.worker.keeps = none ∨ next.worker.keeps = mgr.worker.keeps)
    (touches : next.worker.touches ⊆ mgr.worker.touches) : (next.setFiles files).Shown where
  shown entry among := grow _ (before.shown entry (display ▸ among))
  keeps task filenames kept := by
    change next.worker.keeps = _ at kept
    rcases keeps with none | same
    · rw [none] at kept
      cases kept
    · obtain ⟨there,apart⟩ := before.keeps task filenames (same ▸ kept)
      exact ⟨grow _ there,apart⟩
  clear entry among touched := before.clear entry (display ▸ among) (touches touched)

theorem Shown.acts (named : mgr.Named) (before : mgr.Shown) (acts : mgr.Acts event after actions) :
    (after.setFiles (actions.foldl Files.after mgr.files)).Shown := by
  cases acts with
  | refuse | insert | openFails | writeFile | delTask | notify | stop =>
    exact before.of_less rfl (.refl _) (Or.inr rfl) (List.Subset.refl _)
  | openFile => exact before.of_less rfl (Files.grow_fopen _ _ _) (Or.inr rfl) (List.Subset.refl _)
  | idle _ _ free =>
    refine before.of_less rfl (.refl _) (Or.inl (Worker.keeps_none free)) ?_
    dsimp only
    rw [Worker.touches_none free]
    exact List.nil_subset _
  | take | drop => exact before.of_less rfl (.refl _) (Or.inl rfl) (List.nil_subset _)
  | noAccess place =>
    refine ⟨before.shown,fun _ _ kept => (by cases kept),fun entry shown touched => ?_⟩
    exact (named.entry_apart shown (by rw [place]; rfl)).2 (List.mem_singleton.mp touched)
  | access place jpg yuv =>
    refine ⟨before.shown,fun _ _ kept => ?_,fun entry shown touched => ?_⟩
    · obtain ⟨rfl,rfl⟩ := Prod.mk.inj (Option.some.inj kept)
      refine ⟨jpg,fun same => ?_⟩
      rw [List.mem_singleton.mp same,yuv] at jpg
      cases jpg
    · have there := before.shown entry shown
      rcases List.mem_cons.mp touched with same | same
      · exact (named.entry_apart shown (by rw [place]; rfl)).2 same
      · rw [List.mem_singleton.mp same,yuv] at there
        cases there
  | convert place =>
    refine before.of_less rfl (Files.grow_fopen _ _ _) (Or.inr ?_) ?_
    · rw [place]
      rfl
    · rw [place]
      exact List.Subset.refl _
  | convertFails place most =>
    refine before.of_less rfl ?_ (Or.inl rfl) ?_
    · rcases most with rfl | rfl
      · exact .refl _
      · exact Files.grow_fopen _ _ _
    · rw [place]
      exact List.cons_subset_cons _ (List.nil_subset _)
  | setYuvFile place =>
    refine before.of_less rfl (.refl _) (Or.inr ?_) ?_
    · rw [place]
      rfl
    · rw [place]
      exact List.Subset.refl _
  | noFace place =>
    refine before.of_less rfl (.refl _) (Or.inl rfl) ?_
    rcases place with place | place <;> rw [place] <;> exact List.Subset.refl _
  | face place =>
    refine before.of_less rfl (.refl _) (Or.inr ?_) ?_
    · rw [place]
      rfl
    · rw [place]
      exact List.subset_cons_self _ _
  | unlink place =>
    have clear := before.clear
    have keeps := before.keeps
    rw [place] at clear keeps
    refine .of_files (fun entry shown => ?_) (fun task filenames kept => ?_) (fun entry shown touched => ?_)
    · have apart : getCaptFilename entry.fileInfo ≠ _ := fun same => clear entry shown (same ▸ List.mem_cons_self)
      exact Files.unlink_isSome apart (before.shown entry shown)
    · obtain ⟨there,apart⟩ := keeps task (_ :: filenames) (Worker.keeps_unlinked kept)
      obtain ⟨other,later⟩ := not_or.mp (mt List.mem_cons.mpr apart)
      exact ⟨Files.unlink_isSome other there,later⟩
    · exact clear entry shown (List.mem_cons_of_mem _ touched)
  | display place =>
    have there := (before.keeps _ _ (by rw [place]; rfl)).1
    refine .of_files (fun entry shown => ?_) (fun _ _ kept => (by cases kept)) fun _ _ touched => (by cases touched)
    rcases List.mem_append.mp shown with old | new
    · exact before.shown entry old
    · obtain rfl := List.mem_singleton.mp new
      exact there
  | evict place among =>
    have there := (before.keeps _ _ (by rw [place]; rfl)).1
    refine .of_files (fun entry shown => ?_) (fun _ _ kept => (by cases kept)) fun _ _ touched => (by cases touched)
    rcases List.mem_append.mp shown with old | new
    · exact Files.unlink_isSome (named.entries_apart among old) (before.shown entry (List.mem_of_mem_erase old))
    · obtain rfl := List.mem_singleton.mp new
      exact Files.unlink_isSome (named.entry_apart among (by rw [place]; rfl)).2.symm there

theorem writes_apart (named : mgr.Named) {request : Nat} {capture : Capture} {fileInfo : CaptFileInfo} {entry : Task}
    (place : mgr.captures request = some capture) (writes : capture.writes = some fileInfo)
    (shown : entry ∈ mgr.mDisplayCaptFileInfoVector)
    (same : getCaptFilename fileInfo = getCaptFilename entry.fileInfo) : request = entry.request := by
  by_contra differ
  have live : mgr.Live ⟨request,fileInfo⟩ := Or.inr ⟨capture,place,writes⟩
  exact named.apart _ entry live (Or.inl (List.mem_append_right _ shown)) differ same

/-- What a step does to the file of an entry that stays, it does for the entry. -/
theorem acts_spared (named : mgr.Named) (before : mgr.Shown) (acts : mgr.Acts event after actions)
    {entry : Task} (shown : entry ∈ mgr.mDisplayCaptFileInfoVector)
    (stays : entry ∈ after.mDisplayCaptFileInfoVector) {action : Action} (among : action ∈ actions)
    (same : action.filename = getCaptFilename entry.fileInfo) : action.request = entry.request := by
  have clear := before.clear entry shown
  cases acts with
  | openFile place =>
    obtain rfl := List.mem_singleton.mp among
    exact writes_apart named place rfl shown same
  | writeFile place =>
    obtain rfl := List.mem_singleton.mp among
    exact writes_apart named place rfl shown same
  | convert place =>
    obtain rfl := List.mem_singleton.mp among
    rw [place,← same] at clear
    exact absurd (List.mem_cons_of_mem _ List.mem_cons_self) clear
  | convertFails place most =>
    rcases most with rfl | rfl
    · cases among
    · obtain rfl := List.mem_singleton.mp among
      rw [place,← same] at clear
      exact absurd (List.mem_cons_of_mem _ List.mem_cons_self) clear
  | unlink place =>
    obtain rfl := List.mem_singleton.mp among
    rw [place,← same] at clear
    exact absurd List.mem_cons_self clear
  | evict place evicted =>
    obtain rfl := List.mem_singleton.mp among
    rcases List.mem_append.mp stays with old | new
    · exact absurd same.symm (named.entries_apart evicted old)
    · obtain rfl := List.mem_singleton.mp new
      exact absurd rfl (named.entry_apart shown (by rw [place]; rfl)).1
  | _ => cases among

theorem unshared (named : mgr.Named) (before : mgr.Shown) : mgr.Unshared where
  apart := named.apart
  shown := before.shown
  spared _ _ _ did _ shown stays _ among same := acts_spared named before (act_acts did) shown stays among same

end Display

theorem kept_next (kept : mgr.Named ∧ mgr.Shown) (enabled : faceRec.Enabled mgr event) (own : mgr.ownFile event) :
    (faceRec.next mgr event).Named ∧ (faceRec.next mgr event).Shown := by
  obtain ⟨named,before⟩ := kept
  obtain ⟨after,actions,_,acts,made⟩ := step_acts enabled
  rw [made]
  refine ⟨?_,before.acts named acts⟩
  rcases acts_less acts with less | ⟨request,fileInfo,rfl,fresh,accepts,rfl⟩
  · exact ⟨(named.less less).known,(named.less less).once,(named.less less).apart⟩
  · have insert := named.insert fresh (own accepts)
    exact ⟨insert.known,insert.once,insert.apart⟩

/-- A capture that is taken in and shares the file of a live one is live after that. -/
theorem own_of_apart (kept : mgr.Named ∧ mgr.Shown) (enabled : faceRec.Enabled mgr event)
    (unshared : (faceRec.next mgr event).Unshared) : mgr.ownFile event := by
  obtain ⟨after,actions,_,acts,made⟩ := step_acts enabled
  have apart := unshared.apart
  rw [made] at apart
  cases acts with
  | insert fresh accepts =>
    intro _ task live
    obtain ⟨lives,differ⟩ := live_taken kept.1 fresh live
    exact apart task ⟨_,_⟩ lives taken_lives differ
  | refuse _ refuses => exact fun accepts => absurd accepts refuses
  | _ => trivial

theorem started_kept (mMaxDisplayJpgNum : Nat) (mpFaceOper : Bool) :
    (started mMaxDisplayJpgNum mpFaceOper).Named ∧ (started mMaxDisplayJpgNum mpFaceOper).Shown := by
  have none : ∀ task, ¬ (started mMaxDisplayJpgNum mpFaceOper).Live task := by
    rintro task (held | ⟨_,place,_⟩)
    · cases held
    · cases place
  exact ⟨⟨fun task live => absurd live (none task),List.nodup_nil,fun task _ live => absurd live (none task)⟩,
    ⟨fun _ among => (by cases among),fun _ _ kept => (by cases kept),fun _ among => (by cases among)⟩⟩

end FileMgr

/-- A capture of another second, size or address than all that are live has its own file. -/
theorem FileMgr.ownFile_of_differ {mgr : FileMgr} {request : Nat} {fileInfo : CaptFileInfo}
    (differ : ∀ task, mgr.Live task → task.fileInfo.mTimestamp ≠ fileInfo.mTimestamp ∨
      task.fileInfo.mWidth ≠ fileInfo.mWidth ∨ task.fileInfo.mHeight ≠ fileInfo.mHeight ∨
      task.fileInfo.mCameraIp ≠ fileInfo.mCameraIp) : mgr.ownFile (.insert request fileInfo) := by
  intro _ task live same
  obtain ⟨times,widths,heights,addresses⟩ := formatFilename_inj same
  rcases differ task live with apart | apart | apart | apart
  · exact apart times
  · exact apart widths
  · exact apart heights
  · exact apart addresses

/-- The files of the display stay untouched, and no two live captures share one, all along a run if
and only if each capture that is taken in has a file name of its own. -/
theorem display_unshared_iff (mMaxDisplayJpgNum : Nat) (mpFaceOper : Bool) {events : List Event}
    (follows : faceRec.Follows anyEvent (started mMaxDisplayJpgNum mpFaceOper) events) :
    (∀ front, front <+: events → (front.foldl faceRec.next (started mMaxDisplayJpgNum mpFaceOper)).Unshared) ↔
      faceRec.Follows FileMgr.ownFile (started mMaxDisplayJpgNum mpFaceOper) events :=
  follows_iff_kept (I := fun mgr => mgr.Named ∧ mgr.Shown) FileMgr.kept_next FileMgr.own_of_apart
    (fun kept => FileMgr.unshared kept.1 kept.2) (FileMgr.started_kept _ _) follows

def doorCapture : CaptFileInfo := ⟨640,480,1500000000,16777343,text "door"⟩

/-- `captureHdl` with nothing failing. -/
def capture (request : Nat) (fileInfo : CaptFileInfo) : List Event :=
  [.insert request fileInfo,.openFile request true,.writeFile request,.notify request]

theorem display_unshared_door :
    (∀ front, front <+: capture 0 doorCapture → (front.foldl faceRec.next (started 9 true)).Unshared) ↔
      faceRec.Follows FileMgr.ownFile (started 9 true) (capture 0 doorCapture) :=
  display_unshared_iff 9 true (by decide +kernel)

/-- From the check of the outer loop to the display of the only task, in which there is a face. -/
def processing : List Event := List.replicate 9 (.work true false)

/-- A capture of the same second comes when the first one has been displayed, and its `fopen`
empties the file that is displayed. -/
def sameSecond : List Event := capture 0 doorCapture ++ processing ++ [.insert 1 doorCapture]

theorem display_overwritten :
    faceRec.Follows anyEvent (started 9 true) sameSecond ∧
      (sameSecond.foldl faceRec.next (started 9 true)).mDisplayCaptFileInfoVector = [⟨0,doorCapture⟩] ∧
      ((sameSecond.foldl faceRec.next (started 9 true)).act (.openFile 1 true)).map Prod.snd =
        some [.fopen 1 (getCaptFilename doorCapture)] ∧
      ¬ (sameSecond.foldl faceRec.next (started 9 true)).Unshared := by
  have shown : (sameSecond.foldl faceRec.next (started 9 true)).mDisplayCaptFileInfoVector = [⟨0,doorCapture⟩] := by
    decide +kernel
  have opens : ((sameSecond.foldl faceRec.next (started 9 true)).act (.openFile 1 true)).map
      (fun did => (did.1.mDisplayCaptFileInfoVector,did.2)) =
        some ([⟨0,doorCapture⟩],[.fopen 1 (getCaptFilename doorCapture)]) := by
    decide +kernel
  obtain ⟨⟨after,actions⟩,did,same⟩ := Option.map_eq_some_iff.mp opens
  obtain ⟨stays,rfl⟩ := Prod.mk.inj same
  refine ⟨by decide +kernel,shown,by rw [did]; rfl,fun unshared => ?_⟩
  have entry : (⟨0,doorCapture⟩ : Task) ∈ [⟨0,doorCapture⟩] := List.mem_cons_self
  have spared := unshared.spared _ _ _ did _ (shown ▸ entry) (stays ▸ entry) _ List.mem_cons_self rfl
  exact absurd spared (by decide)

end MoCodes.MoFaceRec
