import MoCodes.MoFaceRec.Steps
import MoCodes.Lib.Largest

/-! Which captures are displayed: the last one that was inserted, and the latest of those before. -/
namespace MoCodes.MoFaceRec
open MoCloud
open Lib.Largest

def Task.time (task : Task) : Int := task.fileInfo.mTimestamp.toInt

def Task.filename (task : Task) : Text := getCaptFilename task.fileInfo

theorem isLess_iff {task other : Task} : task.fileInfo.isLess other.fileInfo = true ↔ task.time < other.time := by
  rw [CaptFileInfo.isLess,decide_eq_true_iff]
  exact Int64.lt_iff_toInt_lt

theorem filename_time {task other : Task} (same : task.filename = other.filename) : task.time = other.time :=
  congrArg Int64.toInt (formatFilename_inj same).1

theorem minElement_le {tasks : List Task} {least : Task} (found : minElement tasks = some least) :
    ∀ task ∈ tasks, least.time ≤ task.time := by
  cases tasks with
  | nil => cases found
  | cons first tasks =>
    obtain rfl := Option.some.inj found
    clear found
    induction tasks generalizing first with
    | nil =>
      intro task among
      rw [List.mem_singleton.mp among]
      exact le_rfl
    | cons second tasks ih =>
      intro task among
      rw [List.foldl_cons]
      split
      · rename_i less
        have below := ih second
        rcases List.mem_cons.mp among with rfl | later
        · exact le_trans (below second List.mem_cons_self) (le_of_lt (isLess_iff.mp less))
        · exact below task later
      · rename_i less
        have above : first.time ≤ second.time := not_lt.mp (mt isLess_iff.mpr less)
        have below := ih first
        rcases List.mem_cons.mp among with rfl | later
        · exact below _ List.mem_cons_self
        · rcases List.mem_cons.mp later with rfl | behind
          · exact le_trans (below first List.mem_cons_self) above
          · exact below task (List.mem_cons_of_mem _ behind)

/-- The one element that comes before all the others is the one that is found. -/
theorem minElement_last {tasks kept : List Task} {least : Task} (perm : tasks.Perm (kept ++ [least]))
    (before : ∀ task ∈ kept, least.time < task.time) : minElement tasks = some least := by
  have there : least ∈ tasks := perm.mem_iff.mpr (List.mem_append_right _ List.mem_cons_self)
  cases found : minElement tasks with
  | none =>
    cases tasks with
    | nil => cases there
    | cons first tasks => cases found
  | some other =>
    have below := minElement_le found least there
    rcases List.mem_append.mp (perm.mem_iff.mp (minElement_mem found)) with among | same
    · exact absurd (before other among) (not_lt.mpr below)
    · rw [List.mem_singleton.mp same]

/-- The last call, and the latest captures of those before it. -/
def window (max : Nat) (calls : List Task) : List Task :=
  calls.getLast?.toList ++ largest Task.time (max-1) calls.dropLast

theorem window_concat (max : Nat) (calls : List Task) (task : Task) :
    window max (calls ++ [task]) = task :: largest Task.time (max-1) calls := by
  rw [window,List.getLast?_concat,List.dropLast_concat]
  rfl

theorem window_all {max : Nat} {calls : List Task} (short : calls.length ≤ max) : (window max calls).Perm calls := by
  cases calls using List.reverseRecOn with
  | nil => simp [window,largest,descending]
  | append_singleton calls last =>
    rw [List.length_append,List.length_singleton] at short
    rw [window_concat]
    exact ((largest_all Task.time (by omega)).cons last).trans (List.perm_append_singleton last calls).symm

namespace FileMgr

variable (mgr : FileMgr)

/-- One call of `insertDisplayFileInfo` after the other, with all that they do to the files. -/
def insertDisplayFileInfos (tasks : List Task) : Option (FileMgr × List Action) :=
  tasks.foldl (fun state task => state.bind fun (mgr,actions) =>
    (mgr.insertDisplayFileInfo task).map fun (after,more) => (after,actions ++ more)) (some (mgr,[]))

theorem insertDisplayFileInfos_concat (tasks : List Task) (task : Task) :
    mgr.insertDisplayFileInfos (tasks ++ [task]) = (mgr.insertDisplayFileInfos tasks).bind fun (mgr,actions) =>
      (mgr.insertDisplayFileInfo task).map fun (after,more) => (after,actions ++ more) := by
  rw [insertDisplayFileInfos,List.foldl_append]
  rfl

/-- The actions unlink the files of `gone`, each once. -/
def Unlinks (actions : List Action) (gone : List Task) : Prop :=
  actions.map Action.filename = gone.map Task.filename ∧
    ∀ action ∈ actions, ∃ request filename, action = .unlink request filename

variable {mgr}

theorem insertDisplayFileInfo_window (task : Task) {calls : List Task} (positive : 1 ≤ mgr.mMaxDisplayJpgNum)
    (shown : mgr.mDisplayCaptFileInfoVector.Perm (window mgr.mMaxDisplayJpgNum calls))
    (distinct : (calls.map Task.time).Nodup) :
    ∃ after actions gone, mgr.insertDisplayFileInfo task = some (after,actions) ∧
      after.mMaxDisplayJpgNum = mgr.mMaxDisplayJpgNum ∧
      after.mDisplayCaptFileInfoVector.Perm (window mgr.mMaxDisplayJpgNum (calls ++ [task])) ∧
      (gone ++ after.mDisplayCaptFileInfoVector).Perm (mgr.mDisplayCaptFileInfoVector ++ [task]) ∧
      Unlinks actions gone := by
  rw [insertDisplayFileInfo,window_concat]
  by_cases room : calls.length < mgr.mMaxDisplayJpgNum
  · have all := shown.trans (window_all (Nat.le_of_lt room))
    have size : ¬mgr.mMaxDisplayJpgNum ≤ mgr.mDisplayCaptFileInfoVector.length := by
      rw [all.length_eq]
      omega
    rw [if_neg size]
    refine ⟨_,_,[],rfl,rfl,?_,List.Perm.refl _,rfl,by simp⟩
    refine (List.perm_append_singleton task _).trans (List.Perm.cons task ?_)
    exact all.trans (largest_all Task.time (by omega)).symm
  · have enough : mgr.mMaxDisplayJpgNum ≤ calls.length := Nat.not_lt.mp room
    cases calls using List.reverseRecOn with
    | nil => exact absurd enough (by simp only [List.length_nil]; omega)
    | append_singleton front last =>
      rw [List.length_append,List.length_singleton] at enough
      rw [window_concat] at shown
      have most : mgr.mMaxDisplayJpgNum-1 ≤ front.length := by omega
      obtain ⟨least,split,before⟩ := largest_concat most distinct
      have perm := shown.trans split
      have size : mgr.mMaxDisplayJpgNum ≤ mgr.mDisplayCaptFileInfoVector.length := by
        rw [shown.length_eq,List.length_cons,largest_length]
        omega
      have rest : (mgr.mDisplayCaptFileInfoVector.erase least).Perm
          (largest Task.time (mgr.mMaxDisplayJpgNum-1) (front ++ [last])) := by
        have erased := (perm.trans (List.perm_append_singleton least _)).erase least
        rwa [List.erase_cons_head] at erased
      rw [if_pos size,minElement_last perm before]
      refine ⟨_,_,[least],rfl,rfl,?_,?_,rfl,?_⟩
      · exact (List.perm_append_singleton task _).trans (rest.cons task)
      · rw [← List.append_assoc]
        refine List.Perm.append_right _ ?_
        exact (rest.cons least).trans ((List.perm_append_singleton least _).symm.trans perm.symm)
      · intro action among
        rw [List.mem_singleton.mp among]
        exact ⟨_,_,rfl⟩

theorem insertDisplayFileInfos_window (positive : 1 ≤ mgr.mMaxDisplayJpgNum)
    (empty : mgr.mDisplayCaptFileInfoVector = []) (calls : List Task) (distinct : (calls.map Task.time).Nodup) :
    ∃ after actions gone, mgr.insertDisplayFileInfos calls = some (after,actions) ∧
      after.mMaxDisplayJpgNum = mgr.mMaxDisplayJpgNum ∧
      after.mDisplayCaptFileInfoVector.Perm (window mgr.mMaxDisplayJpgNum calls) ∧
      (gone ++ after.mDisplayCaptFileInfoVector).Perm calls ∧ Unlinks actions gone := by
  induction calls using List.reverseRecOn with
  | nil =>
    refine ⟨mgr,[],[],rfl,rfl,?_,?_,rfl,by simp⟩
    · rw [empty]
      exact (window_all (Nat.zero_le _)).symm
    · rw [empty]
      exact List.Perm.refl _
  | append_singleton calls task ih =>
    have earlier : (calls.map Task.time).Nodup := by
      rw [List.map_append] at distinct
      exact distinct.of_append_left
    obtain ⟨before,actions,gone,ran,same,shown,all,names,unlinks⟩ := ih earlier
    obtain ⟨after,more,evicted,called,same',shown',all',names',unlinks'⟩ :=
      insertDisplayFileInfo_window task (same ▸ positive) (same ▸ shown) earlier
    refine ⟨after,actions ++ more,gone ++ evicted,?_,same'.trans same,same ▸ shown',?_,?_,?_⟩
    · rw [insertDisplayFileInfos_concat,ran,Option.bind_some]
      dsimp only
      rw [called]
      rfl
    · rw [List.append_assoc]
      refine (all'.append_left gone).trans ?_
      rw [← List.append_assoc]
      exact all.append_right [task]
    · rw [List.map_append,List.map_append,names,names']
    · intro action among
      rcases List.mem_append.mp among with first | second
      · exact unlinks action first
      · exact unlinks' action second

/-- After every call the display holds the capture of that call and the latest of the captures before
it, as many as there is room for, and the files that are unlinked are those of all the others. -/
theorem display_window (positive : 1 ≤ mgr.mMaxDisplayJpgNum) (empty : mgr.mDisplayCaptFileInfoVector = [])
    (calls : List Task) (task : Task) (distinct : ((calls ++ [task]).map Task.time).Nodup) :
    ∃ after actions, mgr.insertDisplayFileInfos (calls ++ [task]) = some (after,actions) ∧
      after.mDisplayCaptFileInfoVector.Perm (task :: largest Task.time (mgr.mMaxDisplayJpgNum-1) calls) ∧
      (∀ action ∈ actions, ∃ entry ∈ calls ++ [task], ∃ request, action = .unlink request entry.filename) ∧
      ∀ entry ∈ calls ++ [task], entry.filename ∈ actions.map Action.filename ↔
        entry ∉ after.mDisplayCaptFileInfoVector := by
  obtain ⟨after,actions,gone,ran,_,shown,all,names,unlinks⟩ :=
    insertDisplayFileInfos_window positive empty _ distinct
  rw [window_concat] at shown
  refine ⟨after,actions,ran,shown,fun action among => ?_,fun entry among => ?_⟩
  · obtain ⟨request,filename,rfl⟩ := unlinks action among
    have named := List.mem_map_of_mem (f := Action.filename) among
    rw [names] at named
    obtain ⟨entry,left,same⟩ := List.mem_map.mp named
    refine ⟨entry,all.mem_iff.mp (List.mem_append_left _ left),request,?_⟩
    rw [same]
    rfl
  · have apart := (List.nodup_append.mp (all.nodup_iff.mpr distinct.of_map)).2.2
    rw [names]
    constructor
    · intro named displayed
      obtain ⟨other,left,same⟩ := List.mem_map.mp named
      have equal : other = entry := List.inj_on_of_nodup_map distinct
        (all.mem_iff.mp (List.mem_append_left _ left)) among (filename_time same)
      exact apart other left entry displayed equal
    · intro missing
      rcases List.mem_append.mp (all.mem_iff.mpr among) with left | displayed
      · exact List.mem_map_of_mem left
      · exact absurd displayed missing

end FileMgr

/-- Captures of a door camera, by the second. -/
def doorTask (request : Nat) (second : Int64) : Task := ⟨request,⟨640,480,second,16777343,text "door"⟩⟩

theorem display_window_door : ∃ after actions, (started 2 true).insertDisplayFileInfos
      ([doorTask 3 1500000003,doorTask 2 1500000002] ++ [doorTask 1 1500000001]) = some (after,actions) ∧
    after.mDisplayCaptFileInfoVector.Perm [doorTask 1 1500000001,doorTask 3 1500000003] := by
  have positive : 1 ≤ (started 2 true).mMaxDisplayJpgNum := by decide
  obtain ⟨after,actions,ran,shown,_⟩ := FileMgr.display_window positive rfl
    [doorTask 3 1500000003,doorTask 2 1500000002] (doorTask 1 1500000001) (by decide)
  exact ⟨after,actions,ran,shown⟩

/-- With room for two, the earliest of three captures comes in last and pushes out the second one. -/
theorem earliest_displayed : ∃ after actions, (started 2 true).insertDisplayFileInfos
      [doorTask 3 1500000003,doorTask 2 1500000002,doorTask 1 1500000001] = some (after,actions) ∧
    after.mDisplayCaptFileInfoVector = [doorTask 3 1500000003,doorTask 1 1500000001] ∧
    ¬after.mDisplayCaptFileInfoVector.Perm (largest Task.time 2
      [doorTask 3 1500000003,doorTask 2 1500000002,doorTask 1 1500000001]) := by
  refine ⟨_,_,rfl,rfl,fun same => ?_⟩
  have second : doorTask 2 1500000002 ∈ largest Task.time 2
      [doorTask 3 1500000003,doorTask 2 1500000002,doorTask 1 1500000001] := by decide
  exact absurd (same.mem_iff.mpr second) (by decide)

end MoCodes.MoFaceRec
