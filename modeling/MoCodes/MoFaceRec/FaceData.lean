import MoCodes.MoFaceRec.CaptFile
import MoCodes.Lib.CopyVector

/-! The faces of a capture on their way from `doCaptTask` through the display vector to those who ask
for it, with the special members of `FaceInfo` and `CaptFileInfo`. -/
namespace MoCodes.MoFaceRec.FaceData
open MoCloud
open Lib.CopyVector

structure FaceInfo where
  mLeftPos : Int32
  mRightPos : Int32
  mTopPos : Int32
  mBottomPos : Int32
  mAngle : Int32
  mGender : Int8
  mAge : Int32
  mName : Text
  deriving DecidableEq

/-- The copy constructor initialises `mAngle` with itself, that is with what the memory holds. -/
def FaceInfo.copy (memory : Int32) (other : FaceInfo) : FaceInfo := {other with mAngle := memory}

/-- A capture with all its fields. -/
structure FacedCapture extends CaptFileInfo where
  mFaceInfoList : List FaceInfo
  deriving DecidableEq

section Members

variable (memory : Nat → Int32)

/-- `operator =` of the list: faces that are there are assigned to, the others are constructed. -/
def assignList (list other : List FaceInfo) : List FaceInfo :=
  other.mapIdx fun i face => if i < list.length then face else face.copy (memory i)

/-- The copy constructor and `operator =` of CaptFileInfo. -/
def captureMembers : Members FacedCapture where
  copy other := {other with mFaceInfoList := []}
  assign fileInfo other := {other with mFaceInfoList := assignList memory fileInfo.mFaceInfoList other.mFaceInfoList}

def setFaceInfoList (fileInfo : FacedCapture) (l : List FaceInfo) : FacedCapture :=
  {fileInfo with mFaceInfoList := assignList memory [] l}

/-- `std::min_element`: the first place with nothing less in the vector. -/
def minElement (vector : List FacedCapture) : Nat :=
  vector.findIdx fun least => vector.all fun other => !other.isLess least.toCaptFileInfo

/-- `mMaxDisplayJpgNum` is at least one, so that a full vector has a least element. -/
def insertDisplayFileInfo (mMaxDisplayJpgNum : Nat) (display : Vec FacedCapture) (fileInfo : FacedCapture) :
    Vec FacedCapture :=
  let display := if mMaxDisplayJpgNum ≤ display.elements.length then
      display.erase (captureMembers memory) (minElement display.elements)
    else display
  display.pushBack (captureMembers memory) fileInfo

def getDisplayCaptFileVector (display displayVector : Vec FacedCapture) : Vec FacedCapture :=
  displayVector.assign (captureMembers memory) display

/-- What `run` does with a task once `doCaptTask` has found its faces. -/
def runTask (mMaxDisplayJpgNum : Nat) (display : Vec FacedCapture) (task : FacedCapture) : Vec FacedCapture :=
  insertDisplayFileInfo memory mMaxDisplayJpgNum display (setFaceInfoList memory task task.mFaceInfoList)

def run (mMaxDisplayJpgNum : Nat) (tasks : List FacedCapture) : Vec FacedCapture :=
  tasks.foldl (runTask memory mMaxDisplayJpgNum) .empty

end Members

/-- The captures that are displayed, each with the faces that were found. -/
def shown (mMaxDisplayJpgNum : Nat) (tasks : List FacedCapture) : List FacedCapture :=
  tasks.foldl (fun shown task =>
    (if mMaxDisplayJpgNum ≤ shown.length then shown.eraseIdx (minElement shown) else shown) ++ [task]) []

/-- After every task the display, and every copy of it, has what was found. -/
def Preserved (memory : Nat → Int32) (mMaxDisplayJpgNum : Nat) (tasks : List FacedCapture) : Prop :=
  ∀ front, front <+: tasks →
    (run memory mMaxDisplayJpgNum front).elements = shown mMaxDisplayJpgNum front ∧
      ∀ displayVector, (getDisplayCaptFileVector memory (run memory mMaxDisplayJpgNum front) displayVector).elements =
        shown mMaxDisplayJpgNum front

def faceless (fileInfo : FacedCapture) : FacedCapture := {fileInfo with mFaceInfoList := []}

theorem captureMembers_keep (memory : Nat → Int32) : Keeps (captureMembers memory) faceless where
  copy _ := rfl
  again _ := rfl
  assign _ _ := rfl

theorem minElement_faceless (vector : List FacedCapture) :
    minElement (vector.map faceless) = minElement vector := by
  rw [minElement,minElement,List.findIdx_map]
  refine congrArg (List.findIdx · vector) (funext fun least => ?_)
  exact List.all_map

section Run

variable (memory : Nat → Int32) (mMaxDisplayJpgNum : Nat)

theorem runTask_faceless {display : Vec FacedCapture} {values : List FacedCapture}
    (holds : display.elements = values.map faceless) (task : FacedCapture) :
    (runTask memory mMaxDisplayJpgNum display task).elements =
      ((if mMaxDisplayJpgNum ≤ values.length then values.eraseIdx (minElement values) else values) ++
        [task]).map faceless := by
  have keeps := captureMembers_keep memory
  rw [runTask,insertDisplayFileInfo,holds,List.length_map,minElement_faceless]
  split
  · rw [pushBack_kept keeps (erase_kept keeps holds _),List.map_append,List.map_append]
    rfl
  · rw [pushBack_kept keeps holds,List.map_append,List.map_append]
    rfl

/-- However the entries are moved and copied, they have no faces. -/
theorem run_faceless (tasks : List FacedCapture) :
    (run memory mMaxDisplayJpgNum tasks).elements = (shown mMaxDisplayJpgNum tasks).map faceless := by
  induction tasks using List.reverseRecOn with
  | nil => rfl
  | append_singleton tasks task ih =>
    rw [run,shown,List.foldl_append,List.foldl_append]
    exact runTask_faceless memory mMaxDisplayJpgNum ih task

theorem shown_mem {tasks : List FacedCapture} {entry : FacedCapture} (among : entry ∈ shown mMaxDisplayJpgNum tasks) :
    entry ∈ tasks := by
  induction tasks using List.reverseRecOn with
  | nil => cases among
  | append_singleton tasks task ih =>
    rw [shown,List.foldl_append] at among
    rcases List.mem_append.mp among with earlier | last
    · refine List.mem_append_left _ (ih ?_)
      split at earlier
      · exact List.mem_of_mem_eraseIdx earlier
      · exact earlier
    · exact List.mem_append_right _ last

theorem shown_last (tasks : List FacedCapture) (task : FacedCapture) : task ∈ shown mMaxDisplayJpgNum (tasks ++ [task]) := by
  rw [shown,List.foldl_append]
  exact List.mem_append_right _ List.mem_cons_self

/-- What was found is displayed where nothing was found. -/
theorem faces_preserved_iff (tasks : List FacedCapture) :
    Preserved memory mMaxDisplayJpgNum tasks ↔ ∀ task ∈ tasks, task.mFaceInfoList = [] := by
  constructor
  · intro preserved task among
    obtain ⟨front,rest,rfl⟩ := List.append_of_mem among
    have upTo : front ++ [task] <+: front ++ task :: rest := ⟨rest,by simp⟩
    have same := (preserved _ upTo).1
    rw [run_faceless] at same
    have displayed := shown_last mMaxDisplayJpgNum front task
    rw [← same] at displayed
    obtain ⟨entry,_,equal⟩ := List.mem_map.mp displayed
    rw [← equal]
    rfl
  · intro none front upTo
    have kept : (shown mMaxDisplayJpgNum front).map faceless = shown mMaxDisplayJpgNum front := by
      have same : ∀ entry ∈ shown mMaxDisplayJpgNum front, faceless entry = entry := by
        intro entry among
        obtain ⟨fileInfo,faces⟩ := entry
        obtain rfl : faces = [] := none _ (upTo.subset (shown_mem mMaxDisplayJpgNum among))
        rfl
      rw [List.map_congr_left same,List.map_id']
    refine ⟨(run_faceless memory mMaxDisplayJpgNum front).trans kept,fun displayVector => ?_⟩
    exact (assign_kept (captureMembers_keep memory) (run_faceless memory mMaxDisplayJpgNum front) displayVector).trans kept

end Run

/-- A list that is stored keeps the angles that the memory happens to hold. -/
theorem setFaceInfoList_iff (memory : Nat → Int32) (fileInfo : FacedCapture) (l : List FaceInfo) :
    (setFaceInfoList memory fileInfo l).mFaceInfoList = l ↔ ∀ i face, l[i]? = some face → memory i = face.mAngle := by
  have stored : (setFaceInfoList memory fileInfo l).mFaceInfoList = l.mapIdx fun i face => face.copy (memory i) := rfl
  have copied : ∀ i (face : FaceInfo), face.copy (memory i) = face ↔ memory i = face.mAngle := by
    intro i face
    constructor
    · intro same
      rw [← same]
      rfl
    · intro same
      rw [FaceInfo.copy,same]
  rw [stored,List.ext_getElem?_iff]
  refine forall_congr' fun i => ?_
  rw [List.getElem?_mapIdx]
  cases l[i]? with
  | none => simp
  | some face =>
    rw [Option.map_some,Option.some.injEq,copied i face]
    exact ⟨fun same other equal => Option.some.inj equal ▸ same,fun all => all face rfl⟩

/-- A man at the door. -/
def doorTask : FacedCapture :=
  ⟨⟨640,480,1500000000,16777343,text "door"⟩,[⟨100,200,50,150,1,0,30,text "UnKnown"⟩]⟩

theorem faces_lost : (run (fun _ => 0) 9 [doorTask]).elements = [faceless doorTask] ∧
    ¬Preserved (fun _ => 0) 9 [doorTask] := by
  have displayed : (run (fun _ => 0) 9 [doorTask]).elements = [faceless doorTask] := by decide
  refine ⟨displayed,fun preserved => ?_⟩
  have same := (preserved [doorTask] (List.prefix_refl _)).1
  rw [displayed] at same
  exact absurd same (by decide)

end MoCodes.MoFaceRec.FaceData
