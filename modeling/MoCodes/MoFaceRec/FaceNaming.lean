import MoCodes.MoFaceRec.FaceData
import MoCodes.Lib.Allocations
import Mathlib.Algebra.Order.Field.Rat
import Mathlib.Data.List.MinMax
import Mathlib.Order.WithBotTop
import Mathlib.Tactic.NormNum.Inv
import Mathlib.Tactic.NormNum.Ineq

/-! The names that FaceOper::getFaceInfo gives the faces of a picture, faceOper.cpp, whatever the
library answers, and the blocks it keeps their features in. -/
namespace MoCodes.MoFaceRec.FaceNaming
open MoCloud FaceData Lib.Allocations

def maxFaceNum : Nat := 8

def unknownPeopleName : Text := text "UnKnown"

abbrev Number := WithBot (WithTop ℚ)

/-- A `float`: a number, possibly infinite, or not a number. -/
inductive Single where
  | nan
  | number (value : Number)
  deriving DecidableEq

/-- `>`, which nothing that is not a number answers to. -/
def Single.greater : Single → Single → Bool
  | number value,number other => other < value
  | _,_ => false

/-- No `float` lies between 0.6 and the `double` next to it. -/
def simiLimitValue : Single := .number (3/5 : ℚ)

structure Orientation where
  left : Int32
  right : Int32
  top : Int32
  bottom : Int32
  lfaceOrient : Int32

structure BaseFaceInfo where
  mName : Text

inductive Matching where
  | failed
  | similar (simi : Single)
  deriving DecidableEq

/-- What the ArcSoft library, `malloc` and uninitialised memory answer in a call. Faces and base faces
are numbered in the order of their lists. -/
structure Answers where
  stillImageFaceDetection : Int
  faces : List Orientation
  ageEstimation : Int
  ages : Nat → Int32
  genderEstimation : Int
  genders : Nat → Int32
  extractFRFeature : Nat → Int
  malloc : Nat → Bool
  facePairMatching : Nat → Nat → Matching
  memory : Nat → Int32

structure Memory where
  blocks : Nat
  trace : List (Access Nat Nat)

/-- `free`, which does nothing for NULL. -/
def Memory.free (memory : Memory) (pFeature : Option Nat) : Memory :=
  {memory with trace := memory.trace ++ (pFeature.map .freed).toList}

section Code

variable (answers : Answers) (baseFaceinfoList : List BaseFaceInfo)

/-- `setArcImgInfo` has succeeded before, and `pFeatures` is NULL. -/
def getFaceFeature (i : Nat) (memory : Memory) : Int × Option Nat × Memory :=
  if answers.extractFRFeature i ≠ 0 then (0 - 3,none,memory)
  else if answers.malloc i then (0,some memory.blocks,⟨memory.blocks+1,memory.trace ++ [.allocated i memory.blocks]⟩)
  else (0 - 4,none,memory)

structure Search where
  max : Single
  name : Text
  pFeature : Option Nat
  memory : Memory

/-- One base face: `curFaceModel` has the address that the feature was put at. -/
def matchBase (i curFaceModel : Nat) (search : Search) (base : BaseFaceInfo × Nat) : Search :=
  let search := {search with
    memory := {search.memory with trace := search.memory.trace ++ [.used i curFaceModel]}}
  match answers.facePairMatching i base.2 with
  | .failed => {search with pFeature := none,memory := search.memory.free search.pFeature}
  | .similar simi => if simi.greater search.max then {search with max := simi,name := base.1.mName} else search

/-- The loop over the base faces and what is behind it. -/
def recognise (i curFaceModel : Nat) (memory : Memory) : Text × Memory :=
  let search := baseFaceinfoList.zipIdx.foldl (matchBase answers i curFaceModel)
    ⟨.number 0,unknownPeopleName,some curFaceModel,memory⟩
  let name := if simiLimitValue.greater search.max then unknownPeopleName else search.name
  (name,search.memory.free search.pFeature)

def nameFace (found : List Text × Memory) (i : Nat) : List Text × Memory :=
  match getFaceFeature answers i found.2 with
  | (_,some pFeature,memory) =>
    let (name,memory) := recognise answers baseFaceinfoList i pFeature memory
    (found.1 ++ [name],memory)
  | (_,none,memory) => (found.1 ++ [unknownPeopleName],memory)

def nameFaces : Nat → List Text × Memory
  | 0 => ([],⟨0,[]⟩)
  | n+1 => nameFace answers baseFaceinfoList (nameFaces n) n

/-- What the caller passes to be filled. -/
structure Found where
  faceNum : Int
  faceInfoList : List FaceInfo

/-- What is asked before the names. -/
def detect (mIsRegisterd hasYuvData : Bool) : Int :=
  if !mIsRegisterd then 0 - 1
  else if !hasYuvData then 0 - 2
  else if answers.stillImageFaceDetection ≠ 0 then 0 - 3
  else if answers.faces.length = 0 then 0 - 4
  else if answers.faces.length > maxFaceNum then 0 - 5
  else if answers.ageEstimation ≠ 0 then 0 - 6
  else if answers.genderEstimation ≠ 0 then 0 - 7
  else 0

/-- The list takes copies of the faces. -/
def getFaceInfo (mIsRegisterd hasYuvData : Bool) (found : Found) : Int × Found × List (Access Nat Nat) :=
  let ret := detect answers mIsRegisterd hasYuvData
  if ret ≠ 0 then (ret,found,[])
  else
    let (nameVector,memory) := nameFaces answers baseFaceinfoList answers.faces.length
    let faceInfoList := answers.faces.mapIdx fun i face =>
      FaceInfo.copy (answers.memory i) ⟨face.left,face.right,face.top,face.bottom,face.lfaceOrient,
        (answers.genders i).toInt8,answers.ages i,nameVector.getD i []⟩
    (0,⟨answers.faces.length,faceInfoList⟩,memory.trace)

end Code

section Names

variable (answers : Answers) (baseFaceinfoList : List BaseFaceInfo)

/-- The similarity to a base face, if the comparison gives a number. -/
def success (i : Nat) (base : BaseFaceInfo × Nat) : Option (Text × Number) :=
  match answers.facePairMatching i base.2 with
  | .similar (.number simi) => some (base.1.mName,simi)
  | _ => none

def successes (i : Nat) : List (Text × Number) := baseFaceinfoList.zipIdx.filterMap (success answers i)

/-- The name of the first of the most similar ones, if it is similar enough. -/
def bestName (best : Option (Text × Number)) : Text :=
  match best with
  | some (name,simi) => if (3/5 : ℚ) ≤ simi then name else unknownPeopleName
  | none => unknownPeopleName

/-- What the loop has at hand of the best one so far, which counts only above zero. -/
def held : Option (Text × Number) → Single × Text
  | some (name,simi) => if 0 < simi then (.number simi,name) else (.number 0,unknownPeopleName)
  | none => (.number 0,unknownPeopleName)

variable {answers baseFaceinfoList} {i curFaceModel : Nat}

theorem held_concat (seen : List (Text × Number)) (name : Text) (simi : Number) :
    held ((seen ++ [(name,simi)]).argmax Prod.snd) =
      if (Single.number simi).greater (held (seen.argmax Prod.snd)).1 then (.number simi,name)
      else held (seen.argmax Prod.snd) := by
  rw [List.argmax_concat]
  cases seen.argmax Prod.snd with
  | none => simp [held,Single.greater]
  | some best =>
    obtain ⟨bestName,bestSimi⟩ := best
    by_cases above : bestSimi < simi
    · by_cases positive : 0 < bestSimi
      · simp [held,Single.greater,above,positive,positive.trans above]
      · simp [held,Single.greater,above,positive]
    · by_cases positive : 0 < bestSimi
      · simp [held,Single.greater,above,positive]
      · have below : ¬0 < simi := fun more => positive (lt_of_lt_of_le more (not_lt.mp above))
        simp [held,Single.greater,above,positive,below]

theorem matchBase_held {search : Search} {seen : List (Text × Number)} (base : BaseFaceInfo × Nat)
    (holds : (search.max,search.name) = held (seen.argmax Prod.snd)) :
    let next := matchBase answers i curFaceModel search base
    (next.max,next.name) = held ((seen ++ (success answers i base).toList).argmax Prod.snd) := by
  have unchanged : held ((seen ++ []).argmax Prod.snd) = (search.max,search.name) := by
    rw [List.append_nil]
    exact holds.symm
  unfold matchBase success
  cases answers.facePairMatching i base.2 with
  | failed => exact unchanged.symm
  | similar simi =>
    cases simi with
    | nan => exact unchanged.symm
    | number simi =>
      rw [Option.toList_some,held_concat,← holds]
      dsimp only
      split
      · rfl
      · rfl

theorem search_held (bases : List (BaseFaceInfo × Nat)) {search : Search} {seen : List (Text × Number)}
    (holds : (search.max,search.name) = held (seen.argmax Prod.snd)) :
    let last := bases.foldl (matchBase answers i curFaceModel) search
    (last.max,last.name) = held ((seen ++ bases.filterMap (success answers i)).argmax Prod.snd) := by
  induction bases generalizing search seen with
  | nil =>
    rw [List.filterMap_nil,List.append_nil]
    exact holds
  | cons base bases ih =>
    have rest := ih (@matchBase_held answers i curFaceModel _ _ base holds)
    have split : (success answers i base).toList ++ bases.filterMap (success answers i) =
        (base :: bases).filterMap (success answers i) := by
      rw [List.filterMap_cons]
      cases success answers i base <;> rfl
    rwa [List.append_assoc,split] at rest

theorem limit_positive : (0 : Number) < (3/5 : ℚ) := by
  have above : (0 : ℚ) < 3/5 := by norm_num
  exact WithBot.coe_lt_coe.mpr (WithTop.coe_lt_coe.mpr above)

theorem held_limit (best : Option (Text × Number)) :
    (if simiLimitValue.greater (held best).1 then unknownPeopleName else (held best).2) = bestName best := by
  cases best with
  | none =>
    rw [held,bestName]
    simp [simiLimitValue,Single.greater]
  | some best =>
    obtain ⟨name,simi⟩ := best
    rw [held,bestName]
    by_cases positive : 0 < simi
    · rw [if_pos positive]
      by_cases below : simi < (3/5 : ℚ)
      · simp [simiLimitValue,Single.greater,below]
      · simp [simiLimitValue,Single.greater,below,not_lt.mp below]
    · have below : simi < (3/5 : ℚ) := lt_of_le_of_lt (not_lt.mp positive) limit_positive
      rw [if_neg positive,if_neg (not_le.mpr below)]
      simp [simiLimitValue,Single.greater]

end Names

section Features

variable (i block : Nat)

/-- What is done with the feature while the base faces are gone through, and at the end. -/
def accesses : Option Nat → List Matching → List (Access Nat Nat)
  | pFeature,[] => (pFeature.map .freed).toList
  | pFeature,.failed :: rest => .used i block :: ((pFeature.map .freed).toList ++ accesses none rest)
  | pFeature,.similar _ :: rest => .used i block :: accesses pFeature rest

variable {i block}

theorem accesses_count (outcomes : List Matching) :
    (accesses i block (some block) outcomes).count (.freed block) = 1 ∧
      (accesses i block none outcomes).count (.freed block) = 0 := by
  induction outcomes with
  | nil => exact ⟨by simp [accesses],by simp [accesses]⟩
  | cons outcome rest ih =>
    cases outcome with
    | failed => exact ⟨by simp [accesses,ih.2],by simp [accesses,ih.2]⟩
    | similar simi => exact ⟨by simp [accesses,ih.1],by simp [accesses,ih.2]⟩

theorem accesses_block {pFeature : Option Nat} (own : ∀ held ∈ pFeature, held = block) (outcomes : List Matching) :
    ∀ access ∈ accesses i block pFeature outcomes, access.block = block ∧ ∀ owner other, access ≠ .allocated owner other := by
  have ended : ∀ access ∈ (pFeature.map (@Access.freed Nat Nat)).toList,
      access.block = block ∧ ∀ owner other, access ≠ .allocated owner other := by
    intro access among
    obtain ⟨held,there,rfl⟩ := Option.mem_map.mp (Option.mem_toList.mp among)
    exact ⟨own held there,fun _ _ => nofun⟩
  induction outcomes generalizing pFeature with
  | nil => exact ended
  | cons outcome rest ih =>
    intro access among
    cases outcome with
    | failed =>
      rcases List.mem_cons.mp among with rfl | among
      · exact ⟨rfl,fun _ _ => nofun⟩
      · rcases List.mem_append.mp among with here | later
        · exact ended access here
        · exact ih (fun _ none => by cases none) (fun _ none => by cases none) access later
    | similar simi =>
      rcases List.mem_cons.mp among with rfl | later
      · exact ⟨rfl,fun _ _ => nofun⟩
      · exact ih own ended access later

/-- A comparison that fails is the last one. -/
def FailsLast (outcomes : List Matching) : Prop :=
  ∀ before rest, outcomes = before ++ Matching.failed :: rest → rest = []

theorem failsLast_similar (simi : Single) (rest : List Matching) : FailsLast (.similar simi :: rest) ↔ FailsLast rest := by
  constructor
  · intro last before behind split
    exact last (.similar simi :: before) behind (by rw [split,List.cons_append])
  · intro last before behind split
    cases before with
    | nil => exact absurd (List.cons.inj split).1 nofun
    | cons first before => exact last before behind (List.cons.inj split).2

theorem failsLast_failed (rest : List Matching) : FailsLast (.failed :: rest) ↔ rest = [] := by
  constructor
  · intro last
    exact last [] rest rfl
  · rintro rfl before behind split
    cases before with
    | nil => exact (List.cons.inj split).2.symm
    | cons first before => exact absurd (List.cons.inj split).2.symm (by simp)

theorem accesses_sound {front : List (Access Nat Nat)} (sound : Sound front) (made : .allocated i block ∈ front)
    (kept : .freed block ∉ front) (outcomes : List Matching) :
    Sound (front ++ accesses i block (some block) outcomes) ↔ FailsLast outcomes := by
  induction outcomes generalizing front with
  | nil =>
    have ends : Sound (front ++ [.freed block]) := sound_concat.mpr ⟨sound,fun _ _ => nofun⟩
    exact iff_of_true ends fun before rest split => absurd split (by simp)
  | cons outcome rest ih =>
    have compared : Sound (front ++ [.used i block]) := by
      refine sound_concat.mpr ⟨sound,fun owner other same => ?_⟩
      obtain ⟨rfl,rfl⟩ := Access.used.inj same
      exact ⟨made,kept⟩
    cases outcome with
    | similar simi =>
      have next := ih compared (List.mem_append_left _ made) (by simp [kept])
      rw [failsLast_similar,← next,List.append_assoc]
      rfl
    | failed =>
      rw [failsLast_failed]
      cases rest with
      | nil =>
        have ends : Sound (front ++ [.used i block] ++ [.freed block]) :=
          sound_concat.mpr ⟨compared,fun _ _ => nofun⟩
        rw [List.append_assoc] at ends
        exact iff_of_true ends rfl
      | cons outcome rest =>
        refine iff_of_false (fun all => ?_) (List.cons_ne_nil _ _)
        obtain ⟨behind,again⟩ : ∃ behind, accesses i block none (outcome :: rest) = .used i block :: behind := by
          cases outcome with
          | failed => exact ⟨_,rfl⟩
          | similar simi => exact ⟨_,rfl⟩
        -- The next comparison has the address of the block that is freed.
        have late := all (front ++ [.used i block,.freed block]) i block behind (by simp [accesses,again])
        exact late.2 (by simp)

end Features

section Run

variable (answers : Answers) (baseFaceinfoList : List BaseFaceInfo)

def extracted (i : Nat) : Bool := answers.extractFRFeature i = 0 && answers.malloc i

def outcomes (i : Nat) : List Matching := (List.range baseFaceinfoList.length).map (answers.facePairMatching i)

def nameOf (i : Nat) : Text :=
  if extracted answers i then bestName ((successes answers baseFaceinfoList i).argmax Prod.snd) else unknownPeopleName

theorem failsLast_outcomes (i : Nat) : FailsLast (outcomes answers baseFaceinfoList i) ↔
    ∀ j, j+1 < baseFaceinfoList.length → answers.facePairMatching i j ≠ .failed := by
  constructor
  · intro last j inside fails
    have before : (outcomes answers baseFaceinfoList i)[j]? = some .failed := by
      rw [outcomes,List.getElem?_map,List.getElem?_range (Nat.lt_of_succ_lt inside),Option.map_some,fails]
    obtain ⟨bound,value⟩ := List.getElem?_eq_some_iff.mp before
    have split := List.take_append_drop j (outcomes answers baseFaceinfoList i)
    rw [List.drop_eq_getElem_cons bound,value] at split
    have none := congrArg List.length (last _ _ split.symm)
    rw [List.length_drop,outcomes,List.length_map,List.length_range,List.length_nil] at none
    omega
  · intro none before rest split
    have size := congrArg List.length split
    rw [outcomes,List.length_map,List.length_range,List.length_append,List.length_cons] at size
    have fails : (outcomes answers baseFaceinfoList i)[before.length]? = some .failed := by
      rw [split,List.getElem?_append_right le_rfl,Nat.sub_self,List.getElem?_cons_zero]
    rw [outcomes,List.getElem?_map,List.getElem?_range (by omega),Option.map_some] at fails
    by_contra more
    have positive := List.length_pos_of_ne_nil more
    exact none before.length (by omega) (Option.some.inj fails)

theorem search_accesses {i block : Nat} (bases : List (BaseFaceInfo × Nat)) (search : Search) :
    let last := bases.foldl (matchBase answers i block) search
    last.memory.free last.pFeature = ⟨search.memory.blocks,search.memory.trace ++
      accesses i block search.pFeature (bases.map fun base => answers.facePairMatching i base.2)⟩ := by
  induction bases generalizing search with
  | nil => rfl
  | cons base bases ih =>
    have rest := ih (matchBase answers i block search base)
    rw [List.foldl_cons,List.map_cons]
    refine rest.trans ?_
    unfold matchBase
    cases answers.facePairMatching i base.2 with
    | failed => simp [accesses,Memory.free]
    | similar simi =>
      dsimp only
      split
      · simp [accesses]
      · simp [accesses]

theorem recognise_eq (i block : Nat) (memory : Memory) :
    recognise answers baseFaceinfoList i block memory =
      (bestName ((successes answers baseFaceinfoList i).argmax Prod.snd),
        ⟨memory.blocks,memory.trace ++ accesses i block (some block) (outcomes answers baseFaceinfoList i)⟩) := by
  have highest := @search_held answers i block baseFaceinfoList.zipIdx
    ⟨.number 0,unknownPeopleName,some block,memory⟩ [] rfl
  have compared : (baseFaceinfoList.zipIdx.map fun base => answers.facePairMatching i base.2) =
      outcomes answers baseFaceinfoList i := by
    rw [outcomes,List.range_eq_range',← List.zipIdx_map_snd 0 baseFaceinfoList,List.map_map]
    rfl
  obtain ⟨most,named⟩ := Prod.ext_iff.mp highest
  refine Prod.ext ?_ ?_
  · rw [← held_limit]
    exact congrArg₂ (fun max name => if simiLimitValue.greater max then unknownPeopleName else name) most named
  · rw [← compared]
    exact search_accesses answers baseFaceinfoList.zipIdx _

theorem nameFace_eq (found : List Text × Memory) (i : Nat) :
    nameFace answers baseFaceinfoList found i = (found.1 ++ [nameOf answers baseFaceinfoList i],
      if extracted answers i then
        ⟨found.2.blocks+1,found.2.trace ++ .allocated i found.2.blocks ::
          accesses i found.2.blocks (some found.2.blocks) (outcomes answers baseFaceinfoList i)⟩
      else found.2) := by
  unfold nameFace getFaceFeature nameOf extracted
  by_cases extract : answers.extractFRFeature i = 0
  · cases room : answers.malloc i with
    | false => simp [extract]
    | true => simp [extract,recognise_eq]
  · simp [extract]

theorem recognise_block (i block : Nat) :
    let face := Access.allocated i block :: accesses i block (some block) (outcomes answers baseFaceinfoList i)
    (∀ access ∈ face, access.block = block) ∧ FreedOnce face ∧
      (Sound face ↔ FailsLast (outcomes answers baseFaceinfoList i)) := by
  have own : ∀ held ∈ some block, held = block := fun held there => (Option.some.inj there).symm
  have behind := accesses_block (i := i) own (outcomes answers baseFaceinfoList i)
  refine ⟨fun access among => ?_,fun owner other made => ?_,?_⟩
  · rcases List.mem_cons.mp among with rfl | later
    · rfl
    · exact (behind access later).1
  · rcases List.mem_cons.mp made with here | later
    · obtain ⟨_,rfl⟩ := Access.allocated.inj here
      have apart : Access.allocated i other ≠ .freed other := nofun
      rw [List.count_cons_of_ne apart]
      exact (accesses_count _).1
    · exact absurd rfl ((behind _ later).2 owner other)
  · have start : Sound [Access.allocated i block] :=
      sound_concat.mpr ⟨sound_nil,fun _ _ same => by cases same⟩
    exact accesses_sound start List.mem_cons_self (by simp) _

/-- The names, the blocks and what is true of the accesses after some faces. -/
structure Named (n : Nat) (found : List Text × Memory) : Prop where
  names : found.1 = (List.range n).map (nameOf answers baseFaceinfoList)
  fresh : ∀ access ∈ found.2.trace, access.block < found.2.blocks
  once : FreedOnce found.2.trace
  sound : Sound found.2.trace ↔ ∀ i < n, extracted answers i → FailsLast (outcomes answers baseFaceinfoList i)

theorem nameFace_named {n : Nat} {found : List Text × Memory} (named : Named answers baseFaceinfoList n found) :
    Named answers baseFaceinfoList (n+1) (nameFace answers baseFaceinfoList found n) := by
  obtain ⟨names,fresh,once,sound⟩ := named
  rw [nameFace_eq]
  have names' : found.1 ++ [nameOf answers baseFaceinfoList n] =
      (List.range (n+1)).map (nameOf answers baseFaceinfoList) := by
    rw [names,List.range_succ,List.map_append]
    rfl
  cases extract : extracted answers n with
  | false =>
    refine ⟨names',fresh,once,sound.trans ?_⟩
    rw [Nat.forall_lt_succ_right]
    simp [extract]
  | true =>
    obtain ⟨blocks,faceOnce,faceSound⟩ := recognise_block answers baseFaceinfoList n found.2.blocks
    have apart : Apart found.2.trace (.allocated n found.2.blocks ::
        accesses n found.2.blocks (some found.2.blocks) (outcomes answers baseFaceinfoList n)) := by
      intro before early behind late
      rw [blocks behind late]
      exact Nat.ne_of_lt (fresh before early)
    refine ⟨names',fun access among => ?_,freedOnce_append apart once faceOnce,?_⟩
    · rcases List.mem_append.mp among with early | late
      · exact Nat.lt_succ_of_lt (fresh access early)
      · rw [blocks access late]
        exact Nat.lt_succ_self _
    · rw [if_pos rfl,sound_append apart,sound,faceSound,Nat.forall_lt_succ_right]
      simp [extract]

theorem nameFaces_named (n : Nat) : Named answers baseFaceinfoList n (nameFaces answers baseFaceinfoList n) := by
  induction n with
  | zero =>
    refine ⟨rfl,fun access none => absurd none List.not_mem_nil,fun owner block none => absurd none List.not_mem_nil,?_⟩
    exact iff_of_true sound_nil fun i none => absurd none (Nat.not_lt_zero i)
  | succ n ih => exact nameFace_named answers baseFaceinfoList ih

/-- Each face has its name, the comparisons have their face's own feature, and it is freed once. -/
structure Recognised (faceInfoList : List FaceInfo) (trace : List (Access Nat Nat)) : Prop where
  names : faceInfoList.map (·.mName) = (List.range answers.faces.length).map (nameOf answers baseFaceinfoList)
  own : Sound trace
  once : FreedOnce trace

theorem getFaceInfo_ok {mIsRegisterd hasYuvData : Bool} {found : Found}
    (ok : (getFaceInfo answers baseFaceinfoList mIsRegisterd hasYuvData found).1 = 0) :
    let named := nameFaces answers baseFaceinfoList answers.faces.length
    let result := getFaceInfo answers baseFaceinfoList mIsRegisterd hasYuvData found
    result.2.1.faceInfoList.map (·.mName) = (List.range answers.faces.length).map (named.1.getD · []) ∧
      result.2.2 = named.2.trace := by
  have passed : detect answers mIsRegisterd hasYuvData = 0 := by
    by_contra failed
    rw [getFaceInfo,if_pos failed] at ok
    exact failed ok
  intro named result
  simp only [result,getFaceInfo,passed,ne_eq,not_true_eq_false,if_false]
  refine ⟨?_,rfl⟩
  apply List.ext_getElem
  · simp
  · intro i left right
    simp [named,FaceInfo.copy]

/-- A comparison that fails frees the feature, which is then missing for the next one only. -/
theorem getFaceInfo_recognised_iff {mIsRegisterd hasYuvData : Bool} {found : Found}
    (ok : (getFaceInfo answers baseFaceinfoList mIsRegisterd hasYuvData found).1 = 0) :
    let result := getFaceInfo answers baseFaceinfoList mIsRegisterd hasYuvData found
    Recognised answers baseFaceinfoList result.2.1.faceInfoList result.2.2 ↔
      ∀ i < answers.faces.length, extracted answers i →
        ∀ j, j+1 < baseFaceinfoList.length → answers.facePairMatching i j ≠ .failed := by
  intro result
  obtain ⟨names,trace⟩ := getFaceInfo_ok answers baseFaceinfoList ok
  have named := nameFaces_named answers baseFaceinfoList answers.faces.length
  have given : result.2.1.faceInfoList.map (·.mName) =
      (List.range answers.faces.length).map (nameOf answers baseFaceinfoList) := by
    rw [names,named.names]
    refine List.map_congr_left fun i among => ?_
    rw [List.getD_eq_getElem?_getD,List.getElem?_map,List.getElem?_range (List.mem_range.mp among)]
    rfl
  constructor
  · intro recognised i inside extract
    have sound : Sound (nameFaces answers baseFaceinfoList answers.faces.length).2.trace := trace ▸ recognised.own
    exact (failsLast_outcomes answers baseFaceinfoList i).mp (named.sound.mp sound i inside extract)
  · intro last
    refine ⟨given,?_,?_⟩
    · rw [trace]
      refine named.sound.mpr fun i inside extract => ?_
      exact (failsLast_outcomes answers baseFaceinfoList i).mpr (last i inside extract)
    · rw [trace]
      exact named.once

end Run

/-- One face, and a library that cannot compare it with the first base face. -/
def failsFirst : Answers where
  stillImageFaceDetection := 0
  faces := [⟨100,200,50,150,1⟩]
  ageEstimation := 0
  ages _ := 30
  genderEstimation := 0
  genders _ := 0
  extractFRFeature _ := 0
  malloc _ := true
  facePairMatching _ j := if j = 0 then .failed else .similar (.number (9/10 : ℚ))
  memory _ := 0

def twoBases : List BaseFaceInfo := [⟨text "anna"⟩,⟨text "eric"⟩]

theorem getFaceInfo_recognised_two :
    (getFaceInfo failsFirst twoBases true true ⟨0,[]⟩).1 = 0 ∧
      let result := getFaceInfo failsFirst twoBases true true ⟨0,[]⟩
      (Recognised failsFirst twoBases result.2.1.faceInfoList result.2.2 ↔
        ∀ i < failsFirst.faces.length, extracted failsFirst i →
          ∀ j, j+1 < twoBases.length → failsFirst.facePairMatching i j ≠ .failed) :=
  ⟨rfl,getFaceInfo_recognised_iff failsFirst twoBases rfl⟩

/-- The second base face is compared with a feature that is freed. -/
theorem freed_feature_compared :
    let result := getFaceInfo failsFirst twoBases true true ⟨0,[]⟩
    result.1 = 0 ∧ ¬Recognised failsFirst twoBases result.2.1.faceInfoList result.2.2 := by
  intro result
  have trace : result.2.2 = [.allocated 0 0,.used 0 0,.freed 0,.used 0 0] := by
    refine (getFaceInfo_ok failsFirst twoBases rfl).2.trans ?_
    exact congrArg (·.2.trace) (nameFace_eq failsFirst twoBases ([],⟨0,[]⟩) 0)
  refine ⟨rfl,fun recognised => ?_⟩
  have late := recognised.own [.allocated 0 0,.used 0 0,.freed 0] 0 0 [] trace
  exact late.2 (by decide)

end MoCodes.MoFaceRec.FaceNaming
