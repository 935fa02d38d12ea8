import MoCodes.MoCloud.Client.Filelist

/-! The places of gpFilelist and the records of the response body that setFilelistValue,
freeLocalFilelist and moCloudClient_getFilelist touch, for any bytes, length and type. -/
namespace MoCodes.MoCloud.Client.Filelist
open Lib.Loop

/-- A record of the body by its offset, or a place of gpFilelist. -/
inductive Access where
  | record (offset : Int)
  | place (index : Nat)

/-- gpFilelist has MOCLOUD_FILETYPE_ALL places. -/
def Access.Inside (bodyLen : Int) : Access → Prop
  | .record offset => 0 ≤ offset ∧ offset+basicFileinfoSize ≤ bodyLen
  | .place index => (index : Int) < filetypeAll

/-- A turn of the loop over the types touches the place of its `curType`. -/
def Visits {σ : Type} (visit : Nat → σ → σ) (type : Nat) (start : σ) (access : Access) : Prop :=
  ∃ state, Reached (typeBody visit type) (firstType type,start) state ∧ state.1 < limitType type ∧ access = .place state.1

def FreeAccess (type : Nat) (gpFilelist : Filelists) (access : Access) : Prop :=
  (type : Int) < filetypeMax ∧ Visits (fun curType lists => Function.update lists curType []) type gpFilelist access

def GetAccess (type : Nat) (malloc : Nat → Bool) (gpFilelist : Filelists) (access : Access) : Prop :=
  (filetypeVideo ≤ (type : Int) ∧ (type : Int) < filetypeMax) ∧
    Visits (fun curType => copyNodes malloc (gpFilelist curType)) type ⟨0,0,[]⟩ access

section Call

variable (body : Body) (bodyLen : Int) (type : Nat) (malloc : Nat → Bool)

def saveAccesses (state : Saving) : List Access :=
  if More bodyLen state.readLen then
    let filetype := filetypeOf (recordAt body state.readLen)
    .record state.readLen :: if Rejected type filetype ∨ malloc state.nodes = false then [] else [.place filetype]
  else []

/-- The lists are freed before the loop, and after one that has failed. -/
def SetAccess (gpFilelist : Filelists) (access : Access) : Prop :=
  (filetypeVideo ≤ (type : Int) ∧ (type : Int) < filetypeMax) ∧
    ((∃ lists, FreeAccess type lists access) ∨
      ∃ state, Reached (saveBody body bodyLen type malloc) ⟨0,0,gpFilelist⟩ state ∧
        access ∈ saveAccesses body bodyLen type malloc state)

structure AccessesInside : Prop where
  set : ∀ malloc gpFilelist access, SetAccess body bodyLen type malloc gpFilelist access → access.Inside bodyLen
  free : ∀ gpFilelist access, FreeAccess type gpFilelist access → access.Inside bodyLen
  get : ∀ malloc gpFilelist access, GetAccess type malloc gpFilelist access → access.Inside bodyLen

end Call

section Loops

variable {body : Body} {bodyLen : Int} {type : Nat} {malloc : Nat → Bool} {gpFilelist : Filelists} {access : Access}

theorem visits_inside {σ : Type} {visit : Nat → σ → σ} {start : σ} (bound : (type : Int) < filetypeMax)
    (visits : Visits visit type start access) : access.Inside bodyLen := by
  obtain ⟨state,_,below,rfl⟩ := visits
  have limit := limitType_le bound
  change (state.1 : Int) < filetypeAll
  unfold filetypeAll
  omega

/-- Behind each turn `readLen` counts whole records of the body. -/
def Counted (bodyLen : Int) (state : Saving) : Prop :=
  ∃ k : Nat, state.readLen = (k*basicFileinfoSize : Nat) ∧ ((k*basicFileinfoSize : Nat) : Int) ≤ bodyLen

theorem saveBody_next {state after : Saving} (step : saveBody body bodyLen type malloc state = .next after) :
    More bodyLen state.readLen ∧ after.readLen = toInt (state.readLen+basicFileinfoSize) := by
  rw [saveBody] at step
  split at step
  · rename_i more
    refine ⟨more,?_⟩
    dsimp only at step
    split at step
    · cases step
      rfl
    · split at step
      · cases step
      · cases step
        rfl
  · cases step

theorem more_record {k : Nat} (high : bodyLen < 2^31) (low : ((k*basicFileinfoSize : Nat) : Int) ≤ bodyLen) :
    More bodyLen (k*basicFileinfoSize : Nat) ↔ (((k+1)*basicFileinfoSize : Nat) : Int) ≤ bodyLen := by
  obtain ⟨length,rfl⟩ := Int.eq_ofNat_of_zero_le (Int.le_trans (Int.natCast_nonneg _) low)
  rw [more_iff (by omega) (by omega),Nat.succ_mul]
  omega

theorem counted_reached (high : bodyLen < 2^31) (nonneg : 0 ≤ bodyLen) {state : Saving}
    (reached : Reached (saveBody body bodyLen type malloc) ⟨0,0,gpFilelist⟩ state) : Counted bodyLen state := by
  induction reached with
  | start => exact ⟨0,rfl,nonneg⟩
  | next _ step ih =>
    obtain ⟨k,place,low⟩ := ih
    obtain ⟨more,next⟩ := saveBody_next step
    rw [place] at more next
    have inside := (more_record high low).mp more
    have small : (k+1)*basicFileinfoSize < 2^31 := by omega
    refine ⟨k+1,?_,inside⟩
    rw [next,← (toInt_same _).mpr small,Nat.succ_mul]
    rfl

theorem saveBody_granted (body : Body) (type : Nat) (granted : ∀ node, malloc node = true) {state : Saving} (more : More bodyLen state.readLen) :
    ∃ after, saveBody body bodyLen type malloc state = .next after ∧
      after.readLen = toInt (state.readLen+basicFileinfoSize) := by
  rw [saveBody,if_pos more]
  dsimp only
  split
  · exact ⟨_,rfl,rfl⟩
  · rw [granted,if_neg (by decide)]
    exact ⟨_,rfl,rfl⟩

/-- With memory for each node the loop comes to every record of the body. -/
theorem record_reached (body : Body) (type : Nat) (gpFilelist : Filelists) (high : bodyLen < 2^31)
    (granted : ∀ node, malloc node = true) (k : Nat) (inside : ((k*basicFileinfoSize : Nat) : Int) ≤ bodyLen) :
    ∃ state, Reached (saveBody body bodyLen type malloc) ⟨0,0,gpFilelist⟩ state ∧ state.readLen = (k*basicFileinfoSize : Nat) := by
  induction k with
  | zero => exact ⟨_,.start,rfl⟩
  | succ k ih =>
    have low : ((k*basicFileinfoSize : Nat) : Int) ≤ bodyLen := by
      rw [Nat.succ_mul] at inside
      omega
    obtain ⟨state,reached,place⟩ := ih low
    have more : More bodyLen state.readLen := by
      rw [place]
      exact (more_record high low).mpr inside
    obtain ⟨after,step,next⟩ := saveBody_granted body type granted more
    have small : (k+1)*basicFileinfoSize < 2^31 := by omega
    refine ⟨after,reached.next step,?_⟩
    rw [next,place,← (toInt_same _).mpr small,Nat.succ_mul]
    rfl

/-- A negative length becomes a large one. -/
theorem more_negative (low : -2^31 ≤ bodyLen) (negative : bodyLen < 0) : More bodyLen 0 := by
  have start : toSize 0 = 0 := by decide
  have large : bodyLen%2^64 = bodyLen+2^64 := by omega
  rw [More,start,toSize,large]
  unfold basicFileinfoSize
  omega

theorem saveAccesses_inside (high : bodyLen < 2^31) {state : Saving} (counted : Counted bodyLen state)
    (bound : (type : Int) < filetypeMax)
    (single : (type : Int) ≠ filetypeAll ∨ ∀ k : Nat, (((k+1)*basicFileinfoSize : Nat) : Int) ≤ bodyLen →
      (filetypeOf (recordAt body (k*basicFileinfoSize : Nat)) : Int) ≠ filetypeAll)
    (touched : access ∈ saveAccesses body bodyLen type malloc state) : access.Inside bodyLen := by
  obtain ⟨k,place,low⟩ := counted
  rw [saveAccesses] at touched
  split at touched
  · rename_i more
    rw [place] at more touched
    have inside := (more_record high low).mp more
    rcases List.mem_cons.mp touched with rfl | stored
    · refine ⟨Int.natCast_nonneg _,?_⟩
      rw [Nat.succ_mul] at inside
      exact inside
    · split at stored
      · cases stored
      · rename_i taken
        obtain rfl := List.mem_singleton.mp stored
        have accepted : ¬ Rejected type (filetypeOf (recordAt body (k*basicFileinfoSize : Nat))) := fun rejected => taken (Or.inl rejected)
        change (filetypeOf (recordAt body (k*basicFileinfoSize : Nat)) : Int) < filetypeAll
        rw [Rejected,not_or,not_and_or] at accepted
        rcases single with single | free
        · have same := not_not.mp (accepted.2.resolve_left (not_not.mpr single))
          have below : (type : Int) < 16 := bound
          rw [same]
          unfold filetypeAll at *
          omega
        · have other := free k inside
          have small := accepted.1
          unfold filetypeAll filetypeMax at *
          omega
  · cases touched

theorem negative_outside (valid : filetypeVideo ≤ (type : Int) ∧ (type : Int) < filetypeMax) (low : -2^31 ≤ bodyLen)
    (negative : bodyLen < 0) : ¬ AccessesInside body bodyLen type := by
  intro inside
  have first : Access.record 0 ∈ saveAccesses body bodyLen type (fun _ => true) ⟨0,0,fun _ => []⟩ := by
    rw [saveAccesses,if_pos (more_negative low negative)]
    exact List.mem_cons_self
  have within := (inside.set (fun _ => true) (fun _ => []) _ ⟨valid,Or.inr ⟨_,.start,first⟩⟩).2
  unfold basicFileinfoSize at within
  omega

theorem all_outside {k : Nat} (high : bodyLen < 2^31) (whole : (((k+1)*basicFileinfoSize : Nat) : Int) ≤ bodyLen)
    (ofAll : (filetypeOf (recordAt body (k*basicFileinfoSize : Nat)) : Int) = filetypeAll) :
    ¬ AccessesInside body bodyLen filetypeAll.toNat := by
  intro inside
  have before : ((k*basicFileinfoSize : Nat) : Int) ≤ bodyLen := by
    rw [Nat.succ_mul] at whole
    omega
  have granted : ∀ node : Nat, (fun _ => true) node = true := fun _ => rfl
  obtain ⟨state,reached,place⟩ := record_reached body filetypeAll.toNat (fun _ => []) high granted k before
  have stored : Access.place (filetypeOf (recordAt body (k*basicFileinfoSize : Nat))) ∈
      saveAccesses body bodyLen filetypeAll.toNat (fun _ => true) state := by
    rw [saveAccesses,place,if_pos ((more_record high before).mpr whole)]
    dsimp only
    rw [if_neg]
    · exact List.mem_cons_of_mem _ List.mem_cons_self
    · rintro ((large | ⟨single,_⟩) | none_left)
      · rw [ofAll] at large
        exact absurd large (by decide)
      · exact single rfl
      · cases none_left
  have within : (filetypeOf (recordAt body (k*basicFileinfoSize : Nat)) : Int) < filetypeAll :=
    inside.set (fun _ => true) (fun _ => []) _ ⟨by decide,Or.inr ⟨state,reached,stored⟩⟩
  rw [ofAll] at within
  exact Int.lt_irrefl _ within

/-- A record of type ALL in an answer for ALL is put behind the end of gpFilelist, and a negative
length is taken for a large one. -/
theorem accesses_inside_iff (body : Body) (type : Nat) (low : -2^31 ≤ bodyLen) (high : bodyLen < 2^31) :
    AccessesInside body bodyLen type ↔ (type = 0 ∨ filetypeMax ≤ (type : Int)) ∨
      0 ≤ bodyLen ∧ ((type : Int) ≠ filetypeAll ∨ ∀ k : Nat, (((k+1)*basicFileinfoSize : Nat) : Int) ≤ bodyLen →
        (filetypeOf (recordAt body (k*basicFileinfoSize : Nat)) : Int) ≠ filetypeAll) := by
  refine ⟨fun inside => ?_,fun cond => ⟨?_,?_,?_⟩⟩
  · by_cases invalid : type = 0 ∨ filetypeMax ≤ (type : Int)
    · exact Or.inl invalid
    · have valid : filetypeVideo ≤ (type : Int) ∧ (type : Int) < filetypeMax := by
        unfold filetypeVideo
        omega
      refine Or.inr ⟨Int.not_lt.mp fun negative => negative_outside valid low negative inside,?_⟩
      by_cases all : (type : Int) = filetypeAll
      · obtain rfl : type = filetypeAll.toNat := by
          rw [← all]
          rfl
        exact Or.inr fun k whole ofAll => all_outside high whole ofAll inside
      · exact Or.inl all
  · rintro malloc gpFilelist access ⟨⟨positive,bound⟩,⟨lists,freed⟩ | ⟨state,reached,touched⟩⟩
    · exact visits_inside freed.1 freed.2
    · have invalid : ¬ (type = 0 ∨ filetypeMax ≤ (type : Int)) := by
        unfold filetypeVideo at positive
        omega
      obtain ⟨nonneg,single⟩ := cond.resolve_left invalid
      exact saveAccesses_inside high (counted_reached high nonneg reached) bound single touched
  · rintro gpFilelist access ⟨bound,visits⟩
    exact visits_inside bound visits
  · rintro malloc gpFilelist access ⟨⟨_,bound⟩,visits⟩
    exact visits_inside bound visits

theorem accesses_inside_empty : AccessesInside (fun _ => 0) 0 15 := by
  refine (accesses_inside_iff (fun _ => 0) 15 (by decide) (by decide)).mpr (Or.inr ⟨by decide,Or.inr fun k whole => ?_⟩)
  unfold basicFileinfoSize at whole
  omega

/-- One record whose type is ALL, and a length that is negative. -/
theorem accesses_outside_all : ¬ AccessesInside (fun i => if i = 0 then 15 else 0) 312 15 ∧
    ¬ AccessesInside (fun _ => 0) (-1) 1 :=
  ⟨all_outside (k := 0) (by decide) (by decide) (by decide),negative_outside (by decide) (by decide) (by decide)⟩

end Loops

end MoCodes.MoCloud.Client.Filelist
