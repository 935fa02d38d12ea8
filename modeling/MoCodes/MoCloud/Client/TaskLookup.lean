import MoCodes.Lib.Loop
import MoCodes.MoCloud.Client.DwldInfoFile

/-! The search loops of getFileId and getDwldFileInfo, under gDwldTasksMutex. No pass of them goes
to the next node. -/
namespace MoCodes.MoCloud.Client.TaskLookup
open Lib.Loop

variable {α : Type}

/-- `pCurNode` is the node with what is behind it, [] being NULL; `locked` is gDwldTasksMutex. -/
structure Lookup where
  pCurNode : List DwldTaskInfo
  locked : Bool

/-- `got` is what has been stored behind the pointers. -/
structure Found (α : Type) where
  ret : Int
  got : Option α
  locked : Bool
  deriving DecidableEq

/-- A pass of either search, `read` being what it takes of a node. -/
def lookupBody (read : DwldTaskInfo → α) (key : FileinfoKey) (state : Lookup) : Outcome Lookup (Found α) :=
  match state.pCurNode with
  | [] => .done ⟨-2,none,false⟩
  | task :: _ => if task.key = key then .done ⟨0,some (read task),false⟩ else .next state

def lookupStart (store : DwldStore) : Lookup := ⟨store.tasks,true⟩

def getFileId : FileinfoKey → Lookup → Outcome Lookup (Found Int) := lookupBody DwldTaskInfo.fileId

def getDwldFileInfo : FileinfoKey → Lookup → Outcome Lookup (Found (Int × Text)) :=
  lookupBody fun task => (task.fileId,task.dwldInfo.localFilepath)

/-- The loop ends with what it took of a node of the key, or tells that there is none, and the mutex
is released. -/
structure Answers (read : DwldTaskInfo → α) (store : DwldStore) (key : FileinfoKey) (result : Found α) : Prop where
  released : result.locked = false
  answer : (result.ret = 0 ∧ ∃ task ∈ store.tasks, task.key = key ∧ result.got = some (read task)) ∨
    (result.ret = -2 ∧ result.got = none ∧ ∀ task ∈ store.tasks, task.key ≠ key)

/-- There is no node, or the first one is that of the key. -/
def FirstOf (store : DwldStore) (key : FileinfoKey) : Prop := ∀ first ∈ store.tasks.head?, first.key = key

instance (store : DwldStore) (key : FileinfoKey) : Decidable (FirstOf store key) :=
  inferInstanceAs (Decidable (∀ first ∈ store.tasks.head?, first.key = key))

variable {read : DwldTaskInfo → α} {store : DwldStore} {key : FileinfoKey} {state : Lookup}

section Passes

theorem lookupBody_stays (first : DwldTaskInfo) (rest : List DwldTaskInfo) (other : first.key ≠ key) (locked : Bool) :
    lookupBody read key ⟨first :: rest,locked⟩ = .next ⟨first :: rest,locked⟩ := if_neg other

theorem lookupBody_found (first : DwldTaskInfo) (rest : List DwldTaskInfo) (same : first.key = key) (locked : Bool) :
    lookupBody read key ⟨first :: rest,locked⟩ = .done ⟨0,some (read first),false⟩ := if_pos same

/-- A search that goes on does so with the mutex, at the node where it was. -/
theorem lookup_reached (reached : Reached (lookupBody read key) (lookupStart store) state) : state = lookupStart store := by
  induction reached with
  | start => rfl
  | next _ step ih =>
    subst ih
    cases nodes : store.tasks with
    | nil =>
      rw [lookupStart,nodes] at step
      cases step
    | cons first rest =>
      rw [lookupStart,nodes] at step
      by_cases same : first.key = key
      · cases (lookupBody_found first rest same true).symm.trans step
      · cases (lookupBody_stays first rest same true).symm.trans step
        rw [lookupStart,nodes]

theorem lookup_hangs (other : ¬ FirstOf store key) : Hangs (lookupBody read key) (lookupStart store) := by
  cases nodes : store.tasks with
  | nil =>
    refine absurd ?_ other
    intro first member
    rw [nodes] at member
    cases member
  | cons first rest =>
    refine hangs_of_fixed ?_
    rw [lookupStart,nodes]
    refine lookupBody_stays first rest (fun same => other ?_) true
    intro task member
    rw [nodes] at member
    cases member
    exact same

theorem lookup_answers (first_of : FirstOf store key) :
    ∃ result, Returns (lookupBody read key) (lookupStart store) result ∧ Answers read store key result := by
  cases nodes : store.tasks with
  | nil =>
    refine ⟨⟨-2,none,false⟩,returns_done ?_,rfl,.inr ⟨rfl,rfl,?_⟩⟩
    · rw [lookupStart,nodes]
      rfl
    · rw [nodes]
      exact fun task member => absurd member List.not_mem_nil
  | cons first rest =>
    have same : first.key = key := first_of first (by rw [nodes]; rfl)
    refine ⟨⟨0,some (read first),false⟩,returns_done ?_,rfl,.inl ⟨rfl,first,?_,same,rfl⟩⟩
    · rw [lookupStart,nodes]
      exact lookupBody_found first rest same true
    · rw [nodes]
      exact List.mem_cons_self

theorem lookup_iff : (∃ result, Returns (lookupBody read key) (lookupStart store) result ∧ Answers read store key result) ↔
    FirstOf store key := by
  refine ⟨fun ⟨result,returns,_⟩ => ?_,lookup_answers⟩
  by_contra other
  exact hangs_not_returns (lookup_hangs other) result returns

end Passes

section Store

def foundOf : Except Int (Int × Text) → Found (Int × Text)
  | .ok got => ⟨0,some got,false⟩
  | .error ret => ⟨ret,none,false⟩

theorem getDwldFileInfo_ends (ends : FirstOf store key) : ∃ answer, store.getDwldFileInfo key = some answer := by
  rw [DwldStore.getDwldFileInfo]
  cases nodes : store.tasks with
  | nil => exact ⟨_,rfl⟩
  | cons first rest => exact ⟨_,if_pos (ends first (by rw [nodes]; rfl))⟩

theorem getDwldFileInfo_returns (answer : Except Int (Int × Text)) :
    store.getDwldFileInfo key = some answer ↔ Returns (getDwldFileInfo key) (lookupStart store) (foundOf answer) := by
  have forward : ∀ answer, store.getDwldFileInfo key = some answer →
      Returns (getDwldFileInfo key) (lookupStart store) (foundOf answer) := by
    intro answer found
    rw [DwldStore.getDwldFileInfo] at found
    refine returns_done ?_
    cases nodes : store.tasks with
    | nil =>
      rw [nodes] at found
      cases found
      rw [lookupStart,nodes]
      rfl
    | cons first rest =>
      rw [nodes] at found
      dsimp only at found
      split_ifs at found with same
      cases found
      rw [lookupStart,nodes]
      exact lookupBody_found first rest same true
  refine ⟨forward answer,fun returns => ?_⟩
  have ends : FirstOf store key := by
    by_contra other
    exact hangs_not_returns (lookup_hangs other) _ returns
  obtain ⟨other,found⟩ := getDwldFileInfo_ends ends
  have same : foundOf other = foundOf answer := returns_unique (forward other found) returns
  cases other <;> cases answer <;> cases same
  · exact found
  · exact found

end Store

/-- Both searches end, with the mutex released, just when they end at the first node. -/
theorem lookup_ends_iff (store : DwldStore) (key : FileinfoKey) :
    ((∃ result, Returns (getDwldFileInfo key) (lookupStart store) result ∧
        Answers (fun task => (task.fileId,task.dwldInfo.localFilepath)) store key result) ∧
      ∃ result, Returns (getFileId key) (lookupStart store) result ∧ Answers DwldTaskInfo.fileId store key result) ↔
      FirstOf store key := by
  rw [getDwldFileInfo,getFileId,lookup_iff,lookup_iff,and_self]

theorem lookup_keeps_mutex (other : ¬ FirstOf store key) : Hangs (getDwldFileInfo key) (lookupStart store) ∧
    ∀ state, Reached (getDwldFileInfo key) (lookupStart store) state → state.locked = true :=
  ⟨lookup_hangs other,fun _ reached => by rw [lookup_reached reached]; rfl⟩

section Older

def older : FileinfoKey := ⟨filetypeVideo,text "old"⟩

def twoTasks : DwldStore where
  tasks := [⟨⟨⟨filetypeVideo,text "new"⟩,9,text "/new",0,true⟩,1,1,1⟩,⟨⟨older,9,text "/old",0,true⟩,0,0,0⟩]
  nodes := 2

theorem lookup_older_hangs : (∃ task ∈ twoTasks.tasks, task.key = older) ∧
    ¬ ∃ result, Returns (getDwldFileInfo older) (lookupStart twoTasks) result := by
  refine ⟨by decide,?_⟩
  rintro ⟨result,returns⟩
  exact hangs_not_returns (lookup_hangs (by decide)) result returns

end Older

end MoCodes.MoCloud.Client.TaskLookup
