import MoCodes.Cps.Server.Heartbeat
import MoCodes.Lib.Transition

/-! cliMgrInit and cliMgrUnInit of cliMgr.c beside the thread of checkHeartbeatThr. The list
is freed without `gMutex`, after a wait for the state that the thread leaves at the end of
each of its passes. What the other routines make of the list, each under `gMutex`, is one
step. -/
namespace MoCodes.Cps.Server.Shutdown
open MoCodes.Lib.Loop MoCodes.Lib.LinkedList MoCodes.Lib.Transition

inductive THR_RUNSTATE where
  | running
  | stoped
  deriving DecidableEq,Repr

/-- Where checkHeartbeatThr is; `crashed` after an access to what is not allocated. -/
inductive CheckPlace where
  | absent
  | testRunning
  | select
  | lock
  | readHead
  | sweep (pPreNode : Nat) (pCurNode : Option Nat)
  | setStoped
  | unlock
  | ended
  | crashed
  deriving DecidableEq,Repr

/-- Where the thread is that calls cliMgrInit, from its startCheckHeartbeatThr on, and then
cliMgrUnInit. -/
inductive MgrPlace where
  | setRunning
  | create
  | setState
  | serving
  | wait
  | readHead
  | freeNodes (pPreNode : Nat) (pCurNode : Option Nat)
  | freeHead
  | setNull
  | done
  | crashed
  deriving DecidableEq,Repr

structure MgrState where
  mgr : MgrPlace
  thr : CheckPlace
  gCheckHeartbeatThrRunning : Bool
  gCheckHeartbeatThrState : THR_RUNSTATE
  gMutex : Bool
  gpCliInfoListHead : Option Nat
  heap : CliMgrHeap

inductive MgrEvent where
  | mgr
  | pthreadCreate (created : Bool)
  | thr (clock : Int)
  | call (heap : CliMgrHeap)

namespace MgrState

variable (s : MgrState)

/-- `pPreNode = gpCliInfoListHead; pCurNode = gpCliInfoListHead->next;` -/
def readHead : Option (Nat × Option Nat) :=
  s.gpCliInfoListHead.bind fun head => (s.heap head).map fun node => (head,node.next)

def mgrStep : MgrState :=
  match s.mgr with
  | .setRunning => { s with gCheckHeartbeatThrRunning := true, mgr := .create }
  | .setState => { s with gCheckHeartbeatThrState := .running, mgr := .serving }
  | .serving => { s with gCheckHeartbeatThrRunning := false, mgr := .wait }
  | .wait => if s.gCheckHeartbeatThrState = .running then s else { s with mgr := .readHead }
  | .readHead => match s.readHead with
    | some (pPreNode,pCurNode) => { s with mgr := .freeNodes pPreNode pCurNode }
    | none => { s with mgr := .crashed }
  | .freeNodes pPreNode (some pCurNode) => match unlink s.heap pPreNode pCurNode with
    | some (heap,next) => { s with heap, mgr := .freeNodes pPreNode next }
    | none => { s with mgr := .crashed }
  | .freeNodes _ none => { s with mgr := .freeHead }
  | .freeHead => match s.gpCliInfoListHead with
    | some head => { s with heap := free s.heap head, mgr := .setNull }
    | none => { s with mgr := .setNull }
  | .setNull => { s with gpCliInfoListHead := none, mgr := .done }
  | .create => s
  | .done => s
  | .crashed => s

/-- pthread_create tells its failures by positive numbers, and the code goes on. -/
def pthreadCreate (created : Bool) : MgrState :=
  { s with mgr := .setState, thr := if created then .testRunning else .absent }

def thrStep (clock : Int) : MgrState :=
  match s.thr with
  | .testRunning => { s with thr := if s.gCheckHeartbeatThrRunning then .select else .ended }
  | .select => { s with thr := .lock }
  | .lock => { s with gMutex := true, thr := .readHead }
  | .readHead => match s.readHead with
    | some (pPreNode,pCurNode) => { s with thr := .sweep pPreNode pCurNode }
    | none => { s with thr := .crashed }
  | .sweep pPreNode pCurNode => match checkHeartbeatBody (fun _ => clock) ⟨s.heap,pPreNode,pCurNode,0,[]⟩ with
    | .next check => { s with heap := check.heap, thr := .sweep check.pPreNode check.pCurNode }
    | .done (some (heap,_)) => { s with heap, thr := .setStoped }
    | .done none => { s with thr := .crashed }
  | .setStoped => { s with gCheckHeartbeatThrState := .stoped, thr := .unlock }
  | .unlock => { s with gMutex := false, thr := .testRunning }
  | .absent => s
  | .ended => s
  | .crashed => s

def Enabled : MgrEvent → Prop
  | .mgr => s.mgr ≠ .create ∧ s.mgr ≠ .done ∧ s.mgr ≠ .crashed
  | .pthreadCreate _ => s.mgr = .create
  | .thr _ => s.thr ≠ .absent ∧ s.thr ≠ .ended ∧ s.thr ≠ .crashed ∧ (s.thr = .lock → s.gMutex = false)
  | .call heap => s.gMutex = false ∧ (s.mgr = .serving ∨ s.mgr = .wait) ∧
      ∃ head cells, s.gpCliInfoListHead = some head ∧ Listed heap head cells

def next : MgrEvent → MgrState
  | .mgr => s.mgrStep
  | .pthreadCreate created => s.pthreadCreate created
  | .thr clock => s.thrStep clock
  | .call heap => { s with heap }

/-- The loop that frees the nodes has begun. -/
def Freeing : Prop :=
  match s.mgr with
  | .freeNodes _ _ | .freeHead | .setNull | .done => True
  | _ => False

def Cleared : Prop :=
  match s.mgr with
  | .setRunning | .create | .setState | .serving => False
  | _ => True

def Unmade : Prop := s.mgr = .setRunning ∨ s.mgr = .create

/-- The next step of the heartbeat thread goes to the list. -/
def Accessing : Prop :=
  match s.thr with
  | .readHead | .sweep _ _ => True
  | _ => False

/-- The thread has no access left to make once the flag is cleared. -/
def Past : Prop :=
  match s.thr with
  | .absent | .setStoped | .unlock | .testRunning | .ended => True
  | _ => False

end MgrState

def mgrSystem : System MgrState MgrEvent := ⟨MgrState.Enabled,MgrState.next⟩

def initial (head : Nat) : MgrState where
  mgr := .setRunning
  thr := .absent
  gCheckHeartbeatThrRunning := false
  gCheckHeartbeatThrState := .stoped
  gMutex := false
  gpCliInfoListHead := some head
  heap := fun addr => if addr = head then some ⟨⟨0,0,0,.idle,0⟩,none⟩ else none

/-- The flag is cleared while the state still tells that no pass is over, or between the last
access of a pass and the next test of the flag. -/
def inTime (s : MgrState) : MgrEvent → Prop
  | .mgr => s.mgr = .serving → s.gCheckHeartbeatThrState = .running ∨ s.Past
  | _ => True

section Sweeping

variable {heap : CliMgrHeap} {head pre : Nat} {cur : Option Nat}

def Sweeping (heap : CliMgrHeap) (head pre : Nat) (cur : Option Nat) : Prop :=
  ∃ front info rest, Seg heap (some head) (front++[(pre,info)]) cur ∧ Seg heap cur rest none ∧
    (addrs (front++(pre,info)::rest)).Nodup

theorem sweeping_start {cells : List (Cell CliInfo)} (listed : Listed heap head cells) :
    ∃ node, heap head = some node ∧ Sweeping heap head head node.next := by
  obtain ⟨⟨info,first,here,seg⟩,nodup⟩ := listed
  exact ⟨⟨info,first⟩,here,[],info,cells,⟨rfl,first,here,rfl⟩,seg,nodup⟩

theorem listed_of_seg {cells : List (Cell CliInfo)} (more : cells ≠ []) (seg : Seg heap (some head) cells none)
    (nodup : (addrs cells).Nodup) : ∃ cells, Listed heap head cells := by
  cases cells with
  | nil => exact absurd rfl more
  | cons cell cells =>
    obtain ⟨at_head,first,here,rest⟩ := seg
    cases at_head
    exact ⟨cells,⟨⟨cell.2,first,here,rest⟩,nodup⟩⟩

theorem sweeping_head (sweeping : Sweeping heap head pre cur) : ∃ node, heap head = some node := by
  obtain ⟨front,info,rest,before,_⟩ := sweeping
  cases front with
  | nil =>
    obtain ⟨at_head,first,here,_⟩ := before
    cases at_head
    exact ⟨_,here⟩
  | cons cell front =>
    obtain ⟨at_head,first,here,_⟩ := before
    cases at_head
    exact ⟨_,here⟩

theorem sweeping_move {front rest : List (Cell CliInfo)} {pre cell : Cell CliInfo} {info : CliInfo}
    {next : Option Nat} (before : Seg heap (some head) (front++[pre]) (some cell.1))
    (here : heap cell.1 = some ⟨info,next⟩) (behind : Seg heap next rest none)
    (nodup : (addrs (front++pre::cell::rest)).Nodup) : Sweeping heap head cell.1 next := by
  refine ⟨front++[pre],info,rest,seg_append.mpr ⟨_,before,rfl,next,here,rfl⟩,behind,?_⟩
  simpa [addrs] using nodup

theorem body_sweeping (clock : Nat → Int) (clocks : Nat) (notified : List Int)
    (sweeping : Sweeping heap head pre cur) :
    match checkHeartbeatBody clock ⟨heap,pre,cur,clocks,notified⟩ with
    | .next check => Sweeping check.heap head check.pPreNode check.pCurNode
    | .done (some (after,_)) => ∃ cells, Listed after head cells
    | .done none => False := by
  obtain ⟨front,info,rest,before,behind,nodup⟩ := sweeping
  cases rest with
  | nil =>
    cases behind
    exact listed_of_seg (by simp) before nodup
  | cons cell rest =>
    obtain ⟨rfl,next,here,tail⟩ := behind
    cases state : cell.2.state with
    | idle | ctrlSockIn | keyAgreed =>
      simp only [checkHeartbeatBody,here,state]
      exact sweeping_move before here tail nodup
    | heartbeat =>
      simp only [checkHeartbeatBody,here,state]
      split
      · have distinct : addrs (front++(pre,info)::cell::rest) =
            addrs (front++[(pre,info)])++cell.1::addrs rest := by simp [addrs]
        obtain ⟨_,later,cross⟩ := List.nodup_append.mp (distinct ▸ nodup)
        have apart : cell.1 ∉ addrs (front++[(pre,info)]) :=
          fun member => cross _ member _ List.mem_cons_self rfl
        exact sweeping_move (seg_write apart before) (Function.update_self ..)
          (seg_write (List.nodup_cons.mp later).1 tail) nodup
      · exact sweeping_move before here tail nodup
    | stopped =>
      have chain : Seg heap (some head) (front++(pre,info)::cell::rest) none := by
        have behind : Seg heap (some cell.1) (cell::rest) none := ⟨rfl,next,here,tail⟩
        have whole := seg_append.mpr ⟨_,before,behind⟩
        rwa [List.append_assoc] at whole
      obtain ⟨after,link,unlinked,kept,left⟩ := seg_unlink chain nodup
      simp only [checkHeartbeatBody,here,state,unlinked]
      refine ⟨front,info,rest,kept,left,?_⟩
      apply List.Nodup.sublist _ nodup
      simp [addrs]

end Sweeping

def CheckPlace.holds : CheckPlace → Bool
  | .readHead | .sweep _ _ | .setStoped | .unlock | .crashed => true
  | _ => false

/-- Until the freeing begins the list is one, and a sweep is somewhere on it. -/
structure Kept (s : MgrState) : Prop where
  unmade : s.Unmade → s.thr = .absent
  mutex : s.gMutex = s.thr.holds
  list : ¬ s.Freeing → s.mgr ≠ .crashed → ∃ head, s.gpCliInfoListHead = some head ∧
    match s.thr with
    | .sweep pre cur => Sweeping s.heap head pre cur
    | .crashed => False
    | _ => ∃ cells, Listed s.heap head cells

section Steps

variable {s : MgrState} {event : MgrEvent}

theorem kept_initial (head : Nat) : Kept (initial head) :=
  ⟨fun _ => rfl,rfl,fun _ _ => ⟨head,rfl,[],⟨_,none,if_pos rfl,rfl⟩,List.nodup_singleton head⟩⟩

theorem readHead_kept {head : Nat} {cells : List (Cell CliInfo)} (at_head : s.gpCliInfoListHead = some head)
    (listed : Listed s.heap head cells) : ∃ cur, s.readHead = some (head,cur) ∧ Sweeping s.heap head head cur := by
  obtain ⟨node,here,sweeping⟩ := sweeping_start listed
  exact ⟨node.next,by simp [MgrState.readHead,at_head,here],sweeping⟩

theorem kept_thr (clock : Int) (kept : Kept s) (enabled : s.Enabled (.thr clock)) : Kept (s.thrStep clock) := by
  obtain ⟨unmade,mutex,list⟩ := kept
  obtain ⟨there,running,sound,_⟩ := enabled
  have made : ¬ s.Unmade := fun early => there (unmade early)
  cases place : s.thr with
  | absent => exact absurd place there
  | ended => exact absurd place running
  | crashed => exact absurd place sound
  | testRunning =>
    simp only [place] at mutex list
    simp only [MgrState.thrStep,place]
    split <;> exact ⟨fun early => absurd early made,mutex,list⟩
  | select =>
    simp only [place] at mutex list
    simp only [MgrState.thrStep,place]
    exact ⟨fun early => absurd early made,mutex,list⟩
  | lock =>
    simp only [place] at list
    simp only [MgrState.thrStep,place]
    exact ⟨fun early => absurd early made,rfl,list⟩
  | readHead =>
    simp only [place] at mutex list
    cases found : s.readHead with
    | some pair =>
      simp only [MgrState.thrStep,place,found]
      refine ⟨fun early => absurd early made,mutex,fun whole ok => ?_⟩
      obtain ⟨head,at_head,cells,listed⟩ := list whole ok
      obtain ⟨cur,read,sweeping⟩ := readHead_kept at_head listed
      cases found.symm.trans read
      exact ⟨head,at_head,sweeping⟩
    | none =>
      simp only [MgrState.thrStep,place,found]
      refine ⟨fun early => absurd early made,mutex,fun whole ok => ?_⟩
      obtain ⟨head,at_head,cells,listed⟩ := list whole ok
      obtain ⟨cur,read,_⟩ := readHead_kept at_head listed
      cases found.symm.trans read
  | sweep pre cur =>
    simp only [place] at mutex list
    cases pass : checkHeartbeatBody (fun _ => clock) ⟨s.heap,pre,cur,0,[]⟩ with
    | next check =>
      simp only [MgrState.thrStep,place,pass]
      refine ⟨fun early => absurd early made,mutex,fun whole ok => ?_⟩
      obtain ⟨head,at_head,sweeping⟩ := list whole ok
      have stays := body_sweeping (fun _ => clock) 0 [] sweeping
      rw [pass] at stays
      exact ⟨head,at_head,stays⟩
    | done result =>
      cases result with
      | some left =>
        simp only [MgrState.thrStep,place,pass]
        refine ⟨fun early => absurd early made,mutex,fun whole ok => ?_⟩
        obtain ⟨head,at_head,sweeping⟩ := list whole ok
        have ended := body_sweeping (fun _ => clock) 0 [] sweeping
        rw [pass] at ended
        exact ⟨head,at_head,ended⟩
      | none =>
        simp only [MgrState.thrStep,place,pass]
        refine ⟨fun early => absurd early made,mutex,fun whole ok => ?_⟩
        obtain ⟨head,at_head,sweeping⟩ := list whole ok
        have fault := body_sweeping (fun _ => clock) 0 [] sweeping
        rw [pass] at fault
        exact fault.elim
  | setStoped =>
    simp only [place] at mutex list
    simp only [MgrState.thrStep,place]
    exact ⟨fun early => absurd early made,mutex,list⟩
  | unlock =>
    simp only [place] at list
    simp only [MgrState.thrStep,place]
    exact ⟨fun early => absurd early made,rfl,list⟩

theorem mgr_frame (s : MgrState) : s.mgrStep.thr = s.thr ∧ s.mgrStep.gMutex = s.gMutex ∧
    (s.mgrStep.Unmade → s.Unmade) ∧
    (s.Cleared → s.mgrStep.Cleared ∧ s.mgrStep.gCheckHeartbeatThrRunning = s.gCheckHeartbeatThrRunning) ∧
    (¬ s.mgrStep.Freeing → s.mgrStep.mgr ≠ .crashed → ¬ s.Freeing ∧ s.mgr ≠ .crashed ∧
      s.mgrStep.gpCliInfoListHead = s.gpCliInfoListHead ∧ s.mgrStep.heap = s.heap) := by
  cases place : s.mgr with
  | freeNodes pre cur =>
    cases cur with
    | none => simp [MgrState.mgrStep,place,MgrState.Freeing,MgrState.Unmade,MgrState.Cleared]
    | some cur =>
      cases left : unlink s.heap pre cur <;>
        simp [MgrState.mgrStep,place,left,MgrState.Freeing,MgrState.Unmade,MgrState.Cleared]
  | freeHead =>
    cases head : s.gpCliInfoListHead <;>
      simp [MgrState.mgrStep,place,head,MgrState.Freeing,MgrState.Unmade,MgrState.Cleared]
  | readHead =>
    cases found : s.readHead <;>
      simp [MgrState.mgrStep,place,found,MgrState.Freeing,MgrState.Unmade,MgrState.Cleared]
  | wait =>
    by_cases running : s.gCheckHeartbeatThrState = .running <;>
      simp [MgrState.mgrStep,place,running,MgrState.Freeing,MgrState.Unmade,MgrState.Cleared]
  | _ => simp [MgrState.mgrStep,place,MgrState.Freeing,MgrState.Unmade,MgrState.Cleared]

theorem kept_mgr (kept : Kept s) : Kept s.mgrStep := by
  obtain ⟨thr,held,early,_,late⟩ := mgr_frame s
  refine ⟨fun unmade => ?_,by rw [held,thr,kept.mutex],fun whole ok => ?_⟩
  · rw [thr]
    exact kept.unmade (early unmade)
  · obtain ⟨before,sound,head,heap⟩ := late whole ok
    rw [head,heap,thr]
    exact kept.list before sound

theorem kept_next (kept : Kept s) (enabled : s.Enabled event) : Kept (s.next event) := by
  cases event with
  | mgr => exact kept_mgr kept
  | thr clock => exact kept_thr clock kept enabled
  | pthreadCreate created =>
    have unmade := kept.unmade (.inr enabled)
    have free := kept.mutex
    have list := kept.list (by simp [MgrState.Freeing,show s.mgr = .create from enabled])
      (by simp [show s.mgr = .create from enabled])
    rw [unmade] at free list
    refine ⟨fun early => ?_,?_,fun _ _ => ?_⟩
    · rcases early with early | early <;> cases early
    · cases created <;> exact free
    · cases created <;> exact list
  | call heap =>
    obtain ⟨free,_,head,cells,at_head,listed⟩ := enabled
    refine ⟨kept.unmade,kept.mutex,fun _ _ => ⟨head,at_head,?_⟩⟩
    have mutex := kept.mutex
    rw [free] at mutex
    simp only [MgrState.next]
    split
    · next place =>
      rw [place] at mutex
      cases mutex
    · next place =>
      rw [place] at mutex
      cases mutex
    · exact ⟨cells,listed⟩

theorem kept_run {head : Nat} {allowed : MgrState → MgrEvent → Prop}
    (run : mgrSystem.Run allowed (initial head) s) : Kept s :=
  run_invariant (kept_initial head) (fun kept enabled _ => kept_next kept enabled) run

/-- Once the flag is cleared the freeing waits for the pass that is under way, unless the
thread has no access left to make. -/
def InTime (s : MgrState) : Prop :=
  s.Cleared ∧ s.gCheckHeartbeatThrRunning = false ∧
    (s.mgr = .wait ∧ s.gCheckHeartbeatThrState = .running ∨ s.Past)

theorem inTime_clear (serving : s.mgr = .serving) (ok : inTime s .mgr) : InTime (s.next .mgr) := by
  have cleared : s.next .mgr = { s with gCheckHeartbeatThrRunning := false, mgr := .wait } := by
    simp only [MgrState.next,MgrState.mgrStep,serving]
  rw [cleared]
  rcases ok serving with running | past
  · exact ⟨trivial,rfl,.inl ⟨rfl,running⟩⟩
  · exact ⟨trivial,rfl,.inr past⟩

theorem past_iff : s.Past ↔ s.thr = .absent ∨ s.thr = .setStoped ∨ s.thr = .unlock ∨ s.thr = .testRunning ∨
    s.thr = .ended := by
  cases place : s.thr <;> simp [MgrState.Past,place]

theorem inTime_mgr (ok : InTime s) : InTime s.mgrStep := by
  obtain ⟨cleared,flag,waiting | past⟩ := ok
  · have stays : s.mgrStep = s := by simp only [MgrState.mgrStep,waiting.1,waiting.2,if_true]
    rw [stays]
    exact ⟨cleared,flag,.inl waiting⟩
  · obtain ⟨thr,_,_,onward,_⟩ := mgr_frame s
    obtain ⟨still,same⟩ := onward cleared
    refine ⟨still,same.trans flag,.inr ?_⟩
    rw [past_iff,thr,← past_iff]
    exact past

theorem thr_frame (s : MgrState) (clock : Int) : (s.thrStep clock).mgr = s.mgr ∧
    (s.thrStep clock).gCheckHeartbeatThrRunning = s.gCheckHeartbeatThrRunning ∧
    ((s.thrStep clock).gCheckHeartbeatThrState = s.gCheckHeartbeatThrState ∨ (s.thrStep clock).thr = .unlock) := by
  cases place : s.thr with
  | readHead => cases found : s.readHead <;> simp [MgrState.thrStep,place,found]
  | sweep pre cur =>
    cases pass : checkHeartbeatBody (fun _ => clock) ⟨s.heap,pre,cur,0,[]⟩ with
    | next check => simp [MgrState.thrStep,place,pass]
    | done result => cases result <;> simp [MgrState.thrStep,place,pass]
  | _ => simp [MgrState.thrStep,place]

theorem past_thr (flag : s.gCheckHeartbeatThrRunning = false) (past : s.Past) (clock : Int) :
    (s.thrStep clock).Past := by
  rw [past_iff] at past ⊢
  rcases past with place | place | place | place | place <;> simp [MgrState.thrStep,place,flag]

theorem inTime_thr (ok : InTime s) (clock : Int) : InTime (s.thrStep clock) := by
  obtain ⟨cleared,flag,waits⟩ := ok
  obtain ⟨place,flag',state⟩ := thr_frame s clock
  have still : (s.thrStep clock).Cleared := by
    rw [MgrState.Cleared,place]
    exact cleared
  refine ⟨still,flag'.trans flag,?_⟩
  rcases waits with ⟨waiting,running⟩ | past
  · rcases state with same | unlock
    · exact .inl ⟨place.trans waiting,same.trans running⟩
    · exact .inr (past_iff.mpr (.inr (.inr (.inl unlock))))
  · exact .inr (past_thr flag past clock)

theorem inTime_next (ok : InTime s) (enabled : s.Enabled event) : InTime (s.next event) := by
  cases event with
  | mgr => exact inTime_mgr ok
  | thr clock => exact inTime_thr ok clock
  | pthreadCreate created =>
    have place : s.mgr = .create := enabled
    have cleared := ok.1
    simp [MgrState.Cleared,place] at cleared
  | call heap => exact ok

theorem past_not_accessing (past : s.Past) : ¬ s.Accessing := by
  rcases past_iff.mp past with place | place | place | place | place <;> simp [MgrState.Accessing,place]

theorem inTime_safe (ok : InTime s) (freeing : s.Freeing) : ¬ s.Accessing := by
  obtain ⟨_,_,⟨waiting,_⟩ | past⟩ := ok
  · simp [MgrState.Freeing,waiting] at freeing
  · exact past_not_accessing past

theorem cleared_by (before : ¬ s.Cleared) (enabled : s.Enabled event) (after : (s.next event).Cleared) :
    event = .mgr ∧ s.mgr = .serving := by
  cases event with
  | mgr =>
    refine ⟨rfl,?_⟩
    cases place : s.mgr <;>
      simp [MgrState.Cleared,MgrState.next,MgrState.mgrStep,place] at before after ⊢
  | thr clock =>
    rw [MgrState.next,MgrState.Cleared,(thr_frame s clock).1] at after
    exact absurd after before
  | pthreadCreate created => cases after
  | call heap => exact absurd after before

theorem inTime_run {head : Nat} (run : mgrSystem.Run inTime (initial head) s) : s.Cleared → InTime s := by
  refine run_invariant (I := fun s : MgrState => s.Cleared → InTime s) ?_ ?_ run
  · intro cleared
    cases cleared
  · intro s event before enabled ok cleared
    by_cases already : s.Cleared
    · exact inTime_next (before already) enabled
    · obtain ⟨rfl,serving⟩ := cleared_by already enabled cleared
      exact inTime_clear serving ok

theorem freeing_cleared (freeing : s.Freeing) : s.Cleared := by
  cases place : s.mgr <;> simp [MgrState.Freeing,MgrState.Cleared,place] at freeing ⊢

theorem kept_readHead (kept : Kept s) (whole : ¬ s.Freeing) (ok : s.mgr ≠ .crashed) :
    ∃ head cur, s.readHead = some (head,cur) := by
  obtain ⟨head,at_head,list⟩ := kept.list whole ok
  have here : ∃ node, s.heap head = some node := by
    split at list
    · exact sweeping_head list
    · exact list.elim
    · obtain ⟨cells,listed⟩ := list
      exact ⟨_,(sweeping_start listed).choose_spec.1⟩
  obtain ⟨node,here⟩ := here
  exact ⟨head,node.next,by simp [MgrState.readHead,at_head,here]⟩

/-- Where the flag is cleared too late the thread is found at the list that is being freed. -/
theorem late_accessing (kept : Kept s) (serving : s.mgr = .serving) (late : ¬ inTime s .mgr) :
    ∃ after, mgrSystem.Run anyEvent (s.next .mgr) after ∧ after.Freeing ∧ after.Accessing := by
  have before : ¬ s.Freeing ∧ s.mgr ≠ .crashed := by simp [MgrState.Freeing,serving]
  obtain ⟨head,cur,read⟩ := kept_readHead kept before.1 before.2
  have stoped : s.gCheckHeartbeatThrState ≠ .running := fun running => late fun _ => .inl running
  have notPast : ¬ s.Past := fun past => late fun _ => .inr past
  let freeing : MgrState := { s with gCheckHeartbeatThrRunning := false, mgr := .freeNodes head cur }
  have frees : mgrSystem.Run anyEvent (s.next .mgr) freeing := by
    have cleared : s.next .mgr = { s with gCheckHeartbeatThrRunning := false, mgr := .wait } := by
      simp only [MgrState.next,MgrState.mgrStep,serving]
    have leaves : mgrSystem.Run anyEvent (s.next .mgr)
        { s with gCheckHeartbeatThrRunning := false, mgr := .readHead } := by
      rw [cleared]
      exact run_event .mgr .start (by simp [mgrSystem,MgrState.Enabled])
        (by simp [mgrSystem,MgrState.next,MgrState.mgrStep,stoped])
    refine run_event .mgr leaves (by simp [mgrSystem,MgrState.Enabled]) ?_
    have found : MgrState.readHead { s with gCheckHeartbeatThrRunning := false, mgr := .readHead } =
      some (head,cur) := read
    simp only [mgrSystem,MgrState.next,MgrState.mgrStep,found,freeing]
  have locks : ∀ before : MgrState, before.thr = .lock → before.gMutex = false →
      mgrSystem.Run anyEvent before { before with gMutex := true, thr := .readHead } := by
    intro before place free
    exact run_event (.thr 0) .start (by simp [mgrSystem,MgrState.Enabled,place,free])
      (by simp only [mgrSystem,MgrState.next,MgrState.thrStep,place])
  cases place : s.thr with
  | readHead => exact ⟨freeing,frees,trivial,by simp [MgrState.Accessing,freeing,place]⟩
  | sweep pre cur => exact ⟨freeing,frees,trivial,by simp [MgrState.Accessing,freeing,place]⟩
  | lock =>
    have free : s.gMutex = false := by rw [kept.mutex,place]; rfl
    exact ⟨_,run_trans frees (locks freeing place free),trivial,trivial⟩
  | select =>
    have free : s.gMutex = false := by rw [kept.mutex,place]; rfl
    have waits : mgrSystem.Run anyEvent (s.next .mgr) { freeing with thr := .lock } :=
      run_event (.thr 0) frees (by simp [mgrSystem,MgrState.Enabled,freeing,place])
        (by simp only [mgrSystem,MgrState.next,MgrState.thrStep,freeing,place])
    exact ⟨_,run_trans waits (locks _ rfl free),trivial,trivial⟩
  | crashed =>
    obtain ⟨_,_,list⟩ := kept.list before.1 before.2
    rw [place] at list
    exact list.elim
  | _ => exact absurd (by simp [MgrState.Past,place]) notPast

/-- Where the flag is cleared in time the thread never comes upon what is not allocated. -/
theorem never_crashed {head : Nat} (run : mgrSystem.Run inTime (initial head) s) : s.thr ≠ .crashed := by
  intro place
  by_cases before : s.Freeing ∨ s.mgr = .crashed
  · have cleared : s.Cleared ∧ s.mgr ≠ .wait := by
      rcases before with freeing | gone
      · refine ⟨freeing_cleared freeing,fun waiting => ?_⟩
        simp [MgrState.Freeing,waiting] at freeing
      · simp [MgrState.Cleared,gone]
    obtain ⟨_,_,waiting | past⟩ := inTime_run run cleared.1
    · exact cleared.2 waiting.1
    · simp [past_iff,place] at past
  · rw [not_or] at before
    obtain ⟨_,_,list⟩ := (kept_run run).list before.1 before.2
    rw [place] at list
    exact list

end Steps

/-- Along the runs that clear the flag in time the list is freed after the last access, and
after any other clearing the thread may come to the list while it is freed. -/
theorem list_freed_after_access (head : Nat) :
    (∀ s, mgrSystem.Run inTime (initial head) s → s.Freeing → ¬ s.Accessing) ∧
      ∀ s, mgrSystem.Run anyEvent (initial head) s → s.mgr = .serving →
        (inTime s .mgr ↔ ∀ after, mgrSystem.Run anyEvent (s.next .mgr) after → after.Freeing → ¬ after.Accessing) := by
  constructor
  · intro s run freeing
    exact inTime_safe (inTime_run run (freeing_cleared freeing)) freeing
  · intro s run serving
    constructor
    · intro ok after later freeing
      have keeps : InTime after := run_invariant (inTime_clear serving ok)
        (fun before enabled _ => inTime_next before enabled) later
      exact inTime_safe keeps freeing
    · intro safe
      by_contra late
      obtain ⟨after,later,freeing,accessing⟩ := late_accessing (kept_run run) serving late
      exact safe after later freeing accessing

def started : List MgrEvent := [.mgr,.pthreadCreate true,.mgr,.thr 0,.thr 0]

def pass : List MgrEvent := [.thr 0,.thr 0,.thr 0,.thr 0,.thr 0,.thr 0]

/-- The flag is cleared in the second pass, and the thread goes to the freed head node. -/
def lateEvents : List MgrEvent := started++pass++[.mgr,.mgr,.mgr,.mgr,.mgr,.thr 0,.thr 0]

theorem late_follows : mgrSystem.Follows anyEvent (initial 0) lateEvents := by
  simp [lateEvents,started,pass,System.Follows,anyEvent,mgrSystem,MgrState.Enabled,MgrState.next,MgrState.mgrStep,
    MgrState.thrStep,MgrState.pthreadCreate,initial,MgrState.readHead,checkHeartbeatBody]

theorem list_accessed_while_freed : ∃ s, mgrSystem.Run anyEvent (initial 0) s ∧ s.Freeing ∧ s.Accessing ∧
    (s.next (.thr 0)).thr = .crashed :=
  ⟨_,run_of_events late_follows .start,trivial,trivial,rfl⟩

def timelyEvents : List MgrEvent := started++[.mgr]++pass++[.mgr,.mgr,.mgr,.mgr]

theorem timely_follows : mgrSystem.Follows inTime (initial 0) timelyEvents := by
  simp [timelyEvents,started,pass,System.Follows,inTime,mgrSystem,MgrState.Enabled,MgrState.next,MgrState.mgrStep,
    MgrState.thrStep,MgrState.pthreadCreate,initial,MgrState.readHead,checkHeartbeatBody]

theorem list_freed_in_time : ∃ s, mgrSystem.Run inTime (initial 0) s ∧ s.Freeing ∧ ¬ s.Accessing :=
  have run := run_of_events timely_follows .start
  ⟨_,run,trivial,(list_freed_after_access 0).1 _ run trivial⟩

end MoCodes.Cps.Server.Shutdown
