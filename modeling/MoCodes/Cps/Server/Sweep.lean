import MoCodes.Cps.Server.Cri
import Mathlib.Data.List.DropRight
import Mathlib.Data.List.Induction
import Mathlib.Data.List.Nodup

/-! One sweep of `criCheckThr` over the client-running-info list. The trailing pointer
`pPreNode` stays at the head node, so every node that is removed takes the kept nodes
before it out of the list as well. -/
namespace MoCodes.Cps.Server
open MoCodes.Lib.Loop MoCodes.Lib.LinkedList

inductive SweepAction where
  | killThread (thId : Nat)
  | cliMgrDeleteCli (ctrlSockId : Int)
  deriving DecidableEq,Repr

structure Sweep where
  heap : CriHeap
  pPreNode : Nat
  pCurNode : Option Nat
  actions : List SweepAction

def isDeleting (info : CliRunningInfo) : Bool := info.ctrlThrState == .deleting

def markDeleted (info : CliRunningInfo) : CliRunningInfo :=
  {info with
    ctrlThrState := .deleted
    dataThrState := if info.dataThrState = .deleting then .deleted else info.dataThrState}

def deleteActions (info : CliRunningInfo) : List SweepAction :=
  .killThread info.ctrlThrId ::
    ((if info.dataThrState = .deleting then [.killThread info.dataThrId] else []) ++
      [.cliMgrDeleteCli info.ctrlSockId])

def sweepBody (sweep : Sweep) : Outcome Sweep (Option (CriHeap × List SweepAction)) :=
  match sweep.pCurNode with
  | none => .done (some (sweep.heap,sweep.actions))
  | some pCurNode =>
    match sweep.heap pCurNode with
    | none => .done none
    | some node =>
      if isDeleting node.info then
        let marked := write sweep.heap pCurNode {node with info := markDeleted node.info}
        match unlink marked sweep.pPreNode pCurNode with
        | none => .done none
        | some (heap,next) =>
          .next {sweep with heap,pCurNode := next,actions := sweep.actions ++ deleteActions node.info}
      else
        -- the trailing pointer is not moved along here
        .next {sweep with pCurNode := node.next}

/-- The sweep under `gCriMutex`, with every thread it joins stopping. -/
def CriSweep (heap : CriHeap) (gpCriListHead : Nat) (result : Option (CriHeap × List SweepAction)) : Prop :=
  ∃ node, heap gpCriListHead = some node ∧
    Returns sweepBody ⟨heap,gpCriListHead,node.next,[]⟩ result

def kept (cell : Cell CliRunningInfo) : Bool := !isDeleting cell.2

section Suffixes

variable {α : Type} {p : α → Bool}

theorem rtakeWhile_broken (front : List α) {x : α} (fails : ¬ p x) (back : List α) :
    (front ++ x :: back).rtakeWhile p = back.rtakeWhile p := by
  induction back using List.reverseRecOn with
  | nil => rw [List.rtakeWhile_concat_neg _ _ _ fails,List.rtakeWhile_nil]
  | append_singleton back y ih =>
    rw [← List.cons_append,← List.append_assoc,List.rtakeWhile_concat,List.rtakeWhile_concat,ih]

/-- A last run of passing items holds all of them exactly when none passes before one that fails. -/
theorem rtakeWhile_filter (items : List α) :
    items.rtakeWhile p = items.filter p ↔ items.Pairwise fun a b => p a → p b := by
  induction items using List.reverseRecOn with
  | nil => simp
  | append_singleton items x ih =>
    rw [List.rtakeWhile_concat,List.filter_append,List.pairwise_append]
    by_cases passes : p x
    · simp [passes,ih]
    · -- nothing is in the last run, so nothing may pass at all
      have nothing : items.Pairwise (fun a b => p a → p b) ∧ (∀ a ∈ items, ¬ p a) ↔ ∀ a ∈ items, ¬ p a := by
        refine and_iff_right_of_imp fun fails => List.pairwise_of_forall_mem_list ?_
        intro a member b _ passed
        exact absurd passed (fails a member)
      rw [if_neg passes,List.filter_cons_of_neg passes,List.filter_nil,List.append_nil,eq_comm,
        List.filter_eq_nil_iff]
      simpa [passes] using nothing.symm

end Suffixes

section Runs

variable {heap : CriHeap} {head : Nat} {headInfo : CliRunningInfo}

theorem sweepBody_kept {cell : Cell CliRunningInfo} {next : Option Nat} {actions : List SweepAction}
    (here : heap cell.1 = some ⟨cell.2,next⟩) (keeps : kept cell) :
    sweepBody ⟨heap,head,some cell.1,actions⟩ = .next ⟨heap,head,next,actions⟩ := by
  have running : isDeleting cell.2 = false := by simpa [kept] using keeps
  simp [sweepBody,here,running]

theorem sweepBody_deleted {cell : Cell CliRunningInfo} {first next : Option Nat}
    (actions : List SweepAction) (at_head : heap head = some ⟨headInfo,first⟩)
    (here : heap cell.1 = some ⟨cell.2,next⟩) (apart : cell.1 ≠ head) (deletes : ¬ kept cell) :
    ∃ after, sweepBody ⟨heap,head,some cell.1,actions⟩ =
        .next ⟨after,head,next,actions ++ deleteActions cell.2⟩ ∧
      after head = some ⟨headInfo,next⟩ ∧
      ∀ addr, addr ≠ head → after addr = if addr = cell.1 then none else heap addr := by
  have deleting : isDeleting cell.2 = true := by simpa [kept] using deletes
  have pre : write heap cell.1 ⟨markDeleted cell.2,next⟩ head = some ⟨headInfo,first⟩ := by
    rw [write,Function.update_of_ne apart.symm,at_head]
  have cur : write heap cell.1 ⟨markDeleted cell.2,next⟩ cell.1 = some ⟨markDeleted cell.2,next⟩ :=
    Function.update_self _ _ _
  obtain ⟨after,unlinked,linked,frame⟩ := unlink_spec apart pre cur
  refine ⟨after,?_,linked,?_⟩
  · simp only [sweepBody,here,deleting,if_true,unlinked]
  · intro addr other
    rw [frame addr other]
    split
    · rfl
    · rename_i different
      rw [write,Function.update_of_ne different]

def swept (cells : List (Cell CliRunningInfo)) : List (Cell CliRunningInfo) := cells.filter (!kept ·)

/-- `mid` are the kept cells since the last deletion; only they are still linked. -/
theorem sweep_run {mid rest : List (Cell CliRunningInfo)} {first cur : Option Nat}
    (actions : List SweepAction) (at_head : heap head = some ⟨headInfo,first⟩)
    (front : Seg heap first mid cur) (back : Seg heap cur rest none)
    (nodup : (head :: addrs (mid ++ rest)).Nodup) (keeps : ∀ cell ∈ mid, kept cell) :
    ∃ after more, Returns sweepBody ⟨heap,head,cur,actions⟩ (some (after,actions ++ more)) ∧
      Listed after head ((mid ++ rest).rtakeWhile kept) ∧
      ∀ addr ≠ head, after addr = if addr ∈ addrs (swept rest) then none else heap addr := by
  induction rest generalizing heap mid first cur actions with
  | nil =>
    rw [Seg] at back
    subst back
    refine ⟨heap,[],?_,?_,?_⟩
    · rw [List.append_nil]
      exact returns_done rfl
    · rw [List.append_nil] at nodup ⊢
      rw [List.rtakeWhile_eq_self_iff.mpr keeps]
      exact ⟨⟨headInfo,first,at_head,front⟩,nodup⟩
    · intro addr _
      rfl
  | cons cell rest ih =>
    obtain ⟨rfl,next,here,rest_seg⟩ := back
    by_cases keep : kept cell
    · have front' : Seg heap first (mid ++ [cell]) next :=
        seg_append.mpr ⟨_,front,rfl,next,here,rfl⟩
      have split_cells : mid ++ cell :: rest = mid ++ [cell] ++ rest := by simp
      rw [split_cells] at nodup ⊢
      obtain ⟨after,more,ran,listed,frame⟩ := ih actions at_head front' rest_seg nodup (by
        intro other member
        rcases List.mem_append.mp member with before | last
        · exact keeps other before
        · rwa [List.mem_singleton.mp last])
      refine ⟨after,more,(returns_next (sweepBody_kept here keep)).mpr ran,listed,?_⟩
      rw [swept,List.filter_cons_of_neg (by simpa using keep)]
      exact frame
    · have apart : cell.1 ≠ head := by
        rintro same
        apply (List.nodup_cons.mp nodup).1
        simp [addrs,same]
      obtain ⟨middle,step,linked,removed⟩ :=
        sweepBody_deleted actions at_head here apart keep
      have nodup' : (head :: cell.1 :: addrs rest).Nodup := by
        apply List.Nodup.sublist _ nodup
        simp [addrs]
      obtain ⟨head_new,cells_nodup⟩ := List.nodup_cons.mp nodup'
      obtain ⟨cell_new,rest_nodup⟩ := List.nodup_cons.mp cells_nodup
      have head_out : head ∉ addrs rest := fun member => head_new (List.mem_cons_of_mem _ member)
      have rest_seg' : Seg middle next rest none := by
        apply seg_frame _ rest_seg
        intro addr member
        rw [removed addr (by rintro rfl; exact head_out member),
          if_neg (by rintro rfl; exact cell_new member)]
      obtain ⟨after,more,ran,listed,frame⟩ := ih (actions ++ deleteActions cell.2) linked
        (show Seg middle next [] next from rfl) rest_seg' (List.nodup_cons.mpr ⟨head_out,rest_nodup⟩) (by simp)
      refine ⟨after,deleteActions cell.2 ++ more,?_,?_,?_⟩
      · rw [returns_next step,← List.append_assoc]
        exact ran
      · rw [rtakeWhile_broken mid keep rest]
        exact listed
      · intro addr other
        have names : addrs (swept (cell :: rest)) = cell.1 :: addrs (swept rest) := by
          rw [swept,List.filter_cons_of_pos (by simpa using keep)]
          rfl
        rw [frame addr other,removed addr other,names]
        by_cases inside : addr ∈ addrs (swept rest)
        · rw [if_pos inside,if_pos (List.mem_cons_of_mem _ inside)]
        · rw [if_neg inside]
          simp only [List.mem_cons,inside,or_false]

end Runs

section Sweeps

structure CriList where
  heap : CriHeap
  head : Nat
  cells : List (Cell CliRunningInfo)
  listed : Listed heap head cells

/-- The nodes marked DELETING are gone, all others are listed and counted as before. -/
def SweepRight (list : CriList) : Prop :=
  ∃ after actions, CriSweep list.heap list.head (some (after,actions)) ∧
    Listed after list.head (list.cells.filter kept) ∧
    (∀ cell ∈ list.cells, after cell.1 = none ↔ isDeleting cell.2) ∧
    CriCount after list.head (list.cells.filter kept).length

theorem sweep_cells (list : CriList) :
    ∃ after actions, CriSweep list.heap list.head (some (after,actions)) ∧
      Listed after list.head (list.cells.rtakeWhile kept) ∧
      ∀ addr ≠ list.head, after addr = if addr ∈ addrs (swept list.cells) then none else list.heap addr := by
  obtain ⟨heap,head,cells,⟨info,first,at_head,seg⟩,nodup⟩ := list
  obtain ⟨after,actions,ran,listed,frame⟩ := sweep_run [] at_head
    (show Seg heap first [] first from rfl) seg nodup (by simp)
  exact ⟨after,actions,⟨_,at_head,ran⟩,listed,frame⟩

def criSweep (cri : Cri) : Cri := cri.rtakeWhile (!isDeleting ·)

theorem sweep_holds {heap : CriHeap} {head : Nat} {cri : Cri} (holds : Holds heap head cri) :
    ∃ after actions, CriSweep heap head (some (after,actions)) ∧ Holds after head (criSweep cri) := by
  obtain ⟨cells,listed,rfl⟩ := holds
  obtain ⟨after,actions,ran,left,_⟩ := sweep_cells ⟨heap,head,cells,listed⟩
  refine ⟨after,actions,ran,_,left,?_⟩
  simp only [criSweep,List.rtakeWhile,← List.map_reverse,List.takeWhile_map]
  rfl

theorem swept_addrs {cells : List (Cell CliRunningInfo)} (nodup : (addrs cells).Nodup)
    {cell : Cell CliRunningInfo} (member : cell ∈ cells) :
    cell.1 ∈ addrs (swept cells) ↔ isDeleting cell.2 := by
  simp only [addrs,swept,List.mem_map,List.mem_filter,kept,Bool.not_not]
  constructor
  · rintro ⟨other,⟨inside,deleting⟩,same⟩
    rwa [List.inj_on_of_nodup_map nodup inside member same] at deleting
  · intro deleting
    exact ⟨cell,⟨member,deleting⟩,rfl⟩

theorem sweepRight_cells {list : CriList} (right : SweepRight list) :
    list.cells.rtakeWhile kept = list.cells.filter kept := by
  obtain ⟨after,actions,⟨node,at_head,ran⟩,listed,_⟩ := sweep_cells list
  obtain ⟨after',actions',⟨node',at_head',ran'⟩,listed',_,_⟩ := right
  obtain rfl := Option.some.inj (at_head.symm.trans at_head')
  obtain ⟨rfl,_⟩ := Prod.mk.inj (Option.some.inj (returns_unique ran ran'))
  exact listed_unique listed listed'

theorem sweepRight_iff (list : CriList) :
    SweepRight list ↔ list.cells.Pairwise fun before after => kept before → kept after := by
  rw [← rtakeWhile_filter]
  constructor
  · exact sweepRight_cells
  · intro same
    obtain ⟨after,actions,ran,listed,frame⟩ := sweep_cells list
    rw [same] at listed
    refine ⟨after,actions,ran,listed,?_,?_⟩
    · intro cell member
      obtain ⟨⟨_,_,_,seg⟩,nodup⟩ := list.listed
      obtain ⟨head_new,cells_nodup⟩ := List.nodup_cons.mp nodup
      have inside : cell.1 ∈ addrs list.cells := List.mem_map_of_mem member
      have apart : cell.1 ≠ list.head := by
        intro same
        exact head_new (same ▸ inside)
      rw [frame cell.1 apart,← swept_addrs cells_nodup member]
      simp [seg_allocated seg _ inside]
    · simpa using count_holds ⟨_,listed,rfl⟩

def liveClient : CliRunningInfo :=
  {newCliInfo 2 5 4001 ⟨.idle,[],0⟩ with ctrlThrId := 12,ctrlThrState := .running}

def deletingClient : CliRunningInfo :=
  markDeleting {newCliInfo 1 4 4000 ⟨.idle,[],0⟩ with ctrlThrId := 11}

def liveFirst : CriList where
  heap := write (write (write (fun _ => none) 0 ⟨newCliInfo 0 invalidSockId 0 ⟨.idle,[],0⟩,some 1⟩)
    1 ⟨liveClient,some 2⟩) 2 ⟨deletingClient,none⟩
  head := 0
  cells := [(1,liveClient),(2,deletingClient)]
  listed := by
    refine ⟨⟨_,some 1,rfl,rfl,some 2,rfl,rfl,none,rfl,rfl⟩,?_⟩
    decide

theorem liveFirst_lost : ¬ SweepRight liveFirst ∧
    ∃ after actions, CriSweep liveFirst.heap liveFirst.head (some (after,actions)) ∧
      Listed after liveFirst.head [] ∧ after 1 = some ⟨liveClient,some 2⟩ := by
  constructor
  · intro right
    exact absurd (sweepRight_cells right) (by decide)
  · obtain ⟨after,actions,ran,listed,frame⟩ := sweep_cells liveFirst
    exact ⟨after,actions,ran,listed,frame 1 (by decide)⟩

end Sweeps

end MoCodes.Cps.Server
