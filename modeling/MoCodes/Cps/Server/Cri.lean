import MoCodes.Cps.Proto
import MoCodes.Lib.LinkedList

/-! The client-running-info list of the CPS server, a linked list behind a head node.
Each routine is the loop of the source over the heap, and is compared with what it does
to the list of infos. The list is changed under `gCriMutex`, so one routine at a time. -/
namespace MoCodes.Cps.Server
open MoCodes.Lib.Loop MoCodes.Lib.LinkedList

inductive ThreadState where
  | donotCreate | running | deleting | deleted
  deriving DecidableEq,Repr

structure CryptInfo where
  cryptAlgoNo : CryptAlgo
  cryptKey : List UInt8
  keyLen : Int
  deriving DecidableEq,Repr

structure CliRunningInfo where
  ipValue : Nat
  ctrlSockId : Int
  ctrlPort : Int
  ctrlThrId : Nat
  ctrlThrState : ThreadState
  dataSockId : Int
  dataPort : Int
  dataThrId : Nat
  dataThrState : ThreadState
  cryptInfo : CryptInfo
  deriving DecidableEq,Repr

abbrev CriHeap := Heap CliRunningInfo

def invalidSockId : Int := -1

def invalidPort : Int := 0

def invalidThrId : Nat := 0

section Routines

/-- `malloc` gives `pNewNode`, or none; its `cryptInfo` is whatever the memory holds. -/
def newCliInfo (ipValue : Nat) (sockId ctrlPort : Int) (cryptInfo : CryptInfo) : CliRunningInfo where
  ipValue := ipValue
  ctrlSockId := sockId
  ctrlPort := ctrlPort
  ctrlThrId := invalidThrId
  ctrlThrState := .donotCreate
  dataSockId := invalidSockId
  dataPort := invalidPort
  dataThrId := invalidThrId
  dataThrState := .donotCreate
  cryptInfo := cryptInfo

def isClient (ctrlSockId : Int) (info : CliRunningInfo) : Bool := info.ctrlSockId == ctrlSockId

def markDeleting (info : CliRunningInfo) : CliRunningInfo :=
  {info with ctrlThrState := .deleting, dataThrState := .deleting}

def setCtrlThr (thId : Nat) (info : CliRunningInfo) : CliRunningInfo :=
  {info with ctrlThrId := thId, ctrlThrState := .running}

def setDataPort (dataPort : Int) (info : CliRunningInfo) : CliRunningInfo :=
  {info with
    dataSockId := invalidSockId
    dataPort := dataPort
    dataThrId := invalidThrId
    dataThrState := .donotCreate}

def setCryptInfo (cryptInfo : CryptInfo) (info : CliRunningInfo) : CliRunningInfo := {info with cryptInfo}

def CriDeleteCliInfo (heap : CriHeap) (head : Nat) (ctrlSockId : Int) : CriHeap → Int → Prop :=
  Refreshes heap head (isClient ctrlSockId) markDeleting 0

def CriRefreshCtrlThrInfo (heap : CriHeap) (head : Nat) (ctrlSockId : Int) (thId : Nat) :
    CriHeap → Int → Prop :=
  Refreshes heap head (isClient ctrlSockId) (setCtrlThr thId) (-2)

def CriSetDataSockPort (heap : CriHeap) (head : Nat) (ctrlSockId dataPort : Int) : CriHeap → Int → Prop :=
  Refreshes heap head (isClient ctrlSockId) (setDataPort dataPort) (-2)

def CriRefreshCryptInfo (heap : CriHeap) (head : Nat) (ctrlSockId : Int) (cryptInfo : CryptInfo) :
    CriHeap → Int → Prop :=
  Refreshes heap head (isClient ctrlSockId) (setCryptInfo cryptInfo) (-2)

/-- A client that is there already is not inserted again; a new one comes first. -/
inductive CriInsertNewCliInfo (heap : CriHeap) (head : Nat) (info : CliRunningInfo) (pNewNode : Option Nat) :
    CriHeap → Int → Prop where
  | exist {addr} : Finds heap head (isClient info.ctrlSockId) (some addr) →
      CriInsertNewCliInfo heap head info pNewNode heap 0
  | malloc_failed : Finds heap head (isClient info.ctrlSockId) none → pNewNode = none →
      CriInsertNewCliInfo heap head info pNewNode heap (-3)
  | inserted {addr node} : Finds heap head (isClient info.ctrlSockId) none → pNewNode = some addr →
      heap head = some node → CriInsertNewCliInfo heap head info pNewNode
        (write (write heap addr ⟨info,node.next⟩) head {node with next := some addr}) 0

/-- The number of nodes that `criDump` counts. -/
def CriCount (heap : CriHeap) (head count : Nat) : Prop :=
  ∃ node, heap head = some node ∧ Returns (countBody heap) (node.next,0) (some count)

end Routines

section Lists

abbrev Cri := List CliRunningInfo

def criFind (cri : Cri) (ctrlSockId : Int) : Option CliRunningInfo := cri.find? (isClient ctrlSockId)

def criRefresh (cri : Cri) (ctrlSockId : Int) (change : CliRunningInfo → CliRunningInfo) : Cri :=
  modifyFirst (isClient ctrlSockId) change cri

def criInsert (cri : Cri) (info : CliRunningInfo) : Cri :=
  match criFind cri info.ctrlSockId with
  | some _ => cri
  | none => info :: cri

variable {heap after : CriHeap} {head : Nat} {cells : List (Cell CliRunningInfo)} {cri : Cri} {ret : Int}

theorem criRefresh_holds {ctrlSockId missing : Int} {change : CliRunningInfo → CliRunningInfo}
    (holds : Holds heap head cri)
    (ran : Refreshes heap head (isClient ctrlSockId) change missing after ret) :
    Holds after head (criRefresh cri ctrlSockId change) ∧
      ret = if (criFind cri ctrlSockId).isSome then 0 else missing :=
  refreshes_holds holds ran

def Unused (heap : CriHeap) (pNewNode : Option Nat) : Prop := ∀ addr, pNewNode = some addr → heap addr = none

theorem seg_allocated {link last : Option Nat} (seg : Seg heap link cells last) :
    ∀ addr ∈ addrs cells, heap addr ≠ none := by
  induction cells generalizing link with
  | nil => simp [addrs]
  | cons cell cells ih =>
    obtain ⟨_,next,node,rest⟩ := seg
    intro addr member
    rcases List.mem_cons.mp member with rfl | inside
    · rw [node]
      simp
    · exact ih rest addr inside

theorem insert_holds {info : CliRunningInfo} {pNewNode : Option Nat} (holds : Holds heap head cri)
    (unused : Unused heap pNewNode) (ran : CriInsertNewCliInfo heap head info pNewNode after ret) :
    if ret = 0 then Holds after head (criInsert cri info) else after = heap := by
  obtain ⟨cells,listed,rfl⟩ := holds
  cases ran with
  | exist finds =>
    have named := (finds_cells listed).mp finds
    obtain ⟨cell,member,_⟩ := Option.map_eq_some_iff.mp named.symm
    simp only [if_true]
    rw [criInsert,criFind,find_items,member]
    exact ⟨cells,listed,rfl⟩
  | malloc_failed finds none_left => rfl
  | inserted finds new here =>
    have nowhere := Option.map_eq_none_iff.mp ((finds_cells listed).mp finds).symm
    obtain ⟨⟨headInfo,first,at_head,seg⟩,nodup⟩ := listed
    rw [at_head] at here
    obtain rfl := Option.some.inj here
    have free := unused _ new
    simp only [if_true]
    rw [criInsert,criFind,find_items,nowhere]
    refine ⟨_,insert_after_head info ⟨⟨headInfo,first,at_head,seg⟩,nodup⟩ ?_ at_head,rfl⟩
    intro member
    rcases List.mem_cons.mp member with rfl | inside
    · rw [free] at at_head
      cases at_head
    · exact seg_allocated seg _ inside free

theorem count_holds (holds : Holds heap head cri) : CriCount heap head cri.length := by
  obtain ⟨cells,⟨⟨info,first,at_head,seg⟩,_⟩,rfl⟩ := holds
  refine ⟨_,at_head,?_⟩
  simpa using count_cells seg 0

end Lists

end MoCodes.Cps.Server
