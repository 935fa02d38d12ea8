import MoCodes.Lib.LinkedList

/-! The client list of the client manager, a linked list behind a head node of its own
that is changed under `gMutex`. A client is known by its control socket, and a new one
comes last. -/
namespace MoCodes.Cps.Server
open MoCodes.Lib.LinkedList

inductive CliState where
  | idle | ctrlSockIn | keyAgreed | heartbeat | stopped
  deriving DecidableEq,Repr

def CliState.value : CliState → Nat
  | .idle => 0
  | .ctrlSockIn => 1
  | .keyAgreed => 2
  | .heartbeat => 3
  | .stopped => 4

structure CliInfo where
  id : Nat
  ctrlPort : Int
  ctrlSockId : Int
  state : CliState
  lastHeartbeatTime : Int
  deriving DecidableEq,Repr

def isCli (ctrlSockId : Int) (info : CliInfo) : Bool := info.ctrlSockId == ctrlSockId

def setState (state : CliState) (info : CliInfo) : CliInfo := {info with state}

def setHeartbeat (clock : Int) (info : CliInfo) : CliInfo := {info with lastHeartbeatTime := clock}

section Routines

abbrev CliMgrHeap := Heap CliInfo

def CliMgrSetState (heap : CliMgrHeap) (head : Nat) (ctrlSockId : Int) (state : CliState) :
    CliMgrHeap → Int → Prop :=
  Refreshes heap head (isCli ctrlSockId) (setState state) (-2)

def CliMgrRefreshHeartbeat (heap : CliMgrHeap) (head : Nat) (ctrlSockId clock : Int) :
    CliMgrHeap → Int → Prop :=
  Refreshes heap head (isCli ctrlSockId) (setHeartbeat clock) (-1)

end Routines

section Lists

abbrev CliMgr := List CliInfo

variable (cliMgr : CliMgr) (ctrlSockId : Int)

def cliMgrFind : Option CliInfo := cliMgr.find? (isCli ctrlSockId)

def cliMgrGetState : Option CliState := (cliMgrFind cliMgr ctrlSockId).map CliInfo.state

def cliMgrSetState (state : CliState) : CliMgr := modifyFirst (isCli ctrlSockId) (setState state) cliMgr

def cliMgrRefreshHeartbeat (clock : Int) : CliMgr :=
  modifyFirst (isCli ctrlSockId) (setHeartbeat clock) cliMgr

def cliMgrDeleteCli : CliMgr := cliMgr.eraseP (isCli ctrlSockId)

/-- `memory` tells whether `malloc` gives a node; an address that is there already is refused. -/
def cliMgrInsertNewCli (id : Nat) (ctrlPort : Int) (memory : Bool) : CliMgr × Int :=
  if cliMgr.any (·.id == id) then (cliMgr,-3)
  else if memory then (cliMgr ++ [⟨id,ctrlPort,ctrlSockId,.ctrlSockIn,0⟩],0)
  else (cliMgr,-4)

variable {cliMgr ctrlSockId}

theorem setState_holds {heap after : CliMgrHeap} {head : Nat} {state : CliState} {ret : Int}
    (holds : Holds heap head cliMgr) (ran : CliMgrSetState heap head ctrlSockId state after ret) :
    Holds after head (cliMgrSetState cliMgr ctrlSockId state) ∧
      ret = if (cliMgrFind cliMgr ctrlSockId).isSome then 0 else -2 :=
  refreshes_holds holds ran

variable (cliMgr ctrlSockId) in
theorem getState_setState (state : CliState) :
    cliMgrGetState (cliMgrSetState cliMgr ctrlSockId state) ctrlSockId =
      (cliMgrGetState cliMgr ctrlSockId).map fun _ => state := by
  simp only [cliMgrGetState,cliMgrFind,cliMgrSetState]
  rw [find_modifyFirst (isCli ctrlSockId) (setState state) (fun _ => rfl),Option.map_map,Option.map_map]
  rfl

theorem getState_refreshHeartbeat (clock : Int) :
    cliMgrGetState (cliMgrRefreshHeartbeat cliMgr ctrlSockId clock) ctrlSockId =
      cliMgrGetState cliMgr ctrlSockId :=
  find_modifyFirst_view (isCli ctrlSockId) (setHeartbeat clock) CliInfo.state (fun _ => rfl)
    (fun _ _ _ => rfl) cliMgr

end Lists

end MoCodes.Cps.Server
