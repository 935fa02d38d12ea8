import MoCodes.Cps.Server.Threads
import Mathlib.Logic.Relation

/-! The heartbeat check of the client manager. Only clients in the state HEARTBEAT are
looked at, those that are too late become STOPPED, and a client found STOPPED leaves the
list; but no routine of the server ever sets the state HEARTBEAT. -/
namespace MoCodes.Cps.Server
open MoCodes.Lib.Loop MoCodes.Lib.LinkedList

def heartbeatInterval : Int := 3

def clocksPerSec : Int := 1000000

/-- Division of C: towards zero. -/
def heartbeatTimeout (curTime : Int) (info : CliInfo) : Bool :=
  heartbeatInterval*2+1 < (curTime-info.lastHeartbeatTime).tdiv clocksPerSec

structure HeartbeatCheck where
  heap : CliMgrHeap
  pPreNode : Nat
  pCurNode : Option Nat
  clocks : Nat
  notified : List Int

/-- The inner loop; `clock` gives what the calls of `clock()` return, one after another. The
sockets in `notified` are those handed to `gpNotifyInvalidCliFunc`. -/
def checkHeartbeatBody (clock : Nat → Int) (check : HeartbeatCheck) :
    Outcome HeartbeatCheck (Option (CliMgrHeap × List Int)) :=
  match check.pCurNode with
  | none => .done (some (check.heap,check.notified))
  | some pCurNode =>
    match check.heap pCurNode with
    | none => .done none
    | some node =>
      match node.info.state with
      | .idle | .ctrlSockIn | .keyAgreed =>
        .next {check with pPreNode := pCurNode, pCurNode := node.next}
      | .heartbeat =>
        let heap :=
          if heartbeatTimeout (clock check.clocks) node.info then
            write check.heap pCurNode {node with info := setState .stopped node.info}
          else check.heap
        .next {check with heap, pPreNode := pCurNode, pCurNode := node.next, clocks := check.clocks+1}
      | .stopped =>
        match unlink check.heap check.pPreNode pCurNode with
        | none => .done none
        | some (heap,next) =>
          .next {check with heap, pCurNode := next, notified := check.notified ++ [node.info.ctrlSockId]}

/-- One pass of `checkHeartbeatThr` under `gMutex`. -/
def CheckHeartbeatThr (clock : Nat → Int) (heap : CliMgrHeap) (gpCliInfoListHead : Nat)
    (result : Option (CliMgrHeap × List Int)) : Prop :=
  ∃ node, heap gpCliInfoListHead = some node ∧
    Returns (checkHeartbeatBody clock) ⟨heap,gpCliInfoListHead,node.next,0,[]⟩ result

/-- What a pass does to the list of infos, and whom it notifies. -/
def checkHeartbeat (clock : Nat → Int) : Nat → CliMgr → CliMgr × List Int
  | _,[] => ([],[])
  | clocks,info :: infos =>
    match info.state with
    | .idle | .ctrlSockIn | .keyAgreed =>
      let rest := checkHeartbeat clock clocks infos
      (info :: rest.1,rest.2)
    | .heartbeat =>
      let rest := checkHeartbeat clock (clocks+1) infos
      ((if heartbeatTimeout (clock clocks) info then setState .stopped info else info) :: rest.1,rest.2)
    | .stopped =>
      let rest := checkHeartbeat clock clocks infos
      (rest.1,info.ctrlSockId :: rest.2)

section Pass

variable {clock : Nat → Int} {heap : CliMgrHeap}

/-- The trailing pointer `pre` keeps up with the nodes that stay. -/
theorem checkHeartbeat_run {head : Option Nat} {front rest : List (Cell CliInfo)} {pre : Cell CliInfo}
    {cur : Option Nat} (clocks : Nat) (notified : List Int)
    (before : Seg heap head (front ++ [pre]) cur) (behind : Seg heap cur rest none)
    (nodup : (addrs (front ++ pre :: rest)).Nodup) :
    ∃ after cells, Returns (checkHeartbeatBody clock) ⟨heap,pre.1,cur,clocks,notified⟩
        (some (after,notified ++ (checkHeartbeat clock clocks (rest.map Prod.snd)).2)) ∧
      Seg after head (front ++ pre :: cells) none ∧ (addrs cells).Sublist (addrs rest) ∧
      cells.map Prod.snd = (checkHeartbeat clock clocks (rest.map Prod.snd)).1 := by
  induction rest generalizing heap front pre cur clocks notified with
  | nil =>
    rw [Seg] at behind
    subst behind
    refine ⟨heap,[],returns_done ?_,before,List.Sublist.refl _,rfl⟩
    simp [checkHeartbeatBody,checkHeartbeat]
  | cons cell rest ih =>
    obtain ⟨rfl,next,here,tail⟩ := behind
    have stays : ∀ {changed : CliMgrHeap} (info : CliInfo) (more : Nat),
        checkHeartbeatBody clock ⟨heap,pre.1,some cell.1,clocks,notified⟩ =
          .next ⟨changed,cell.1,next,more,notified⟩ →
        Seg changed head (front ++ [pre]) (some cell.1) → changed cell.1 = some ⟨info,next⟩ →
        Seg changed next rest none →
        ∃ after cells, Returns (checkHeartbeatBody clock) ⟨heap,pre.1,some cell.1,clocks,notified⟩
            (some (after,notified ++ (checkHeartbeat clock more (rest.map Prod.snd)).2)) ∧
          Seg after head (front ++ pre :: cells) none ∧ (addrs cells).Sublist (addrs (cell :: rest)) ∧
          cells.map Prod.snd = info :: (checkHeartbeat clock more (rest.map Prod.snd)).1 := by
      intro changed info more step kept node behind
      have longer : Seg changed head ((front ++ [pre]) ++ [(cell.1,info)]) next :=
        seg_append.mpr ⟨_,kept,rfl,next,node,rfl⟩
      obtain ⟨after,cells,ran,chain,part,infos⟩ :=
        ih more notified longer behind (by simpa [addrs] using nodup)
      refine ⟨after,(cell.1,info) :: cells,(returns_next step).mpr ran,?_,part.cons_cons _,?_⟩
      · rwa [List.append_assoc] at chain
      · rw [List.map_cons,infos]
    cases state : cell.2.state with
    | idle | ctrlSockIn | keyAgreed =>
      simp only [List.map_cons,checkHeartbeat,state]
      exact stays cell.2 clocks (by simp [checkHeartbeatBody,here,state]) before here tail
    | heartbeat =>
      simp only [List.map_cons,checkHeartbeat,state]
      split
      · rename_i late
        let changed := write heap cell.1 ⟨setState .stopped cell.2,next⟩
        have distinct : addrs (front ++ pre :: cell :: rest) =
            addrs (front ++ [pre]) ++ cell.1 :: addrs rest := by
          simp [addrs]
        obtain ⟨_,later,cross⟩ := List.nodup_append.mp (distinct ▸ nodup)
        have step : checkHeartbeatBody clock ⟨heap,pre.1,some cell.1,clocks,notified⟩ =
            .next ⟨changed,cell.1,next,clocks+1,notified⟩ := by
          simp [checkHeartbeatBody,here,state,late,changed]
        refine stays (setState .stopped cell.2) (clocks+1) step ?_ (Function.update_self _ _ _) ?_
        · exact seg_write (fun member => cross _ member _ List.mem_cons_self rfl) before
        · exact seg_write (List.nodup_cons.mp later).1 tail
      · rename_i late
        exact stays cell.2 (clocks+1) (by simp [checkHeartbeatBody,here,state,late]) before here tail
    | stopped =>
      have behind : Seg heap (some cell.1) (cell :: rest) none := ⟨rfl,next,here,tail⟩
      have chain : Seg heap head (front ++ pre :: cell :: rest) none := by
        have whole := seg_append.mpr ⟨_,before,behind⟩
        rwa [List.append_assoc] at whole
      obtain ⟨after,link,unlinked,kept,behind⟩ := seg_unlink chain nodup
      have step : checkHeartbeatBody clock ⟨heap,pre.1,some cell.1,clocks,notified⟩ =
          .next ⟨after,pre.1,link,clocks,notified ++ [cell.2.ctrlSockId]⟩ := by
        simp [checkHeartbeatBody,here,state,unlinked]
      have shorter : (addrs (front ++ pre :: rest)).Nodup := by
        apply List.Nodup.sublist _ nodup
        simp [addrs]
      obtain ⟨final,cells,ran,linked,part,infos⟩ :=
        ih clocks (notified ++ [cell.2.ctrlSockId]) kept behind shorter
      refine ⟨final,cells,(returns_next step).mpr ?_,linked,part.cons _,?_⟩
      · simpa [checkHeartbeat,state] using ran
      · simpa [checkHeartbeat,state] using infos

variable (clock) in
theorem checkHeartbeat_holds {head : Nat} {cliMgr : CliMgr} (holds : Holds heap head cliMgr) :
    ∃ after, CheckHeartbeatThr clock heap head (some (after,(checkHeartbeat clock 0 cliMgr).2)) ∧
      Holds after head (checkHeartbeat clock 0 cliMgr).1 := by
  obtain ⟨cells,⟨⟨info,first,at_head,seg⟩,nodup⟩,rfl⟩ := holds
  have start : Seg heap (some head) ([] ++ [(head,info)]) first := ⟨rfl,first,at_head,rfl⟩
  obtain ⟨after,left,ran,⟨_,next,here,chain⟩,part,infos⟩ := checkHeartbeat_run 0 [] start seg nodup
  exact ⟨after,⟨_,at_head,ran⟩,left,⟨⟨info,next,here,chain⟩,nodup.sublist (part.cons_cons head)⟩,infos⟩

end Pass

section Runs

/-- The routines through which the server's threads change the list, and a pass of the check. -/
inductive CliMgrStep : CliMgr → CliMgr → Prop where
  | insert {cliMgr} (sockId : Int) (id : Nat) (ctrlPort : Int) (memory : Bool) :
      CliMgrStep cliMgr (cliMgrInsertNewCli cliMgr sockId id ctrlPort memory).1
  | keyAgree {cliMgr} (sockId : Int) : CliMgrStep cliMgr (cliMgrSetState cliMgr sockId .keyAgreed)
  | heartbeat {cliMgr} (sockId clock : Int) :
      CliMgrStep cliMgr (cliMgrRefreshHeartbeat cliMgr sockId clock)
  | delete {cliMgr} (sockId : Int) : CliMgrStep cliMgr (cliMgrDeleteCli cliMgr sockId)
  | check {cliMgr} (clock : Nat → Int) : CliMgrStep cliMgr (checkHeartbeat clock 0 cliMgr).1

abbrev CliMgrReachable : CliMgr → Prop := Relation.ReflTransGen CliMgrStep []

def Unchecked (cliMgr : CliMgr) : Prop :=
  ∀ info ∈ cliMgr, info.state = .ctrlSockIn ∨ info.state = .keyAgreed

variable {cliMgr after : CliMgr}

theorem checkHeartbeat_unchecked (unchecked : Unchecked cliMgr) (clock : Nat → Int) (clocks : Nat) :
    checkHeartbeat clock clocks cliMgr = (cliMgr,[]) := by
  induction cliMgr with
  | nil => rfl
  | cons info infos ih =>
    obtain ⟨here,others⟩ := List.forall_mem_cons.mp unchecked
    rcases here with state | state <;> simp [checkHeartbeat,state,ih others]

theorem cliMgrStep_unchecked (unchecked : Unchecked cliMgr) (step : CliMgrStep cliMgr after) :
    Unchecked after := by
  cases step with
  | insert sockId id ctrlPort memory =>
    intro info member
    unfold cliMgrInsertNewCli at member
    split at member
    · exact unchecked info member
    · split at member
      · rcases List.mem_append.mp member with old | new
        · exact unchecked info old
        · exact Or.inl (congrArg CliInfo.state (List.mem_singleton.mp new))
      · exact unchecked info member
  | keyAgree sockId =>
    intro info member
    rcases mem_modifyFirst member with old | ⟨_,_,rfl⟩
    · exact unchecked info old
    · exact Or.inr rfl
  | heartbeat sockId clock =>
    intro info member
    rcases mem_modifyFirst member with old | ⟨before,old,rfl⟩
    · exact unchecked info old
    · exact unchecked before old
  | delete sockId => exact fun info member => unchecked info (List.mem_of_mem_eraseP member)
  | check clock => rwa [checkHeartbeat_unchecked unchecked]

theorem reachable_unchecked (reachable : CliMgrReachable cliMgr) : Unchecked cliMgr := by
  induction reachable with
  | refl => exact fun _ absent => nomatch absent
  | tail _ step ih => exact cliMgrStep_unchecked ih step

end Runs

section Threads

/-! The accept thread and the control threads take no other step. -/

theorem acceptCli_cliMgr (accept : Accept) (clients : Clients) :
    Relation.ReflTransGen CliMgrStep clients.cliMgr (acceptCli accept clients).cliMgr := by
  have inserted : Relation.ReflTransGen CliMgrStep clients.cliMgr _ :=
    .single (CliMgrStep.insert accept.cliSockId accept.ipValue accept.port accept.cliMgrMemory)
  unfold acceptCli
  cases accept.thId with
  | some thId => exact inserted
  | none => exact inserted.tail (CliMgrStep.delete accept.cliSockId)

variable (env : Env) (thr : CtrlThr)

theorem refreshCryptInfo_cliMgr (info : CryptInfo) :
    (refreshCryptInfo thr info).clients.cliMgr = thr.clients.cliMgr := by
  unfold refreshCryptInfo
  cases thr.info <;> rfl

theorem agree_cliMgr (bytes : List UInt8) :
    Relation.ReflTransGen CliMgrStep thr.clients.cliMgr (agree env bytes thr).2.clients.cliMgr := by
  unfold agree
  split
  · refine Relation.ReflTransGen.single ?_
    simp only [CtrlThr.setCliMgr,refreshCryptInfo_cliMgr]
    exact CliMgrStep.keyAgree _
  · exact Relation.ReflTransGen.refl

theorem doKeyAgree_cliMgr :
    Relation.ReflTransGen CliMgrStep thr.clients.cliMgr (doKeyAgree env thr).2.clients.cliMgr := by
  unfold doKeyAgree
  split
  · exact Relation.ReflTransGen.refl
  · rename_i bytes stream _
    have agreed := agree_cliMgr env (CtrlThr.emit {thr with stream} (.keyAgreeRequest bytes)) bytes
    split
    · exact agreed
    · exact agreed

theorem doRequest_cliMgr (bytes : List UInt8) :
    Relation.ReflTransGen CliMgrStep thr.clients.cliMgr (doRequest env bytes thr).2.clients.cliMgr := by
  have same : Relation.ReflTransGen CliMgrStep thr.clients.cliMgr thr.clients.cliMgr := .refl
  unfold doRequest
  split
  case h_2 =>
    unfold doRequestHeartbeat
    split
    · exact .single (CliMgrStep.heartbeat thr.ctrlSockId env.clock)
    · exact same
  case h_4 =>
    unfold doRequestSendDataport
    split
    · exact same
    · split <;> exact same
  case h_5 =>
    unfold doRequestGetFileinfo
    split
    · exact same
    · split
      · split
        · exact same
        · split <;> exact same
      · exact same
  all_goals exact same

theorem doCtrlRequestThr_cliMgr :
    Relation.ReflTransGen CliMgrStep thr.clients.cliMgr (doCtrlRequestThr env thr).clients.cliMgr := by
  unfold doCtrlRequestThr
  split
  · exact Relation.ReflTransGen.refl
  · have agreed := doKeyAgree_cliMgr env thr
    split
    · dsimp only
      split
      · exact agreed
      · exact agreed.tail (CliMgrStep.keyAgree _)
    · unfold doSimpleRequest
      split
      · exact Relation.ReflTransGen.refl
      · split
        · exact Relation.ReflTransGen.refl
        · split
          · rename_i bytes stream _ _
            exact doRequest_cliMgr env (CtrlThr.emit {thr with stream} (.request bytes)) bytes
          · exact Relation.ReflTransGen.refl

end Threads

section Law

/-- The client has completed the key agreement and its last heartbeat is too long ago. -/
def Overdue (now : Int) (info : CliInfo) : Prop :=
  CliState.keyAgreed.value ≤ info.state.value ∧ heartbeatTimeout now info = true

structure HeartbeatLaw (now : Int) (before after : CliMgr) : Prop where
  removed : ∀ info ∈ after, ¬Overdue now info
  others : ∀ info ∈ before, ¬Overdue now info → info ∈ after

/-- The pass removes nobody, so the law holds just where it asks for nothing. -/
theorem heartbeatLaw_iff {cliMgr : CliMgr} (reachable : CliMgrReachable cliMgr) {heap : CliMgrHeap}
    {head : Nat} (holds : Holds heap head cliMgr) (clock : Nat → Int) (now : Int) :
    ∃ after notified left, CheckHeartbeatThr clock heap head (some (after,notified)) ∧
      Holds after head left ∧ (HeartbeatLaw now cliMgr left ↔ ∀ info ∈ cliMgr, ¬Overdue now info) := by
  obtain ⟨after,ran,left⟩ := checkHeartbeat_holds clock holds
  have same := checkHeartbeat_unchecked (reachable_unchecked reachable) clock 0
  refine ⟨after,_,_,ran,left,?_⟩
  rw [same]
  exact ⟨HeartbeatLaw.removed,fun none_late => ⟨none_late,fun _ member _ => member⟩⟩

/-- An agreed client that has been silent for eight seconds. -/
def silentClient : CliInfo := ⟨1,4000,5,.keyAgreed,0⟩

def silentHeap : CliMgrHeap :=
  write (write (fun _ => none) 0 ⟨⟨0,0,0,.idle,0⟩,some 1⟩) 1 ⟨silentClient,none⟩

theorem silentHeap_holds : Holds silentHeap 0 [silentClient] :=
  ⟨[(1,silentClient)],⟨⟨_,some 1,rfl,rfl,none,rfl,rfl⟩,by decide⟩,rfl⟩

theorem silent_reachable : CliMgrReachable [silentClient] :=
  (Relation.ReflTransGen.single (CliMgrStep.insert 5 1 4000 true)).tail (CliMgrStep.keyAgree 5)

theorem heartbeatLaw_iff_silent :
    ∃ after notified left, CheckHeartbeatThr (fun _ => 8*clocksPerSec) silentHeap 0 (some (after,notified)) ∧
      Holds after 0 left ∧ (HeartbeatLaw (8*clocksPerSec) [silentClient] left ↔
        ∀ info ∈ [silentClient], ¬Overdue (8*clocksPerSec) info) :=
  heartbeatLaw_iff silent_reachable silentHeap_holds (fun _ => 8*clocksPerSec) (8*clocksPerSec)

theorem silent_stays : CliMgrReachable [silentClient] ∧ Overdue (8*clocksPerSec) silentClient ∧
    ∃ after, CheckHeartbeatThr (fun _ => 8*clocksPerSec) silentHeap 0 (some (after,[])) ∧
      Holds after 0 [silentClient] ∧ ¬HeartbeatLaw (8*clocksPerSec) [silentClient] [silentClient] := by
  have late : Overdue (8*clocksPerSec) silentClient := by
    constructor <;> decide
  obtain ⟨after,ran,left⟩ := checkHeartbeat_holds (fun _ => 8*clocksPerSec) silentHeap_holds
  exact ⟨silent_reachable,late,after,ran,left,fun law => law.removed _ List.mem_cons_self late⟩

end Law

end MoCodes.Cps.Server
