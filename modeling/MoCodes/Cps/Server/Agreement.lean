import MoCodes.Cps.Server.System
import Mathlib.Data.List.Nodup

/-! How far the two client lists agree. A client enters the client-running-info list first
and leaves it last: in between the accept thread is still inserting it or taking it back,
or it is marked DELETING and waits for the sweep. -/
namespace MoCodes.Cps.Server
open MoCodes.Lib.LinkedList MoCodes.Lib.Transition

section Lists

/-! The lists by their control sockets: the nodes with their marks, and what `cliMgr` has. -/

def ids (nodes : List (Int × Bool)) : List Int := nodes.map Prod.fst

def mark (sockId : Int) (nodes : List (Int × Bool)) : List (Int × Bool) :=
  modifyFirst (·.1 == sockId) (fun node => (node.1,true)) nodes

/-- `pending` is a client that is listed and may be unknown to `cliMgr`. -/
structure Agree (nodes : List (Int × Bool)) (managed : List Int) (pending : Option Int) : Prop where
  distinct : (ids nodes).Nodup
  once : managed.Nodup
  live : ∀ i, (i,false) ∈ nodes → i ∈ managed ∨ pending = some i
  known : ∀ i ∈ managed, i ∈ ids nodes

variable {nodes : List (Int × Bool)} {managed : List Int} {pending : Option Int} {sockId i : Int}

@[simp] theorem ids_mark (sockId : Int) (nodes : List (Int × Bool)) : ids (mark sockId nodes) = ids nodes :=
  modifyFirst_view Prod.fst fun _ _ _ => rfl

theorem marked_mark (here : (i,true) ∈ nodes) : (i,true) ∈ mark sockId nodes := by
  induction nodes with
  | nil => cases here
  | cons node nodes ih =>
    rw [mark,modifyFirst]
    rcases List.mem_cons.mp here with rfl | later
    · split <;> exact List.mem_cons_self
    · split
      · exact List.mem_cons_of_mem _ later
      · exact List.mem_cons_of_mem _ (ih later)

theorem live_mark (distinct : (ids nodes).Nodup) :
    (i,false) ∈ mark sockId nodes ↔ (i,false) ∈ nodes ∧ i ≠ sockId := by
  induction nodes with
  | nil => simp [mark,modifyFirst]
  | cons node nodes ih =>
    obtain ⟨new,others⟩ := List.nodup_cons.mp distinct
    rw [mark,modifyFirst]
    by_cases same : node.1 = sockId
    · -- the other nodes have other sockets
      have apart : (i,false) ∈ nodes → i ≠ sockId := by
        rintro member rfl
        exact new (same ▸ List.mem_map_of_mem member)
      have mine : (i,false) = node → i = sockId := fun first => (congrArg Prod.fst first).trans same
      simp only [beq_iff_eq,same,if_true,List.mem_cons,Prod.mk.injEq,Bool.false_eq_true,and_false,false_or]
      constructor
      · exact fun member => ⟨Or.inr member,apart member⟩
      · rintro ⟨first | member,other⟩
        · exact absurd (mine first) other
        · exact member
    · have mine : (i,false) = node → i ≠ sockId := fun first => (congrArg Prod.fst first).trans_ne same
      simp only [beq_iff_eq,same,if_false,List.mem_cons]
      have rest := ih others
      rw [mark] at rest
      rw [rest]
      constructor
      · rintro (first | ⟨member,other⟩)
        · exact ⟨Or.inl first,mine first⟩
        · exact ⟨Or.inr member,other⟩
      · rintro ⟨first | member,other⟩
        · exact Or.inl first
        · exact Or.inr ⟨member,other⟩

theorem agree_insert (agree : Agree nodes managed none) (new : sockId ∉ ids nodes) :
    Agree ((sockId,false) :: nodes) managed (some sockId) where
  distinct := List.nodup_cons.mpr ⟨new,agree.distinct⟩
  once := agree.once
  live i here := by
    rcases List.mem_cons.mp here with first | member
    · exact Or.inr (congrArg some (Prod.mk.inj first).1.symm)
    · rcases agree.live i member with there | absurd
      · exact Or.inl there
      · cases absurd
  known i there := List.mem_cons_of_mem _ (agree.known i there)

theorem agree_manage (agree : Agree nodes managed (some sockId)) (listed : sockId ∈ ids nodes)
    (new : sockId ∉ managed) : Agree nodes (managed ++ [sockId]) none where
  distinct := agree.distinct
  once := List.nodup_append.mpr ⟨agree.once,List.nodup_singleton _,fun i there j last same =>
    new (List.mem_singleton.mp last ▸ same ▸ there)⟩
  live i here := by
    rcases agree.live i here with there | pending
    · exact Or.inl (List.mem_append_left _ there)
    · exact Or.inl (List.mem_append_right _ (by simpa using (Option.some.inj pending).symm))
  known i there := by
    rcases List.mem_append.mp there with old | last
    · exact agree.known i old
    · exact List.mem_singleton.mp last ▸ listed

theorem agree_mark {after : Option Int} (agree : Agree nodes managed pending)
    (settled : ∀ i, pending = some i → i ≠ sockId → after = some i) :
    Agree (mark sockId nodes) managed after where
  distinct := by rw [ids_mark]; exact agree.distinct
  once := agree.once
  live i here := by
    obtain ⟨member,other⟩ := (live_mark agree.distinct).mp here
    exact (agree.live i member).imp_right fun waits => settled i waits other
  known i there := by rw [ids_mark]; exact agree.known i there

theorem agree_unmanage (agree : Agree nodes managed none) :
    Agree nodes (managed.erase sockId) (some sockId) where
  distinct := agree.distinct
  once := agree.once.erase sockId
  live i here := by
    rcases agree.live i here with there | absurd
    · by_cases same : i = sockId
      · exact Or.inr (congrArg some same.symm)
      · exact Or.inl ((List.mem_erase_of_ne same).mpr there)
    · cases absurd
  known i there := agree.known i (List.mem_of_mem_erase there)

theorem agree_remove {marked : Bool} (agree : Agree ((sockId,marked) :: nodes) managed pending) :
    Agree nodes (managed.erase sockId) pending := by
  obtain ⟨new,distinct⟩ := List.nodup_cons.mp agree.distinct
  refine ⟨distinct,agree.once.erase sockId,?_,?_⟩
  · intro i here
    have listed : i ∈ ids nodes := List.mem_map_of_mem here
    have other : i ≠ sockId := by
      rintro rfl
      exact new listed
    exact (agree.live i (List.mem_cons_of_mem _ here)).imp_left (List.mem_erase_of_ne other).mpr
  · intro i there
    obtain ⟨other,old⟩ := agree.once.mem_erase_iff.mp there
    rcases List.mem_cons.mp (agree.known i old) with same | listed
    · exact absurd same other
    · exact listed

end Lists

section Views

/-! What the routines do to the sockets and the marks. -/

def node (info : CliRunningInfo) : Int × Bool := (info.ctrlSockId,isDeleting info)

variable (cri : Cri) (cliMgr : CliMgr) (sockId : Int)

theorem nodes_markDeleting : (criRefresh cri sockId markDeleting).map node = mark sockId (cri.map node) :=
  modifyFirst_map node (·.1 == sockId) (fun n => (n.1,true)) (fun _ => rfl) cri

theorem nodes_refresh {test : CliRunningInfo → Bool} {change : CliRunningInfo → CliRunningInfo}
    (same : ∀ info ∈ cri, test info = true → node (change info) = node info) :
    (modifyFirst test change cri).map node = cri.map node :=
  modifyFirst_view node same

variable {cri sockId} in
theorem nodes_insert {info : CliRunningInfo} (new : info.ctrlSockId ∉ ids (cri.map node)) :
    (criInsert cri info).map node = node info :: cri.map node := by
  have absent : criFind cri info.ctrlSockId = none := by
    refine List.find?_eq_none.mpr fun other member same => new ?_
    have here : node other ∈ cri.map node := List.mem_map_of_mem member
    exact beq_iff_eq.mp same ▸ (List.mem_map_of_mem here : (node other).1 ∈ ids (cri.map node))
  rw [criInsert,absent,List.map_cons]

theorem ids_setState (state : CliState) :
    (cliMgrSetState cliMgr sockId state).map CliInfo.ctrlSockId = cliMgr.map CliInfo.ctrlSockId :=
  modifyFirst_view CliInfo.ctrlSockId fun _ _ _ => rfl

theorem ids_refreshHeartbeat (clock : Int) :
    (cliMgrRefreshHeartbeat cliMgr sockId clock).map CliInfo.ctrlSockId = cliMgr.map CliInfo.ctrlSockId :=
  modifyFirst_view CliInfo.ctrlSockId fun _ _ _ => rfl

theorem ids_deleteCli :
    (cliMgrDeleteCli cliMgr sockId).map CliInfo.ctrlSockId = (cliMgr.map CliInfo.ctrlSockId).erase sockId := by
  induction cliMgr with
  | nil => rfl
  | cons info cliMgr ih =>
    rw [cliMgrDeleteCli,List.eraseP_cons,List.map_cons,List.erase_cons]
    by_cases same : info.ctrlSockId = sockId
    · simp [isCli,same]
    · have other : (info.ctrlSockId == sockId) = false := beq_eq_false_iff_ne.mpr same
      simpa [isCli,other,cliMgrDeleteCli] using ih

theorem ids_insertNewCli (id : Nat) (ctrlPort : Int) (memory : Bool) :
    ((cliMgrInsertNewCli cliMgr sockId id ctrlPort memory).1.map CliInfo.ctrlSockId) =
      if (cliMgrInsertNewCli cliMgr sockId id ctrlPort memory).2 < 0 then cliMgr.map CliInfo.ctrlSockId
      else cliMgr.map CliInfo.ctrlSockId ++ [sockId] := by
  unfold cliMgrInsertNewCli
  split
  · rfl
  · cases memory <;> simp

end Views

section Steps

/-- The client that is listed and not known to `cliMgr`: between two steps of its insertion, or
because `cliMgr` has refused it or its thread could not be started. -/
def AcceptPc.pending : AcceptPc → Option Int
  | .cliMgrInsertNewCli c | .criDeleteCliInfo c | .criDeleteStopped c => some c.sockId
  | _ => none

def AcceptPc.unlisted : AcceptPc → Option Int
  | .criIsCliExist c | .criSetDataSocketInfo c | .criInsertNewCliInfo c => some c.sockId
  | _ => none

def AcceptPc.unstarted : AcceptPc → Option Int
  | .criIsCliExist c | .criSetDataSocketInfo c | .criInsertNewCliInfo c | .cliMgrInsertNewCli c
  | .criDeleteCliInfo c | .startCtrlThread c => some c.sockId
  | _ => none

def SweepPc.stops : SweepPc → Option Nat
  | .killing pos _ | .joining pos _ _ => some pos
  | _ => none

def ServerState.nodes (s : ServerState) : List (Int × Bool) := s.cri.map node

def ServerState.managed (s : ServerState) : List Int := s.cliMgr.map CliInfo.ctrlSockId

/-- The steps in which no routine of the source slips: the node of a new client is allocated,
the accept thread does not set a marked node to RUNNING, and the sweep unlinks no node that
stays. -/
def regularStep (s : ServerState) : ServerEvent → Prop
  | .criInsertNewCliInfo _ memory => memory.isSome = true
  | .criRefreshCtrlThrInfo c _ => ∀ info ∈ s.cri, info.ctrlSockId = c.sockId → isDeleting info = false
  | .sweepUnlink pos _ => pos = 0
  | _ => True

instance (s : ServerState) : (event : ServerEvent) → Decidable (regularStep s event)
  | .criInsertNewCliInfo _ _ => inferInstanceAs (Decidable (_ = _))
  | .criRefreshCtrlThrInfo _ _ => inferInstanceAs (Decidable (∀ info ∈ _,_))
  | .sweepUnlink _ _ => inferInstanceAs (Decidable (_ = _))
  | .accept _ | .criIsCliExist _ | .criSetDataSocketInfo _ | .cliMgrInsertNewCli _ _
  | .criDeleteCliInfo _ | .startCtrlThread _ _ _ | .cliMgrDeleteCli _ | .criDeleteStopped _ | .arrive _
  | .pselect _ _ | .readn _ _ | .lock _ _ _ | .criTask _ _ _ | .cliMgrTask _ _ _ | .loop _
  | .interrupt _ | .sweepLock | .sweepNode _ _ | .killThread _ _ _ | .joined _ _ _
  | .sweepUnlock _ => isTrue trivial

structure Consistent (s : ServerState) : Prop where
  agree : Agree s.nodes s.managed s.accept.pending
  opened : ∀ i ∈ ids s.nodes, i ∈ s.opened
  unlisted : ∀ i, s.accept.unlisted = some i → i ∉ ids s.nodes
  unmanaged : ∀ c, s.accept = .cliMgrInsertNewCli c →
    (c.sockId,false) ∈ s.nodes ∧ c.sockId ∉ s.managed
  unstarted : ∀ i, s.accept.unstarted = some i → i ∈ s.opened
  threads : ∀ thId, s.pc thId ≠ .absent →
    (s.threads thId).sockId ∈ s.opened ∧ s.accept.unstarted ≠ some (s.threads thId).sockId
  stops : ∀ pos, s.sweep.stops = some pos → ∃ info, s.cri[pos]? = some info ∧ isDeleting info = true

variable {s : ServerState} {event : ServerEvent} {sockId : Int}

theorem consistent_initial : Consistent .initial where
  agree := ⟨List.nodup_nil,List.nodup_nil,fun _ absent => (nomatch absent),fun _ absent => (nomatch absent)⟩
  opened _ absent := nomatch absent
  unlisted _ absent := nomatch absent
  unmanaged _ absent := nomatch absent
  unstarted _ absent := nomatch absent
  threads _ present := absurd rfl present
  stops _ absent := nomatch absent

theorem consistent_setThread (consistent : Consistent s) (thId : Nat) (change : CtrlThread → CtrlThread)
    (present : s.pc thId ≠ .absent) (sock : ∀ t, (change t).sockId = t.sockId) :
    Consistent (s.setThread thId change) := by
  refine {consistent with threads := fun other here => ?_}
  by_cases same : other = thId
  · rw [same,setThread_self,sock]
    exact consistent.threads thId present
  · rw [ServerState.pc,setThread_other s thId change same] at here
    rw [setThread_other s thId change same]
    exact consistent.threads other here

theorem consistent_same (consistent : Consistent s) {cri : Cri} {cliMgr : CliMgr}
    (nodes : cri.map node = s.nodes) (managed : cliMgr.map CliInfo.ctrlSockId = s.managed)
    (still : cri = s.cri ∨ s.free) : Consistent {s with cri, cliMgr} := by
  have listed : ({s with cri, cliMgr} : ServerState).nodes = s.nodes := nodes
  have known : ({s with cri, cliMgr} : ServerState).managed = s.managed := managed
  refine ⟨?_,?_,?_,?_,consistent.unstarted,consistent.threads,?_⟩
  · rw [listed,known]
    exact consistent.agree
  · rw [listed]
    exact consistent.opened
  · rw [listed]
    exact consistent.unlisted
  · rw [listed,known]
    exact consistent.unmanaged
  · intro pos stopped
    rcases still with rfl | free
    · exact consistent.stops pos stopped
    · cases (congrArg SweepPc.stops free).symm.trans stopped

theorem consistent_mark (consistent : Consistent s) (free : s.free)
    (other : s.accept.unstarted ≠ some sockId) :
    Consistent {s with cri := criRefresh s.cri sockId markDeleting} := by
  have listed : ({s with cri := criRefresh s.cri sockId markDeleting} : ServerState).nodes =
      mark sockId s.nodes := nodes_markDeleting s.cri sockId
  refine ⟨?_,?_,?_,?_,consistent.unstarted,consistent.threads,?_⟩
  · rw [listed]
    exact agree_mark consistent.agree fun i waits _ => waits
  · rw [listed,ids_mark]
    exact consistent.opened
  · rw [listed,ids_mark]
    exact consistent.unlisted
  · intro c inserting
    obtain ⟨live,new⟩ := consistent.unmanaged c inserting
    rw [listed,live_mark consistent.agree.distinct]
    refine ⟨⟨live,?_⟩,new⟩
    rintro rfl
    exact other (congrArg AcceptPc.unstarted inserting)
  · intro pos stopped
    cases (congrArg SweepPc.stops free).symm.trans stopped

theorem consistent_move (consistent : Consistent s) {cri : Cri} {cliMgr : CliMgr} {pc : AcceptPc}
    (agree : Agree (cri.map node) (cliMgr.map CliInfo.ctrlSockId) pc.pending)
    (same : ids (cri.map node) = ids s.nodes) (still : cri = s.cri ∨ s.free)
    (unlisted : ∀ i, pc.unlisted = some i → s.accept.unlisted = some i)
    (unstarted : ∀ i, pc.unstarted = some i → s.accept.unstarted = some i)
    (inserted : ∀ c, pc ≠ .cliMgrInsertNewCli c) : Consistent {s with cri, cliMgr, accept := pc} := by
  have listed : ids ({s with cri, cliMgr, accept := pc} : ServerState).nodes = ids s.nodes := same
  refine ⟨agree,?_,?_,?_,?_,?_,?_⟩
  · rw [listed]
    exact consistent.opened
  · rw [listed]
    exact fun i here => consistent.unlisted i (unlisted i here)
  · exact fun c here => absurd here (inserted c)
  · exact fun i here => consistent.unstarted i (unstarted i here)
  · intro thId present
    obtain ⟨opened,other⟩ := consistent.threads thId present
    exact ⟨opened,fun mine => other (unstarted _ mine)⟩
  · intro pos stopped
    rcases still with rfl | free
    · exact consistent.stops pos stopped
    · cases (congrArg SweepPc.stops free).symm.trans stopped

theorem accept_consistent (consistent : Consistent s) {c : NewCli} (enabled : serverEnabled s (.accept c)) :
    Consistent (serverNext s (.accept c)) := by
  obtain ⟨waiting,new⟩ := enabled
  refine ⟨?_,?_,?_,?_,?_,?_,consistent.stops⟩
  · have agree := consistent.agree
    rwa [waiting] at agree
  · exact fun i listed => List.mem_cons_of_mem _ (consistent.opened i listed)
  · rintro i ⟨⟩ listed
    exact new (consistent.opened _ listed)
  · exact fun c' absent => nomatch absent
  · rintro i ⟨⟩
    exact List.mem_cons_self
  · intro thId present
    obtain ⟨opened,_⟩ := consistent.threads thId present
    refine ⟨List.mem_cons_of_mem _ opened,?_⟩
    intro mine
    exact new (Option.some.inj mine ▸ opened)

theorem criInsert_consistent (consistent : Consistent s) {c : NewCli} {memory : CryptInfo}
    (enabled : serverEnabled s (.criInsertNewCliInfo c (some memory))) :
    Consistent (serverNext s (.criInsertNewCliInfo c (some memory))) := by
  obtain ⟨inserting,free⟩ := enabled
  have agree := consistent.agree
  have new := consistent.unlisted c.sockId (by rw [inserting]; rfl)
  have opened := consistent.unstarted c.sockId (by rw [inserting]; rfl)
  rw [inserting] at agree
  have listed : (serverNext s (.criInsertNewCliInfo c (some memory))).nodes = (c.sockId,false) :: s.nodes :=
    nodes_insert (show (newCliInfo c.ipValue c.sockId c.port memory).ctrlSockId ∉ ids s.nodes from new)
  refine ⟨?_,?_,?_,?_,?_,?_,?_⟩
  · rw [listed]
    exact agree_insert agree new
  · rw [listed]
    intro i member
    rcases List.mem_cons.mp member with rfl | old
    · exact opened
    · exact consistent.opened i old
  · exact fun i absent => nomatch absent
  · rintro c' ⟨⟩
    rw [listed]
    refine ⟨List.mem_cons_self,fun there => new (agree.known _ there)⟩
  · rintro i ⟨⟩
    exact opened
  · have own := consistent.threads
    rwa [inserting] at own
  · intro pos stopped
    cases (congrArg SweepPc.stops free).symm.trans stopped

theorem cliMgrInsert_consistent (consistent : Consistent s) {c : NewCli} {memory : Bool}
    (inserting : s.accept = .cliMgrInsertNewCli c) :
    Consistent (serverNext s (.cliMgrInsertNewCli c memory)) := by
  obtain ⟨live,new⟩ := consistent.unmanaged c inserting
  have agree := consistent.agree
  have known := ids_insertNewCli s.cliMgr c.sockId c.ipValue c.port memory
  rw [inserting] at agree
  refine consistent_move consistent ?_ rfl (Or.inl rfl) ?_ ?_ ?_
  · rw [known]
    split
    · exact agree
    · exact agree_manage agree (List.mem_map_of_mem live) new
  · intro i here
    split at here <;> cases here
  · intro i here
    rw [inserting]
    split at here <;> exact here
  · intro c'
    split <;> simp

theorem start_consistent (consistent : Consistent s) {c : NewCli} {ret : Int} {thId : Nat}
    (enabled : serverEnabled s (.startCtrlThread c ret thId)) :
    Consistent (serverNext s (.startCtrlThread c ret thId)) := by
  obtain ⟨starting,fresh⟩ := enabled
  have agree := consistent.agree
  have opened := consistent.unstarted c.sockId (by rw [starting]; rfl)
  rw [starting] at agree
  have gone : ∀ pc : AcceptPc, pc.pending = none → pc.unlisted = none → pc.unstarted = none →
      (∀ c, pc ≠ .cliMgrInsertNewCli c) → Consistent {s with accept := pc} := by
    intro pc pending unlisted unstarted inserted
    refine consistent_move consistent ?_ rfl (Or.inl rfl) ?_ ?_ inserted
    · rw [pending]
      exact agree
    · rw [unlisted]
      exact fun i absent => nomatch absent
    · rw [unstarted]
      exact fun i absent => nomatch absent
  simp only [serverNext]
  split
  · exact gone _ rfl rfl rfl (by simp)
  · have refreshing := gone (.criRefreshCtrlThrInfo c thId) rfl rfl rfl (by simp)
    split
    · refine {refreshing with threads := fun other present => ?_}
      refine ⟨?_,fun absent => nomatch absent⟩
      by_cases same : other = thId
      · simpa [same] using opened
      · have here : s.pc other ≠ .absent := by simpa [ServerState.pc,same] using present
        simpa [same] using (consistent.threads other here).1
    · exact refreshing

theorem setCtrlThr_node {thId : Nat} {cri : Cri}
    (running : ∀ info ∈ cri, info.ctrlSockId = sockId → isDeleting info = false) :
    (criRefresh cri sockId (setCtrlThr thId)).map node = cri.map node := by
  refine nodes_refresh cri fun info member mine => ?_
  have unmarked := running info member (beq_iff_eq.mp mine)
  simp [node,setCtrlThr,isDeleting] at unmarked ⊢
  exact unmarked

theorem refresh_consistent (consistent : Consistent s) {c : NewCli} {thId : Nat}
    (enabled : serverEnabled s (.criRefreshCtrlThrInfo c thId))
    (regular : regularStep s (.criRefreshCtrlThrInfo c thId)) :
    Consistent (serverNext s (.criRefreshCtrlThrInfo c thId)) := by
  have same : (criRefresh s.cri c.sockId (setCtrlThr thId)).map node = s.nodes := setCtrlThr_node regular
  have agree := consistent.agree
  rw [enabled.1] at agree
  exact consistent_move consistent (by rw [same]; exact agree) (by rw [same]) (Or.inr enabled.2)
    (fun i absent => nomatch absent) (fun i absent => nomatch absent) (by simp)

theorem rollBack_consistent (consistent : Consistent s) {c : NewCli} {pc after : AcceptPc}
    (here : s.accept = pc) (free : s.free) (waits : pc.pending = some c.sockId)
    (unlisted : after.unlisted = none)
    (unstarted : ∀ i, after.unstarted = some i → pc.unstarted = some i)
    (inserted : ∀ c, after ≠ .cliMgrInsertNewCli c) :
    Consistent {s with accept := after, cri := criRefresh s.cri c.sockId markDeleting} := by
  subst here
  have marked := nodes_markDeleting s.cri c.sockId
  refine consistent_move consistent ?_ ?_ (Or.inr free) ?_ unstarted inserted
  · rw [marked]
    refine agree_mark consistent.agree fun i mine other => ?_
    rw [waits] at mine
    exact absurd (Option.some.inj mine).symm other
  · rw [marked,ids_mark]
    rfl
  · rw [unlisted]
    exact fun i absent => nomatch absent

theorem unlink_consistent (consistent : Consistent s) {info : CliRunningInfo}
    (enabled : serverEnabled s (.sweepUnlink 0 info)) :
    Consistent (serverNext s (.sweepUnlink 0 info)) := by
  obtain ⟨killing,first⟩ := enabled
  obtain ⟨found,same,deleting⟩ := consistent.stops 0 (congrArg SweepPc.stops killing)
  obtain rfl : info = found := Option.some.inj (first.symm.trans same)
  obtain ⟨rest,split⟩ : ∃ rest, s.cri = info :: rest := by
    cases cri : s.cri with
    | nil =>
      rw [cri] at first
      cases first
    | cons head rest =>
      rw [cri] at first
      cases first
      exact ⟨rest,rfl⟩
  have nodes : s.nodes = node info :: rest.map node := congrArg (List.map node) split
  have left : (serverNext s (.sweepUnlink 0 info)).nodes = rest.map node := by
    change (s.cri.drop 1).map node = _
    rw [split,List.drop_one,List.tail_cons]
  have erased : (serverNext s (.sweepUnlink 0 info)).managed = s.managed.erase info.ctrlSockId :=
    ids_deleteCli s.cliMgr info.ctrlSockId
  have part : ∀ i ∈ ids (rest.map node), i ∈ ids s.nodes := by
    rw [nodes]
    exact fun i there => List.mem_cons_of_mem _ there
  refine ⟨?_,?_,?_,?_,consistent.unstarted,consistent.threads,fun pos absent => nomatch absent⟩
  · have agree := consistent.agree
    rw [nodes] at agree
    rw [left,erased]
    exact agree_remove agree
  · rw [left]
    exact fun i there => consistent.opened i (part i there)
  · rw [left]
    exact fun i here there => consistent.unlisted i here (part i there)
  · intro c inserting
    obtain ⟨live,new⟩ := consistent.unmanaged c inserting
    rw [left,erased]
    refine ⟨?_,fun there => new (List.mem_of_mem_erase there)⟩
    rw [nodes] at live
    rcases List.mem_cons.mp live with marked | there
    · -- the node that is unlinked carries the mark
      cases deleting.symm.trans (Prod.mk.inj marked).2.symm
    · exact there

theorem task_consistent (consistent : Consistent s) {thId : Nat} {task : Task} {tasks : List Task}
    (enabled : serverEnabled s (.criTask thId task tasks)) :
    Consistent (serverNext s (.criTask thId task tasks)) := by
  obtain ⟨locking,free⟩ := enabled
  have present : s.pc thId ≠ .absent := by
    rw [locking]
    simp
  have moved := consistent_setThread consistent thId
    ({· with pc := .working (tasksAfter (s.threads thId).sockId s.cri task tasks)}) present (fun _ => rfl)
  cases task with
  | criDeleteCliInfo => exact consistent_mark moved free (consistent.threads thId present).2
  | criRefreshCryptInfo info =>
    exact consistent_same moved (nodes_refresh s.cri fun _ _ _ => rfl) rfl (Or.inr free)
  | criSetDataSockPort dataPort =>
    exact consistent_same moved (nodes_refresh s.cri fun _ _ _ => rfl) rfl (Or.inr free)
  | _ => exact moved

theorem step_consistent (consistent : Consistent s) (enabled : serverEnabled s event)
    (regular : regularStep s event) : Consistent (serverNext s event) := by
  have agree := consistent.agree
  cases event with
  | accept c => exact accept_consistent consistent enabled
  | criIsCliExist c =>
    rw [enabled.1] at agree
    refine consistent_move consistent ?_ rfl (Or.inl rfl) ?_ ?_ ?_
    · split <;> exact agree
    · intro i here
      rw [enabled.1]
      split at here <;> exact here
    · intro i here
      rw [enabled.1]
      split at here <;> exact here
    · intro c'
      split <;> simp
  | criSetDataSocketInfo c =>
    have same : (modifyFirst (·.ipValue == c.ipValue) (setDataSocket c) s.cri).map node = s.nodes :=
      nodes_refresh s.cri fun info _ _ => by unfold setDataSocket; split <;> rfl
    rw [enabled.1] at agree
    exact consistent_move consistent (by rw [same]; exact agree) (by rw [same]) (Or.inr enabled.2)
      (fun i absent => nomatch absent) (fun i absent => nomatch absent) (by simp)
  | criInsertNewCliInfo c memory =>
    obtain ⟨memory,rfl⟩ := Option.isSome_iff_exists.mp regular
    exact criInsert_consistent consistent enabled
  | cliMgrInsertNewCli c memory => exact cliMgrInsert_consistent consistent enabled
  | criDeleteCliInfo c =>
    exact rollBack_consistent consistent enabled.1 enabled.2 rfl rfl (fun _ same => same) (by simp)
  | startCtrlThread c ret thId => exact start_consistent consistent enabled
  | cliMgrDeleteCli c =>
    rw [show s.accept = _ from enabled] at agree
    have erased : (cliMgrDeleteCli s.cliMgr c.sockId).map CliInfo.ctrlSockId = s.managed.erase c.sockId :=
      ids_deleteCli s.cliMgr c.sockId
    exact consistent_move consistent (by rw [erased]; exact agree_unmanage agree) rfl (Or.inl rfl)
      (fun i absent => nomatch absent) (fun i absent => nomatch absent) (by simp)
  | criDeleteStopped c =>
    exact rollBack_consistent consistent enabled.1 enabled.2 rfl rfl (fun _ absent => nomatch absent)
      (by simp)
  | criRefreshCtrlThrInfo c thId => exact refresh_consistent consistent enabled regular
  | arrive thId =>
    exact consistent_setThread consistent thId ({· with readable := true}) enabled fun _ => rfl
  | pselect thId pass =>
    exact consistent_setThread consistent thId ({· with pc := .working pass.tasks})
      (by rw [enabled.1]; simp) fun _ => rfl
  | readn thId tasks =>
    exact consistent_setThread consistent thId ({· with readable := false})
      (by rw [show s.pc thId = _ from enabled]; simp) fun _ => rfl
  | lock thId task tasks =>
    exact consistent_setThread consistent thId ({· with pc := .locking task tasks})
      (by rw [enabled.1]; simp) fun _ => rfl
  | criTask thId task tasks => exact task_consistent consistent enabled
  | cliMgrTask thId task tasks =>
    have moved := consistent_setThread consistent thId ({· with pc := .working tasks})
      (by rw [enabled.1]; simp) fun _ => rfl
    have known : (taskCliMgr (s.threads thId).sockId task s.cliMgr).map CliInfo.ctrlSockId = s.managed := by
      cases task with
      | cliMgrSetState state => exact ids_setState s.cliMgr _ state
      | cliMgrRefreshHeartbeat clock => exact ids_refreshHeartbeat s.cliMgr _ clock
      | _ => rfl
    exact consistent_same moved rfl known (Or.inl rfl)
  | loop thId =>
    exact consistent_setThread consistent thId ({· with pc := .selecting})
      (by rw [show s.pc thId = _ from enabled]; simp) fun _ => rfl
  | interrupt thId =>
    exact consistent_setThread consistent thId ({· with pc := .exited})
      (by rw [enabled.1]; simp) fun _ => rfl
  | sweepLock => exact {consistent with stops := fun pos absent => nomatch absent}
  | sweepNode pos info =>
    refine {consistent with stops := fun other stopped => ?_}
    simp only [serverNext] at stopped ⊢
    split at stopped
    · rename_i deleting
      cases stopped
      exact ⟨info,enabled.2,deleting⟩
    · cases stopped
  | killThread pos thId thIds =>
    have here : s.sweep.stops = some pos := congrArg SweepPc.stops enabled
    simp only [serverNext,killThread]
    split
    · exact {consistent with stops := fun other stopped => consistent.stops other (here.trans stopped)}
    · rename_i started
      have moved := consistent_setThread consistent thId ({· with signalled := true})
        (fun absent => started (Or.inr absent)) fun _ => rfl
      exact {moved with stops := fun other stopped => consistent.stops other (here.trans stopped)}
  | joined pos thId thIds =>
    have here : s.sweep.stops = some pos := congrArg SweepPc.stops enabled.1
    refine {consistent with
      threads := fun other present => ?_
      stops := fun other stopped => consistent.stops other (here.trans stopped)}
    have apart : other ≠ thId := by
      rintro rfl
      exact present (by simp [serverNext,ServerState.pc])
    have same : (serverNext s (.joined pos thId thIds)).threads other = s.threads other :=
      setThread_other s thId ({· with pc := .absent}) apart
    rw [ServerState.pc,same] at present
    rw [same]
    exact consistent.threads other present
  | sweepUnlink pos info =>
    obtain rfl : pos = 0 := regular
    exact unlink_consistent consistent enabled
  | sweepUnlock pos => exact {consistent with stops := fun pos absent => nomatch absent}

/-- Only unlinking takes a marked node away, and nothing takes the mark. -/
theorem step_marked (enabled : serverEnabled s event) (regular : regularStep s event) {i : Int}
    (marked : (i,true) ∈ s.nodes) :
    (i,true) ∈ (serverNext s event).nodes ∨
      ∃ pos info, event = .sweepUnlink pos info ∧ info.ctrlSockId = i := by
  have same : ∀ {cri : Cri}, cri.map node = s.nodes → (i,true) ∈ cri.map node := fun nodes => nodes ▸ marked
  have remarked : ∀ sockId, (i,true) ∈ (criRefresh s.cri sockId markDeleting).map node := by
    intro sockId
    rw [nodes_markDeleting]
    exact marked_mark marked
  cases event with
  | criSetDataSocketInfo c =>
    refine Or.inl (same (nodes_refresh s.cri fun info _ _ => ?_))
    unfold setDataSocket
    split <;> rfl
  | criInsertNewCliInfo c memory =>
    refine Or.inl ?_
    cases memory with
    | none => exact marked
    | some memory =>
      change (i,true) ∈ (criInsert s.cri _).map node
      unfold criInsert
      split
      · exact marked
      · exact List.mem_cons_of_mem _ marked
  | criDeleteCliInfo c => exact Or.inl (remarked c.sockId)
  | criDeleteStopped c => exact Or.inl (remarked c.sockId)
  | criRefreshCtrlThrInfo c thId => exact Or.inl (same (setCtrlThr_node regular))
  | startCtrlThread c ret thId =>
    refine Or.inl ?_
    simp only [serverNext]
    split
    · exact marked
    · split <;> exact marked
  | criTask thId task tasks =>
    cases task with
    | criDeleteCliInfo => exact Or.inl (remarked _)
    | criRefreshCryptInfo info => exact Or.inl (same (nodes_refresh s.cri fun _ _ _ => rfl))
    | criSetDataSockPort dataPort => exact Or.inl (same (nodes_refresh s.cri fun _ _ _ => rfl))
    | _ => exact Or.inl marked
  | killThread pos thId thIds =>
    refine Or.inl ?_
    simp only [serverNext,killThread]
    split <;> exact marked
  | sweepUnlink pos info =>
    obtain rfl : pos = 0 := regular
    obtain ⟨found,member,seen⟩ := List.mem_map.mp marked
    cases cri : s.cri with
    | nil =>
      rw [cri] at member
      cases member
    | cons head rest =>
      have first := enabled.2
      rw [cri] at first member
      cases first
      rcases List.mem_cons.mp member with rfl | later
      · exact Or.inr ⟨0,found,rfl,(Prod.mk.inj seen).1⟩
      · refine Or.inl ?_
        change (i,true) ∈ (s.cri.drop 1).map node
        rw [cri,List.drop_one,List.tail_cons,← seen]
        exact List.mem_map_of_mem later
  | _ => exact Or.inl marked

end Steps

section Runs

variable {s : ServerState}

/-- Nodes that are not marked are known to `cliMgr`, but for the client the accept thread has in
hand; `cliMgr` knows listed clients only; and marks stay until the sweep unlinks the node. -/
theorem lists_agree (run : server.Run regularStep .initial s) :
    (∀ info ∈ s.cri, isDeleting info = false →
      info.ctrlSockId ∈ s.managed ∨ s.accept.pending = some info.ctrlSockId) ∧
    (∀ i ∈ s.managed, ∃ info ∈ s.cri, info.ctrlSockId = i) ∧
    ∀ event, serverEnabled s event → regularStep s event → ∀ i, (i,true) ∈ s.nodes →
      (i,true) ∈ (serverNext s event).nodes ∨
      ∃ pos info, event = .sweepUnlink pos info ∧ info.ctrlSockId = i := by
  have consistent : Consistent s := run_invariant consistent_initial step_consistent run
  refine ⟨?_,?_,fun event enabled regular i marked => step_marked enabled regular marked⟩
  · intro info member unmarked
    have listed : node info ∈ s.nodes := List.mem_map_of_mem member
    rw [node,unmarked] at listed
    exact consistent.agree.live _ listed
  · intro i known
    obtain ⟨listed,there,rfl⟩ := List.mem_map.mp (consistent.agree.known i known)
    obtain ⟨info,member,rfl⟩ := List.mem_map.mp there
    exact ⟨info,member,rfl⟩

theorem lists_agree_byebye :
    let s := byebyeEvents.foldl serverNext .initial
    (∀ info ∈ s.cri, isDeleting info = false →
      info.ctrlSockId ∈ s.managed ∨ s.accept.pending = some info.ctrlSockId) ∧
    (∀ i ∈ s.managed, ∃ info ∈ s.cri, info.ctrlSockId = i) ∧
    ∀ event, serverEnabled s event → regularStep s event → ∀ i, (i,true) ∈ s.nodes →
      (i,true) ∈ (serverNext s event).nodes ∨
        ∃ pos info, event = .sweepUnlink pos info ∧ info.ctrlSockId = i :=
  lists_agree (run_of_events (by decide) .start)

/-- After a byebye `cliMgr` knows the client until the sweep comes. -/
theorem byebye_disagrees : ∃ s, server.Run regularStep .initial s ∧
    ¬∀ i, (∃ info ∈ s.cri, isDeleting info = false ∧ info.ctrlSockId = i) ↔ i ∈ s.managed := by
  have follows : server.Follows regularStep .initial byebyeEvents := by decide
  refine ⟨_,run_of_events follows .start,fun same => ?_⟩
  obtain ⟨info,member,unmarked,_⟩ := (same 5).mpr (by decide)
  revert info
  decide

end Runs

end MoCodes.Cps.Server
