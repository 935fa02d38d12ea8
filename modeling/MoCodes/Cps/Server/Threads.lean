import MoCodes.Cps.Server.Control
import MoCodes.Cps.Server.Sweep

/-! What the other threads of the server do to the two client lists between the passes of
one control thread: the accept thread inserts clients, the control threads and the client
manager change them, and the sweeps remove them. None of them makes this client agreed
or changes its crypt info. -/
namespace MoCodes.Cps.Server
open MoCodes.Lib.LinkedList

structure Accept where
  ipValue : Nat
  port : Int
  cliSockId : Int
  criMemory : Option CryptInfo
  cliMgrMemory : Bool
  thId : Option Nat

/-- `doAcceptThr` for a client whose address is new. -/
def acceptCli (accept : Accept) (clients : Clients) : Clients :=
  let cri := match accept.criMemory with
    | some memory => criInsert clients.cri (newCliInfo accept.ipValue accept.cliSockId accept.port memory)
    | none => clients.cri
  let inserted := cliMgrInsertNewCli clients.cliMgr accept.cliSockId accept.ipValue accept.port accept.cliMgrMemory
  let cri := if inserted.2 < 0 then criRefresh cri accept.cliSockId markDeleting else cri
  match accept.thId with
  | some thId => ⟨criRefresh cri accept.cliSockId (setCtrlThr thId),inserted.1⟩
  | none => ⟨criRefresh cri accept.cliSockId markDeleting,cliMgrDeleteCli inserted.1 accept.cliSockId⟩

/-- A step of another thread, under one of the two mutexes. -/
inductive OtherStep (ctrlSockId : Int) : Clients → Clients → Prop where
  | insertCri {clients info} : info.ctrlSockId ≠ ctrlSockId →
      OtherStep ctrlSockId clients {clients with cri := criInsert clients.cri info}
  | refreshCri {clients} (test change) : (∀ info, (change info).ctrlSockId = info.ctrlSockId) →
      (∀ info, test info = true → info.ctrlSockId = ctrlSockId → (change info).cryptInfo = info.cryptInfo) →
      OtherStep ctrlSockId clients {clients with cri := modifyFirst test change clients.cri}
  | sweep {clients} : (clients.cri.map CliRunningInfo.ctrlSockId).Nodup →
      OtherStep ctrlSockId clients {clients with cri := criSweep clients.cri}
  | insertCliMgr {clients sockId id ctrlPort memory} : sockId ≠ ctrlSockId →
      OtherStep ctrlSockId clients
        {clients with cliMgr := (cliMgrInsertNewCli clients.cliMgr sockId id ctrlPort memory).1}
  | refreshCliMgr {clients} (test change) : (∀ info, (change info).ctrlSockId = info.ctrlSockId) →
      (∀ info, test info = true → info.ctrlSockId = ctrlSockId →
        ((change info).state = .keyAgreed ↔ info.state = .keyAgreed)) →
      OtherStep ctrlSockId clients {clients with cliMgr := modifyFirst test change clients.cliMgr}
  | deleteCliMgr {clients sockId} : (clients.cliMgr.map CliInfo.ctrlSockId).Nodup →
      OtherStep ctrlSockId clients {clients with cliMgr := cliMgrDeleteCli clients.cliMgr sockId}

/-- What is left of this client has the crypt info it had, and is agreed only if it was. -/
structure OthersKeep (ctrlSockId : Int) (before after : Clients) : Prop where
  cryptInfo : ∀ info, criFind after.cri ctrlSockId = some info →
    ∃ old, criFind before.cri ctrlSockId = some old ∧ old.cryptInfo = info.cryptInfo
  state : cliMgrGetState after.cliMgr ctrlSockId = some .keyAgreed →
    cliMgrGetState before.cliMgr ctrlSockId = some .keyAgreed

section Searches

variable {α : Type} {key : α → Int} {sockId : Int}

theorem find_part {items left : List α} (unique : (items.map key).Nodup)
    (part : ∀ item ∈ left, item ∈ items) {found : α}
    (search : left.find? (fun item => key item == sockId) = some found) :
    items.find? (fun item => key item == sockId) = some found := by
  have passes := List.find?_some search
  have member := part found (List.mem_of_find?_eq_some search)
  have somewhere : (items.find? fun item => key item == sockId).isSome :=
    List.find?_isSome.mpr ⟨found,member,passes⟩
  obtain ⟨first,here⟩ := Option.isSome_iff_exists.mp somewhere
  have same : first = found := by
    apply List.inj_on_of_nodup_map unique (List.mem_of_find?_eq_some here) member
    have first_passes := List.find?_some here
    rw [beq_iff_eq] at passes first_passes
    rw [first_passes,passes]
  rw [here,same]

end Searches

section Steps

variable {ctrlSockId : Int} {before after : Clients}

theorem insertCri_find {cri : Cri} {info : CliRunningInfo} (other : info.ctrlSockId ≠ ctrlSockId) :
    criFind (criInsert cri info) ctrlSockId = criFind cri ctrlSockId := by
  unfold criInsert
  cases criFind cri info.ctrlSockId with
  | some old => rfl
  | none =>
    rw [criFind,List.find?_cons_of_neg]
    · rfl
    · simpa [isClient] using other

theorem insertCliMgr_find {cliMgr : CliMgr} {sockId ctrlPort : Int} {id : Nat} {memory : Bool}
    (other : sockId ≠ ctrlSockId) :
    cliMgrFind (cliMgrInsertNewCli cliMgr sockId id ctrlPort memory).1 ctrlSockId =
      cliMgrFind cliMgr ctrlSockId := by
  unfold cliMgrInsertNewCli
  split
  · rfl
  · split
    · have refused : isCli ctrlSockId ⟨id,ctrlPort,sockId,.ctrlSockIn,0⟩ = false := by
        simpa [isCli] using other
      simp [cliMgrFind,List.find?_append,refused]
    · rfl

theorem otherStep_keeps (step : OtherStep ctrlSockId before after) : OthersKeep ctrlSockId before after := by
  cases step with
  | insertCri other =>
    refine ⟨fun info found => ⟨info,?_,rfl⟩,id⟩
    rwa [insertCri_find other] at found
  | refreshCri test change sock own =>
    refine ⟨fun info found => ?_,id⟩
    have same : (criFind (modifyFirst test change before.cri) ctrlSockId).map CliRunningInfo.cryptInfo =
        (criFind before.cri ctrlSockId).map CliRunningInfo.cryptInfo := by
      apply find_modifyFirst_view
      · intro info
        rw [isClient,isClient,sock]
      · exact fun info passes mine => own info passes (beq_iff_eq.mp mine)
    rw [found] at same
    exact Option.map_eq_some_iff.mp same.symm
  | sweep unique =>
    refine ⟨fun info found => ⟨info,find_part unique ?_ found,rfl⟩,id⟩
    exact fun item member => (List.rtakeWhile_suffix _ _).mem member
  | insertCliMgr other =>
    refine ⟨fun info found => ⟨info,found,rfl⟩,fun agreed => ?_⟩
    rwa [cliMgrGetState,insertCliMgr_find other] at agreed
  | refreshCliMgr test change sock own =>
    refine ⟨fun info found => ⟨info,found,rfl⟩,fun agreed => ?_⟩
    have same : (cliMgrFind (modifyFirst test change before.cliMgr) ctrlSockId).map
          (fun info => decide (info.state = .keyAgreed)) =
        (cliMgrFind before.cliMgr ctrlSockId).map fun info => decide (info.state = .keyAgreed) := by
      apply find_modifyFirst_view
      · intro info
        rw [isCli,isCli,sock]
      · exact fun info passes mine => decide_eq_decide.mpr (own info passes (beq_iff_eq.mp mine))
    obtain ⟨info,found,state⟩ := Option.map_eq_some_iff.mp agreed
    rw [found,Option.map_some,state,decide_eq_true rfl] at same
    obtain ⟨old,there,agreed_before⟩ := Option.map_eq_some_iff.mp same.symm
    exact Option.map_eq_some_iff.mpr ⟨old,there,of_decide_eq_true agreed_before⟩
  | deleteCliMgr unique =>
    refine ⟨fun info found => ⟨info,found,rfl⟩,fun agreed => ?_⟩
    obtain ⟨info,found,state⟩ := Option.map_eq_some_iff.mp agreed
    have whole := find_part unique (fun item member => List.mem_of_mem_eraseP member) found
    exact Option.map_eq_some_iff.mpr ⟨info,whole,state⟩

theorem acceptCli_state (accept : Accept) {clients : Clients}
    (new : cliMgrFind clients.cliMgr accept.cliSockId = none) :
    cliMgrGetState (acceptCli accept clients).cliMgr accept.cliSockId ≠ some .keyAgreed := by
  have inside : ∀ info ∈ (acceptCli accept clients).cliMgr, info.ctrlSockId = accept.cliSockId →
      info.state = .ctrlSockIn := by
    have old : ∀ info ∈ clients.cliMgr, info.ctrlSockId ≠ accept.cliSockId := by
      intro info member same
      exact List.find?_eq_none.mp new info member (beq_iff_eq.mpr same)
    have inserted : ∀ info ∈ (cliMgrInsertNewCli clients.cliMgr accept.cliSockId accept.ipValue accept.port
        accept.cliMgrMemory).1, info.ctrlSockId = accept.cliSockId → info.state = .ctrlSockIn := by
      intro info member same
      unfold cliMgrInsertNewCli at member
      split at member
      · exact absurd same (old info member)
      · split at member
        · rcases List.mem_append.mp member with before | last
          · exact absurd same (old info before)
          · rw [List.mem_singleton.mp last]
        · exact absurd same (old info member)
    intro info member same
    unfold acceptCli at member
    cases started : accept.thId with
    | some thId =>
      simp only [started] at member
      exact inserted info member same
    | none =>
      simp only [started] at member
      exact inserted info (List.mem_of_mem_eraseP member) same
  intro agreed
  obtain ⟨info,found,state⟩ := Option.map_eq_some_iff.mp agreed
  have mine := List.find?_some found
  rw [inside info (List.mem_of_find?_eq_some found) (beq_iff_eq.mp mine)] at state
  cases state

end Steps

end MoCodes.Cps.Server
