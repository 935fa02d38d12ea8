import MoCodes.Lib.Transition
import MoCodes.MoCloud.Proto

/-! How moCloudClientLib.c keeps its lists of files: the heartbeat thread hands over a type in
gRefreshFilelistType and counts the wake-ups, the refresh thread asks for a list and replaces
what it has. The client is logged in, and every answer comes to the refresh thread in time. -/
namespace MoCodes.MoCloud.Client
open Lib.Transition

/-- The answer to a request that was sent when so many FILELIST_CHANGED had been handled. -/
structure Fetch where
  handled : Nat
  infos : List BasicFileinfo

/-- A list of gpFilelist and the fetch in which it was last freed, if it was. -/
structure Filelist where
  infos : List BasicFileinfo := []
  fetch : Option Fetch := none

abbrev Filelists := Int → Filelist

/-- `for( ; curType < limit; curType *= 2)`, which turns no more than `limit` times. -/
def curTypes (limit : Int) : Nat → Int → List Int
  | 0,_ => []
  | fuel+1,curType => if curType < limit then curType :: curTypes limit fuel (curType*2) else []

/-- The places of gpFilelist that freeLocalFilelist goes over. -/
def freedTypes (type : Int) : List Int :=
  let limit := if type = filetypeAll then filetypeAll else type+1
  curTypes limit limit.toNat (if type = filetypeAll then filetypeVideo else type)

def freeLocalFilelist (fetch : Fetch) (type : Int) (gpFilelist : Filelists) : Filelists :=
  if filetypeMax ≤ type then gpFilelist
  else fun curType => if curType ∈ freedTypes type then ⟨[],some fetch⟩ else gpFilelist curType

/-- The enum of a record is an `unsigned int`. -/
def Rejected (type : Int) (info : BasicFileinfo) : Prop :=
  ¬ (0 ≤ info.key.filetype ∧ info.key.filetype < filetypeMax) ∨
    type ≠ filetypeAll ∧ info.key.filetype ≠ type

instance (type : Int) (info : BasicFileinfo) : Decidable (Rejected type info) :=
  inferInstanceAs (Decidable (_ ∨ _))

/-- The loop of setFilelistValue, with memory for so many nodes; `none` is an access behind the
end of gpFilelist, which has MOCLOUD_FILETYPE_ALL places. -/
def saveInfos (type : Int) : List BasicFileinfo → Nat → Filelists → Option (Int × Filelists)
  | [],_,gpFilelist => some (0,gpFilelist)
  | info :: infos,memory,gpFilelist =>
    let curType := info.key.filetype
    if Rejected type info then saveInfos type infos memory gpFilelist
    else
      match memory with
      | 0 => some (-2,gpFilelist)
      | memory+1 =>
        if curType = filetypeAll then none
        else
          saveInfos type infos memory
            (Function.update gpFilelist curType
              { gpFilelist curType with infos := info :: (gpFilelist curType).infos })

def setFilelistValue (fetch : Fetch) (memory : Nat) (type : Int) (gpFilelist : Filelists) :
    Option (Int × Filelists) :=
  if type < filetypeVideo ∨ filetypeMax ≤ type then some (-1,gpFilelist)
  else
    (saveInfos type fetch.infos memory (freeLocalFilelist fetch type gpFilelist)).map fun (ret,saved) =>
      if ret < 0 then (ret,freeLocalFilelist fetch type saved) else (ret,saved)

def ofType (type : Int) (infos : List BasicFileinfo) : List BasicFileinfo :=
  (infos.filter fun info => info.key.filetype = type).reverse

/-- A request for this type has it in the answer, and the client takes it. -/
def Covers (asked type : Int) : Prop := asked = type ∨ asked = filetypeAll

instance (asked type : Int) : Decidable (Covers asked type) := inferInstanceAs (Decidable (_ ∨ _))

section Lists

variable {type bit : Int} {infos : List BasicFileinfo} {memory : Nat} {gpFilelist saved : Filelists} {ret : Int}

theorem bit_range (member : bit ∈ filetypeBits) : 0 ≤ bit ∧ bit < filetypeMax ∧ bit ≠ filetypeAll := by
  have all : ∀ bit ∈ filetypeBits, 0 ≤ bit ∧ bit < filetypeMax ∧ bit ≠ filetypeAll := by decide
  exact all bit member

theorem mem_freedTypes (positive : 0 < type) (bound : type < filetypeMax) (member : bit ∈ filetypeBits) :
    bit ∈ freedTypes type ↔ Covers type bit := by
  have all : ∀ type ∈ (List.range 15).map fun n : Nat => (n : Int)+1,
      ∀ bit ∈ filetypeBits, bit ∈ freedTypes type ↔ Covers type bit := by decide
  refine all type (List.mem_map.mpr ⟨(type-1).toNat,?_,?_⟩) bit member
  · rw [filetypeMax] at bound
    rw [List.mem_range]
    omega
  · omega

theorem ofType_cons (info : BasicFileinfo) :
    ofType bit (info :: infos) = ofType bit infos ++ if info.key.filetype = bit then [info] else [] := by
  rw [ofType,ofType]
  by_cases same : info.key.filetype = bit
  · rw [List.filter_cons_of_pos (by simpa using same),List.reverse_cons,if_pos same]
  · rw [List.filter_cons_of_neg (by simpa using same),if_neg same,List.append_nil]

/-- The loop puts the records of a type before what is in its list, the last one first. -/
theorem saveInfos_lists (room : infos.length ≤ memory) (member : bit ∈ filetypeBits)
    (ran : saveInfos type infos memory gpFilelist = some (ret,saved)) :
    ret = 0 ∧ saved bit = if Covers type bit then
      { gpFilelist bit with infos := ofType bit infos ++ (gpFilelist bit).infos } else gpFilelist bit := by
  induction infos generalizing memory gpFilelist with
  | nil =>
    cases ran
    refine ⟨rfl,?_⟩
    split_ifs
    · rfl
    · rfl
  | cons info infos ih =>
    unfold saveInfos at ran
    dsimp only at ran
    rw [ofType_cons]
    by_cases rejected : Rejected type info
    · rw [if_pos rejected] at ran
      obtain ⟨zero,list⟩ := ih (Nat.le_of_succ_le room) ran
      refine ⟨zero,list.trans ?_⟩
      by_cases covers : Covers type bit
      · have other : info.key.filetype ≠ bit := by
          rintro rfl
          obtain ⟨lower,upper,_⟩ := bit_range member
          rcases rejected with outside | ⟨single,apart⟩
          · exact outside ⟨lower,upper⟩
          · rcases covers with same | all
            · exact apart same.symm
            · exact single all
        rw [if_pos covers,if_pos covers,if_neg other,List.append_nil]
      · rw [if_neg covers,if_neg covers]
    · rw [if_neg rejected] at ran
      obtain ⟨memory,rfl⟩ := Nat.exists_eq_succ_of_ne_zero (Nat.ne_of_gt (Nat.lt_of_lt_of_le (Nat.succ_pos _) room))
      dsimp only at ran
      split_ifs at ran
      obtain ⟨zero,list⟩ := ih (Nat.le_of_succ_le_succ room) ran
      refine ⟨zero,list.trans ?_⟩
      by_cases here : info.key.filetype = bit
      · subst here
        rw [Function.update_self,if_pos rfl,List.append_assoc]
        split_ifs with covers
        · rfl
        · refine absurd ?_ rejected
          exact .inr ⟨fun all => covers (.inr all),fun same => covers (.inl same.symm)⟩
      · rw [Function.update_of_ne (Ne.symm here),if_neg here,List.append_nil]

theorem setFilelistValue_lists (fetch : Fetch) (positive : 0 < type) (bound : type < filetypeMax)
    (room : fetch.infos.length ≤ memory) (member : bit ∈ filetypeBits)
    (ran : setFilelistValue fetch memory type gpFilelist = some (ret,saved)) :
    saved bit = if Covers type bit then ⟨ofType bit fetch.infos,some fetch⟩ else gpFilelist bit := by
  have inside : ¬ (type < filetypeVideo ∨ filetypeMax ≤ type) := by
    rw [filetypeVideo]
    omega
  rw [setFilelistValue,if_neg inside] at ran
  obtain ⟨⟨code,lists⟩,looped,same⟩ := Option.map_eq_some_iff.mp ran
  obtain ⟨rfl,list⟩ := saveInfos_lists room member looped
  cases same
  have freed : freeLocalFilelist fetch type gpFilelist bit =
      if Covers type bit then ⟨[],some fetch⟩ else gpFilelist bit := by
    rw [freeLocalFilelist,if_neg (not_le.mpr bound)]
    exact if_congr (mem_freedTypes positive bound member) rfl rfl
  rw [list,freed]
  by_cases covers : Covers type bit
  · rw [if_pos covers,if_pos covers,if_pos covers,List.append_nil]
  · rw [if_neg covers,if_neg covers,if_neg covers]

end Lists

/-- Where the refresh thread is. -/
inductive RefreshPlace where
  | semWait | woken
  | refreshFilelist (type : Int)
  | getRespHeader (type : Int) (handled : Nat)
  deriving DecidableEq

/-- `posting` is the heartbeat thread between its assignment and its `sem_post`. The change values
that have been handled and the requests that have been sent, each with the number of values
handled before it, are kept. -/
structure Refresh where
  gRefreshFilelistType : Int := filetypeMax
  gRefreshFilelistSem : Nat := 0
  posting : Bool := false
  place : RefreshPlace := .semWait
  gpFilelist : Filelists := fun _ => {}
  responses : List Int8 := []
  requests : List (Int × Nat) := []

namespace Refresh

/-- `answer` is the response to the request of the refresh thread, `run` any other step of it. -/
inductive Event where
  | doHeartbeatResp (resp : CtrlResponse)
  | semPost
  | run
  | answer (infos : List BasicFileinfo) (memory : Nat)

variable (state : Refresh)

def doHeartbeatResp (resp : CtrlResponse) : Refresh :=
  if resp.ret = HeartbeatRet.filelistChanged.code then
    { state with
      gRefreshFilelistType := resp.cInfo.toInt
      posting := true
      responses := state.responses ++ [resp.cInfo] }
  else state

def run : Option Refresh :=
  match state.place with
  | .semWait =>
    if state.gRefreshFilelistSem = 0 then none
    else some { state with gRefreshFilelistSem := state.gRefreshFilelistSem-1, place := .woken }
  | .woken => some { state with place := .refreshFilelist state.gRefreshFilelistType }
  | .refreshFilelist type =>
    if filetypeMax ≤ type then some { state with place := .semWait }
    else
      some
        { state with
          place := .getRespHeader type state.responses.length
          requests := state.requests ++ [(type,state.responses.length)] }
  | .getRespHeader .. => none

def answer (infos : List BasicFileinfo) (memory : Nat) : Option Refresh :=
  match state.place with
  | .getRespHeader type handled =>
    if infos = [] then some { state with place := .semWait }
    else
      (setFilelistValue ⟨handled,infos⟩ memory type state.gpFilelist).map fun (_,gpFilelist) =>
        { state with gpFilelist := gpFilelist, place := .semWait }
  | _ => none

def step : Event → Option Refresh
  | .doHeartbeatResp resp => if state.posting then none else some (state.doHeartbeatResp resp)
  | .semPost =>
    if state.posting then
      some { state with posting := false, gRefreshFilelistSem := state.gRefreshFilelistSem+1 }
    else none
  | .run => state.run
  | .answer infos memory => state.answer infos memory

/-- A change value is an OR of file type bits; no answer is empty, and its nodes find memory. -/
def Given : Event → Prop
  | .doHeartbeatResp resp => resp.ret = HeartbeatRet.filelistChanged.code →
    0 < resp.cInfo.toInt ∧ resp.cInfo.toInt < filetypeMax
  | .answer infos memory => infos ≠ [] ∧ infos.length ≤ memory
  | _ => True

instance : DecidablePred Given
  | .doHeartbeatResp _ => inferInstanceAs (Decidable (_ → _))
  | .semPost => isTrue trivial
  | .run => isTrue trivial
  | .answer .. => inferInstanceAs (Decidable (_ ∧ _))

def refreshSystem : System Refresh Event where
  Enabled state event := Given event ∧ (state.step event).isSome
  next state event := (state.step event).getD state

instance (event : Event) : Decidable (refreshSystem.Enabled state event) :=
  inferInstanceAs (Decidable (_ ∧ _))

/-- The list of a type is the one of an answer to a request that was sent after the response. -/
def Replaced (response : Nat) (type : Int) : Prop :=
  ∃ fetch, (state.gpFilelist type).fetch = some fetch ∧ response < fetch.handled ∧
    (state.gpFilelist type).infos = ofType type fetch.infos

def Refreshed : Prop :=
  ∀ response value, state.responses[response]? = some value →
    ∀ type ∈ filetypeBits, includes type value → state.Replaced response type

/-- The refresh thread has no wake-up left. -/
def Drained : Prop := state.gRefreshFilelistSem = 0 ∧ state.posting = false ∧ state.place = .semWait

/-- A request for the type has been sent after the response. -/
def Asked (response : Nat) (type : Int) : Prop :=
  ∃ request ∈ state.requests, Covers request.1 type ∧ response < request.2

/-- A response has carried the type and no request for it has been sent since. -/
def Owed (type : Int) : Prop :=
  ∃ response value, state.responses[response]? = some value ∧ includes type value ∧ ¬ state.Asked response type

/-- The refresh thread has read a type that covers this one and is about to ask for it. -/
def Taken (type : Int) : Prop := ∃ asked, state.place = .refreshFilelist asked ∧ Covers asked type

/-- A response changes the type that is handed over: what it carries and what is still owed has to
be covered by its value, or by what the refresh thread has read. -/
def Understood : Event → Prop
  | .doHeartbeatResp resp => resp.ret = HeartbeatRet.filelistChanged.code →
    ∀ type ∈ filetypeBits, includes type resp.cInfo ∨ state.Owed type →
      Covers resp.cInfo.toInt type ∨ state.Taken type
  | _ => True

/-- What goes on when no response comes any more. -/
def Own (_ : Refresh) : Event → Prop
  | .doHeartbeatResp _ => False
  | _ => True

/-- Whenever no response comes any more and the semaphore has been drained, the lists are new. -/
def Refreshes : Prop :=
  ∀ rest, refreshSystem.Follows Own state rest → (rest.foldl refreshSystem.next state).Drained →
    (rest.foldl refreshSystem.next state).Refreshed

/-- The type that is handed over will be read. -/
def Reading : Prop := state.posting = true ∨ state.gRefreshFilelistSem ≠ 0 ∨ state.place = .woken

/-- The list of a type is from a fetch that is not older than a request. -/
def Settled (type : Int) (handled : Nat) : Prop :=
  ∃ fetch, (state.gpFilelist type).fetch = some fetch ∧ handled ≤ fetch.handled

/-- What is read and asked for is a type; what has been asked for is on its way or is there. -/
structure Kept (state : Refresh) : Prop where
  reading : state.Reading → 0 < state.gRefreshFilelistType ∧ state.gRefreshFilelistType < filetypeMax
  taken : ∀ type, state.place = .refreshFilelist type → 0 < type ∧ type < filetypeMax
  sent : ∀ type handled, state.place = .getRespHeader type handled → 0 < type ∧ type < filetypeMax ∧
    (type,handled) ∈ state.requests ∧ ∀ request ∈ state.requests, request.2 ≤ handled
  handled : ∀ request ∈ state.requests, request.2 ≤ state.responses.length
  done : ∀ type ∈ filetypeBits, ∀ request ∈ state.requests, Covers request.1 type →
    state.place = .getRespHeader request.1 request.2 ∨ state.Settled type request.2
  lists : ∀ type ∈ filetypeBits, ∀ fetch, (state.gpFilelist type).fetch = some fetch →
    (state.gpFilelist type).infos = ofType type fetch.infos ∧
      ∃ request ∈ state.requests, Covers request.1 type ∧ request.2 = fetch.handled

section Step

variable {state after : Refresh} {event : Event}

theorem step_next (enabled : refreshSystem.Enabled state event) :
    state.step event = some (refreshSystem.next state event) := by
  obtain ⟨after,ran⟩ := Option.isSome_iff_exists.mp enabled.2
  rw [ran]
  simp [refreshSystem,ran]

theorem done_settled (kept : state.Kept) (no_request : ∀ type handled, state.place ≠ .getRespHeader type handled)
    (type : Int) (member : type ∈ filetypeBits) {request : Int × Nat} (sent : request ∈ state.requests)
    (covers : Covers request.1 type) : state.Settled type request.2 :=
  (kept.done type member request sent covers).resolve_left (no_request _ _)

theorem run_kept (kept : state.Kept) (ran : state.run = some after) : after.Kept := by
  rw [run] at ran
  cases here : state.place with
  | semWait =>
    rw [here] at ran
    dsimp only at ran
    split_ifs at ran with empty
    cases ran
    have settled := done_settled kept (by rw [here]; nofun)
    exact { kept with
      reading := fun _ => kept.reading (.inr (.inl empty))
      taken := nofun
      sent := nofun
      done := fun type member request sent covers => .inr (settled type member sent covers) }
  | woken =>
    rw [here] at ran
    cases ran
    have settled := done_settled kept (by rw [here]; nofun)
    have read := kept.reading (.inr (.inr here))
    exact { kept with
      reading := fun _ => read
      taken := fun type same => by cases same; exact read
      sent := nofun
      done := fun type member request sent covers => .inr (settled type member sent covers) }
  | refreshFilelist type =>
    rw [here] at ran
    obtain ⟨positive,bound⟩ := kept.taken type here
    dsimp only at ran
    rw [if_neg (not_le.mpr bound)] at ran
    cases ran
    have settled := done_settled kept (by rw [here]; nofun)
    constructor
    · rintro (posting | wakeUps | woken)
      · exact kept.reading (.inl posting)
      · exact kept.reading (.inr (.inl wakeUps))
      · cases woken
    · exact nofun
    · intro other handled same
      cases same
      refine ⟨positive,bound,List.mem_append_right _ List.mem_cons_self,?_⟩
      exact List.forall_mem_append.mpr ⟨kept.handled,List.forall_mem_singleton.mpr (Nat.le_refl _)⟩
    · exact List.forall_mem_append.mpr ⟨kept.handled,List.forall_mem_singleton.mpr (Nat.le_refl _)⟩
    · intro bit member request sent covers
      rcases List.mem_append.mp sent with earlier | now
      · exact .inr (settled bit member earlier covers)
      · rw [List.mem_singleton.mp now]
        exact .inl rfl
    · intro bit member fetch found
      obtain ⟨same,request,sent,covers,handled⟩ := kept.lists bit member fetch found
      exact ⟨same,request,List.mem_append_left _ sent,covers,handled⟩
  | getRespHeader type handled =>
    rw [here] at ran
    cases ran

theorem answer_kept {infos : List BasicFileinfo} {memory : Nat} (kept : state.Kept)
    (given : Given (.answer infos memory)) (ran : state.answer infos memory = some after) : after.Kept := by
  rw [answer] at ran
  cases here : state.place with
  | getRespHeader type handled =>
    rw [here] at ran
    obtain ⟨positive,bound,listed,latest⟩ := kept.sent type handled here
    dsimp only at ran
    rw [if_neg given.1] at ran
    obtain ⟨⟨ret,saved⟩,stored,rfl⟩ := Option.map_eq_some_iff.mp ran
    have lists := fun bit (member : bit ∈ filetypeBits) =>
      setFilelistValue_lists ⟨handled,infos⟩ positive bound given.2 member stored
    constructor
    · rintro (posting | wakeUps | woken)
      · exact kept.reading (.inl posting)
      · exact kept.reading (.inr (.inl wakeUps))
      · cases woken
    · exact nofun
    · exact nofun
    · exact kept.handled
    · intro bit member request sent covers
      right
      rw [Settled]
      dsimp only
      rw [lists bit member]
      by_cases asked : Covers type bit
      · rw [if_pos asked]
        exact ⟨_,rfl,latest request sent⟩
      · rw [if_neg asked]
        refine (kept.done bit member request sent covers).resolve_left fun same => asked ?_
        rw [here] at same
        cases same
        exact covers
    · intro bit member fetch found
      dsimp only at found ⊢
      rw [lists bit member] at found ⊢
      by_cases asked : Covers type bit
      · rw [if_pos asked] at found ⊢
        cases found
        exact ⟨rfl,(type,handled),listed,asked,rfl⟩
      · rw [if_neg asked] at found ⊢
        exact kept.lists bit member fetch found
  | _ =>
    rw [here] at ran
    cases ran

theorem step_kept (kept : state.Kept) (given : Given event) (ran : state.step event = some after) :
    after.Kept := by
  cases event with
  | doHeartbeatResp resp =>
    rw [step] at ran
    split_ifs at ran
    cases ran
    rw [doHeartbeatResp]
    split_ifs with changed
    · exact { kept with
        reading := fun _ => given changed
        handled := fun request sent => by
          rw [List.length_append]
          exact Nat.le_add_right_of_le (kept.handled request sent) }
    · exact kept
  | semPost =>
    rw [step] at ran
    split_ifs at ran with posting
    cases ran
    exact { kept with reading := fun _ => kept.reading (.inl posting) }
  | run => exact run_kept kept ran
  | answer infos memory => exact answer_kept kept given ran

end Step

section Runs

variable {state after : Refresh} {event : Event} {events : List Event} {type : Int}

theorem owed_of_next (owed : after.Owed type) (responses : after.responses = state.responses)
    (requests : ∀ request ∈ state.requests, request ∈ after.requests) : state.Owed type := by
  obtain ⟨response,value,carried,bit,unasked⟩ := owed
  refine ⟨response,value,responses ▸ carried,bit,fun asked => unasked ?_⟩
  obtain ⟨request,sent,covers,later⟩ := asked
  exact ⟨request,requests request sent,covers,later⟩

/-- What is owed will be asked for: it has been read, or it will be. -/
structure Covered (state : Refresh) : Prop where
  kept : state.Kept
  owed : ∀ type ∈ filetypeBits, state.Owed type →
    state.Reading ∧ Covers state.gRefreshFilelistType type ∨ state.Taken type

theorem reading_elsewhere (reading : state.Reading) (elsewhere : state.place ≠ .woken) :
    state.posting = true ∨ state.gRefreshFilelistSem ≠ 0 :=
  reading.imp_right fun rest => rest.resolve_right elsewhere

theorem run_covered (covered : Covered state) (ran : state.run = some after) : Covered after := by
  refine ⟨run_kept covered.kept ran,fun type member owed => ?_⟩
  rw [run] at ran
  cases here : state.place with
  | semWait =>
    rw [here] at ran
    dsimp only at ran
    split_ifs at ran
    cases ran
    rcases covered.owed type member (owed_of_next owed rfl fun _ sent => sent) with ⟨_,covers⟩ | ⟨_,taken,_⟩
    · exact .inl ⟨.inr (.inr rfl),covers⟩
    · rw [here] at taken
      cases taken
  | woken =>
    rw [here] at ran
    cases ran
    rcases covered.owed type member (owed_of_next owed rfl fun _ sent => sent) with ⟨_,covers⟩ | ⟨_,taken,_⟩
    · exact .inr ⟨_,rfl,covers⟩
    · rw [here] at taken
      cases taken
  | refreshFilelist asked =>
    rw [here] at ran
    dsimp only at ran
    rw [if_neg (not_le.mpr (covered.kept.taken asked here).2)] at ran
    cases ran
    have before : state.Owed type := owed_of_next owed rfl fun _ sent => List.mem_append_left _ sent
    rcases covered.owed type member before with ⟨reading,covers⟩ | ⟨other,taken,covers⟩
    · have still := reading_elsewhere reading (by rw [here]; nofun)
      exact .inl ⟨still.imp_right .inl,covers⟩
    · rw [here] at taken
      cases taken
      obtain ⟨response,value,carried,_,unasked⟩ := owed
      refine absurd ⟨_,List.mem_append_right _ List.mem_cons_self,covers,?_⟩ unasked
      exact (List.getElem?_eq_some_iff.mp carried).1
  | getRespHeader asked handled =>
    rw [here] at ran
    cases ran

theorem answer_covered {infos : List BasicFileinfo} {memory : Nat} (covered : Covered state)
    (given : Given (.answer infos memory)) (ran : state.answer infos memory = some after) : Covered after := by
  refine ⟨answer_kept covered.kept given ran,fun type member owed => ?_⟩
  rw [answer] at ran
  cases here : state.place with
  | getRespHeader asked handled =>
    rw [here] at ran
    dsimp only at ran
    rw [if_neg given.1] at ran
    obtain ⟨⟨ret,saved⟩,_,rfl⟩ := Option.map_eq_some_iff.mp ran
    rcases covered.owed type member (owed_of_next owed rfl fun _ sent => sent) with ⟨reading,covers⟩ | ⟨_,taken,_⟩
    · have still := reading_elsewhere reading (by rw [here]; nofun)
      exact .inl ⟨still.imp_right .inl,covers⟩
    · rw [here] at taken
      cases taken
  | _ =>
    rw [here] at ran
    cases ran

theorem step_covered (covered : Covered state) (given : Given event) (understood : state.Understood event)
    (ran : state.step event = some after) : Covered after := by
  cases event with
  | doHeartbeatResp resp =>
    refine ⟨step_kept covered.kept given ran,fun type member owed => ?_⟩
    rw [step] at ran
    split_ifs at ran
    cases ran
    rw [doHeartbeatResp] at owed ⊢
    split_ifs at owed ⊢ with changed
    · have due : includes type resp.cInfo ∨ state.Owed type := by
        obtain ⟨response,value,carried,bit,unasked⟩ := owed
        rcases Nat.lt_or_ge response state.responses.length with earlier | now
        · rw [List.getElem?_append_left earlier] at carried
          exact .inr ⟨response,value,carried,bit,unasked⟩
        · rw [List.getElem?_append_right now,List.getElem?_singleton] at carried
          split_ifs at carried
          cases carried
          exact .inl bit
      rcases understood changed type member due with covers | taken
      · exact .inl ⟨.inl rfl,covers⟩
      · exact .inr taken
    · exact covered.owed type member owed
  | semPost =>
    refine ⟨step_kept covered.kept given ran,fun type member owed => ?_⟩
    rw [step] at ran
    split_ifs at ran
    cases ran
    rcases covered.owed type member (owed_of_next owed rfl fun _ sent => sent) with ⟨_,covers⟩ | taken
    · exact .inl ⟨.inr (.inl (Nat.succ_ne_zero _)),covers⟩
    · exact .inr taken
  | run => exact run_covered covered ran
  | answer infos memory => exact answer_covered covered given ran

/-- The refresh thread will not ask for a type that is owed. -/
structure Lost (type : Int) (state : Refresh) : Prop where
  kept : state.Kept
  owed : state.Owed type
  other : ¬ Covers state.gRefreshFilelistType type
  free : ¬ state.Taken type

theorem step_lost (lost : Lost type state) (given : Given event) (own : state.Own event)
    (ran : state.step event = some after) : Lost type after := by
  have kept := step_kept lost.kept given ran
  cases event with
  | doHeartbeatResp resp => exact own.elim
  | semPost =>
    rw [step] at ran
    split_ifs at ran
    cases ran
    exact ⟨kept,lost.owed,lost.other,lost.free⟩
  | run =>
    rw [step,run] at ran
    cases here : state.place with
    | semWait =>
      rw [here] at ran
      dsimp only at ran
      split_ifs at ran
      cases ran
      exact ⟨kept,lost.owed,lost.other,fun taken => nomatch taken.choose_spec.1⟩
    | woken =>
      rw [here] at ran
      cases ran
      refine ⟨kept,lost.owed,lost.other,fun ⟨asked,same,covers⟩ => ?_⟩
      cases same
      exact lost.other covers
    | refreshFilelist asked =>
      rw [here] at ran
      dsimp only at ran
      rw [if_neg (not_le.mpr (lost.kept.taken asked here).2)] at ran
      cases ran
      refine ⟨kept,?_,lost.other,fun taken => nomatch taken.choose_spec.1⟩
      obtain ⟨response,value,carried,bit,unasked⟩ := lost.owed
      refine ⟨response,value,carried,bit,fun ⟨request,sent,covers,later⟩ => ?_⟩
      rcases List.mem_append.mp sent with earlier | now
      · exact unasked ⟨request,earlier,covers,later⟩
      · rw [List.mem_singleton.mp now] at covers
        exact lost.free ⟨asked,here,covers⟩
    | getRespHeader asked handled =>
      rw [here] at ran
      cases ran
  | answer infos memory =>
    rw [step,answer] at ran
    cases here : state.place with
    | getRespHeader asked handled =>
      rw [here] at ran
      dsimp only at ran
      rw [if_neg given.1] at ran
      obtain ⟨⟨ret,saved⟩,_,rfl⟩ := Option.map_eq_some_iff.mp ran
      exact ⟨kept,lost.owed,lost.other,fun taken => nomatch taken.choose_spec.1⟩
    | _ =>
      rw [here] at ran
      cases ran

/-- How many steps there are to the end without another response. -/
def distance (state : Refresh) : Nat :=
  4*state.gRefreshFilelistSem + (if state.posting then 5 else 0) +
    match state.place with
    | .semWait => 0
    | .woken => 3
    | .refreshFilelist _ => 2
    | .getRespHeader .. => 1

theorem next_of_step (ran : state.step event = some after) : refreshSystem.next state event = after := by
  simp only [refreshSystem,ran,Option.getD_some]

def oneVideo : BasicFileinfo := ⟨⟨filetypeVideo,text "a.mp4"⟩,1,text "eric",0⟩

theorem oneVideo_saved (handled : Nat) {asked : Int} (positive : 0 < asked) (bound : asked < filetypeMax)
    (gpFilelist : Filelists) : ∃ saved, setFilelistValue ⟨handled,[oneVideo]⟩ 1 asked gpFilelist = some saved := by
  have inside : ¬ (asked < filetypeVideo ∨ filetypeMax ≤ asked) := by
    rw [filetypeVideo]
    omega
  have looped : ∀ lists, ∃ saved, saveInfos asked [oneVideo] 1 lists = some saved := by
    intro lists
    unfold saveInfos
    dsimp only
    split_ifs with rejected all
    · exact ⟨_,rfl⟩
    · exact absurd all (by decide)
    · exact ⟨_,rfl⟩
  obtain ⟨saved,stored⟩ := looped (freeLocalFilelist ⟨handled,[oneVideo]⟩ asked gpFilelist)
  rw [setFilelistValue,if_neg inside,stored]
  exact ⟨_,rfl⟩

/-- The two threads can always go on until the semaphore is drained. -/
theorem own_step (kept : state.Kept) (left : ¬ state.Drained) :
    ∃ event after, Given event ∧ state.Own event ∧ state.step event = some after ∧
      after.distance < state.distance := by
  by_cases posting : state.posting = true
  · refine ⟨.semPost,_,trivial,trivial,if_pos posting,?_⟩
    simp only [distance,posting]
    cases state.place <;> simp <;> omega
  · replace posting : state.posting = false := Bool.eq_false_of_not_eq_true posting
    cases here : state.place with
    | semWait =>
      have wakeUps : state.gRefreshFilelistSem ≠ 0 := fun empty => left ⟨empty,posting,here⟩
      refine ⟨.run,{ state with gRefreshFilelistSem := state.gRefreshFilelistSem-1, place := .woken },
        trivial,trivial,?_,?_⟩
      · rw [step,run,here]
        exact if_neg wakeUps
      · simp only [distance,here]
        omega
    | woken =>
      refine ⟨.run,{ state with place := .refreshFilelist state.gRefreshFilelistType },trivial,trivial,?_,?_⟩
      · rw [step,run,here]
      · simp only [distance,here]
        omega
    | refreshFilelist asked =>
      refine ⟨.run,
        { state with
          place := .getRespHeader asked state.responses.length
          requests := state.requests ++ [(asked,state.responses.length)] },trivial,trivial,?_,?_⟩
      · rw [step,run,here]
        exact if_neg (not_le.mpr (kept.taken asked here).2)
      · simp only [distance,here]
        omega
    | getRespHeader asked handled =>
      obtain ⟨positive,bound,_⟩ := kept.sent asked handled here
      obtain ⟨saved,stored⟩ := oneVideo_saved handled positive bound state.gpFilelist
      refine ⟨.answer [oneVideo] 1,{ state with gpFilelist := saved.2, place := .semWait },
        ⟨List.cons_ne_nil _ _,Nat.le_refl 1⟩,trivial,?_,?_⟩
      · rw [step,answer,here]
        dsimp only
        rw [if_neg (List.cons_ne_nil _ _),stored]
        rfl
      · simp only [distance,here]
        omega

theorem drain (kept : state.Kept) :
    ∃ rest, refreshSystem.Follows Own state rest ∧ (rest.foldl refreshSystem.next state).Drained := by
  apply follows_until (I := Kept) distance
  · intro state kept left
    obtain ⟨event,after,given,own,ran,nearer⟩ := own_step kept left
    refine ⟨event,⟨given,by rw [ran]; rfl⟩,own,?_⟩
    rw [next_of_step ran]
    exact ⟨step_kept kept given ran,nearer⟩
  · exact kept

theorem covered_refreshes (covered : Covered state) : state.Refreshes := by
  intro rest follows drained
  have last : Covered (rest.foldl refreshSystem.next state) := by
    refine follows_invariant follows (fun {state event} covered enabled own => ?_) covered
    refine step_covered covered enabled.1 ?_ (step_next enabled)
    cases event with
    | doHeartbeatResp resp => exact own.elim
    | _ => trivial
  obtain ⟨empty,posted,waiting⟩ := drained
  intro response value carried type member bit
  have asked : (rest.foldl refreshSystem.next state).Asked response type := by
    by_contra unasked
    rcases last.owed type member ⟨response,value,carried,bit,unasked⟩ with ⟨reading,_⟩ | ⟨_,taken,_⟩
    · rcases reading with posting | wakeUps | woken
      · rw [posted] at posting
        cases posting
      · exact wakeUps empty
      · rw [waiting] at woken
        cases woken
    · rw [waiting] at taken
      cases taken
  obtain ⟨request,sent,covers,later⟩ := asked
  obtain ⟨fetch,found,not_older⟩ :=
    done_settled last.kept (by rw [waiting]; nofun) type member sent covers
  exact ⟨fetch,found,Nat.lt_of_lt_of_le later not_older,(last.kept.lists type member fetch found).1⟩

theorem lost_stays (member : type ∈ filetypeBits) (lost : Lost type state) : ¬ state.Refreshes := by
  intro refreshes
  obtain ⟨rest,follows,drained⟩ := drain lost.kept
  have last : Lost type (rest.foldl refreshSystem.next state) :=
    follows_invariant follows (fun lost enabled own => step_lost lost enabled.1 own (step_next enabled)) lost
  obtain ⟨response,value,carried,bit,unasked⟩ := last.owed
  obtain ⟨fetch,found,later,_⟩ := refreshes rest follows drained response value carried type member bit
  obtain ⟨_,request,sent,covers,same⟩ := last.kept.lists type member fetch found
  exact unasked ⟨request,sent,covers,same ▸ later⟩

theorem understood_of_refreshes (covered : Covered state) (enabled : refreshSystem.Enabled state event)
    (refreshes : (refreshSystem.next state event).Refreshes) : state.Understood event := by
  cases event with
  | doHeartbeatResp resp =>
    intro changed type member due
    by_contra neither
    obtain ⟨uncovered,free⟩ := not_or.mp neither
    have ran := step_next enabled
    have kept := step_kept covered.kept enabled.1 ran
    refine lost_stays member ?_ refreshes
    generalize refreshSystem.next state (.doHeartbeatResp resp) = after at ran kept
    rw [step] at ran
    split_ifs at ran
    cases ran
    rw [doHeartbeatResp,if_pos changed] at kept ⊢
    refine ⟨kept,?_,uncovered,free⟩
    rcases due with bit | ⟨response,value,carried,bit,unasked⟩
    · refine ⟨state.responses.length,resp.cInfo,List.getElem?_concat_length,bit,?_⟩
      rintro ⟨request,sent,_,later⟩
      exact Nat.not_le.mpr later (covered.kept.handled request sent)
    · have earlier := (List.getElem?_eq_some_iff.mp carried).1
      exact ⟨response,value,(List.getElem?_append_left earlier).trans carried,bit,unasked⟩
  | _ => trivial

theorem start_covered : Covered {} := by
  refine ⟨⟨?_,nofun,nofun,nofun,fun _ _ _ absent => (List.not_mem_nil absent).elim,nofun⟩,?_⟩
  · rintro (posting | wakeUps | woken)
    · cases posting
    · exact absurd rfl wakeUps
    · cases woken
  · rintro type member ⟨response,value,carried,_⟩
    cases carried

def changed (cInfo : Int8) : Event :=
  .doHeartbeatResp
    { mark := markServer, cmdId := CmdId.heartbeat.toWire, ret := HeartbeatRet.filelistChanged.code, cInfo := cInfo }

def oneAudio : BasicFileinfo := ⟨⟨filetypeAudio,text "a.mp3"⟩,1,text "eric",0⟩

/-- One wake-up of the refresh thread. -/
def refresh (info : BasicFileinfo) : List Event := [.run,.run,.run,.answer [info] 1]

/-- Every type is read before the next one comes. -/
def oneByOne : List Event :=
  changed 1 :: .semPost :: refresh oneVideo ++ changed 15 :: .semPost :: refresh oneAudio

/-- A video and a piece of audio are new, in one response. -/
def bothInOne : List Event := changed 3 :: .semPost :: refresh oneVideo

/-- They are new one after the other, and the second type comes before the first is read. -/
def overwritten : List Event :=
  changed 1 :: .semPost :: changed 2 :: .semPost :: refresh oneAudio ++ refresh oneAudio

/-- A run that ends with a list that has not been replaced, and nothing left to do. -/
def EndsOld (events : List Event) : Prop :=
  refreshSystem.Follows anyEvent {} events ∧ (events.foldl refreshSystem.next {}).Drained ∧
    ¬ (events.foldl refreshSystem.next {}).Refreshed

end Runs

end Refresh

end MoCodes.MoCloud.Client
