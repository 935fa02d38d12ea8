import MoCodes.CryptFileTool.CryptThread
import MoCodes.Lib.Transition

/-! The request thread of cftProt.cpp and the crypt threads. All of them share the one progress
variable, by which `doRequest` finds out that its request is done. -/
namespace MoCodes.CryptFileTool
open Lib.Transition

inductive MoCftAlgo where
  | base64
  | rc4
  | des
  | des3
deriving DecidableEq

def cftProtInputInvalid : Err := ⟨-10001,by decide⟩

/-- What `moCrypt_RC4_cryptFile` or `moCrypt_BASE64_File` does, or a check before it: it refuses, or
starts a thread that will fare so. -/
inductive Start where
  | refused (err : Err)
  | started (outcome : Outcome)
deriving DecidableEq

/-- The `switch` of `doRequest`: an error, or the reports of the thread that is started. -/
def startCrypt (algoNo : MoCftAlgo) (start : Start) : Except Err (List Int) :=
  match algoNo,start with
  | .base64,.started outcome => .ok (outcome.reports .base64)
  | .rc4,.started outcome => .ok (outcome.reports .rc4)
  | .base64,.refused err => .error err
  | .rc4,.refused err => .error err
  | _,_ => .error cftProtInputInvalid

/-- Where `thDoRequests` is: before `sem_wait`, before `deQueue`, or in the loop of `doRequest`
before it reads the progress for `>= 0`, for `< 100`, for `== 100`, and for the error. -/
inductive Place where
  | waiting
  | taking
  | polling (id : Nat)
  | below (id : Nat)
  | equal (id : Nat)
  | failing (id : Nat)
deriving DecidableEq

def Place.current : Place → Option Nat
  | waiting => none
  | taking => none
  | polling id => some id
  | below id => some id
  | equal id => some id
  | failing id => some id

/-- The crypt threads are numbered as they are started. `returned` are the values of `doRequest`
for requests whose thread was started. -/
structure CftProt where
  gReqQueue : List MoCftAlgo
  gSem : Nat
  gCryptProgress : Int
  place : Place
  started : Nat
  threads : Nat → CryptThread
  returned : List (Nat × Int)

/-- Requests are added, `thDoRequests` makes its next step, or a thread calls `cryptProgress`. -/
inductive CftEvent where
  | add (pRequests : List MoCftAlgo)
  | doRequests (start : Start)
  | report (id : Nat)
deriving DecidableEq

namespace CftProt

def cftProtAddRequest (cft : CftProt) (pRequests : List MoCftAlgo) : CftProt :=
  if pRequests = [] then cft
  else {cft with gReqQueue := cft.gReqQueue ++ pRequests, gSem := cft.gSem+1}

/-- `doRequest` has returned. After an error all requests are dropped. -/
def returns (cft : CftProt) (id : Nat) (ret : Int) : CftProt :=
  if ret = 0 then {cft with returned := cft.returned ++ [(id,ret)], place := .taking}
  else {cft with returned := cft.returned ++ [(id,ret)], gReqQueue := [], place := .waiting}

/-- `deQueue`, and the start of the request. -/
def take (cft : CftProt) (start : Start) : CftProt :=
  match cft.gReqQueue with
  | [] => {cft with place := .waiting}
  | algoNo :: rest =>
    match startCrypt algoNo start with
    | .error _ => {cft with gReqQueue := [], place := .waiting}
    | .ok reports =>
      { cft with
        gReqQueue := rest
        place := .polling cft.started
        started := cft.started+1
        threads := Function.update cft.threads cft.started (.start reports) }

def thDoRequests (cft : CftProt) (start : Start) : Option CftProt :=
  match cft.place with
  | .waiting => if cft.gSem = 0 then none else some {cft with gSem := cft.gSem-1, place := .taking}
  | .taking => some (cft.take start)
  | .polling id => some {cft with place := if 0 ≤ cft.gCryptProgress then .below id else .equal id}
  | .below id => some {cft with place := if cft.gCryptProgress < 100 then .polling id else .equal id}
  | .equal id => some (if cft.gCryptProgress = 100 then cft.returns id 0 else {cft with place := .failing id})
  | .failing id => some (cft.returns id cft.gCryptProgress)

/-- A crypt thread passes its next value to `cryptProgress`. -/
def cryptProgress (cft : CftProt) (id : Nat) : Option CftProt :=
  (cft.threads id).todo.head?.map fun value =>
    { cft with
      gCryptProgress := value
      threads := Function.update cft.threads id (cft.threads id).report }

def step (cft : CftProt) : CftEvent → Option CftProt
  | .add pRequests => some (cft.cftProtAddRequest pRequests)
  | .doRequests start => cft.thDoRequests start
  | .report id => cft.cryptProgress id

end CftProt

def cftProt : System CftProt CftEvent where
  Enabled cft event := (cft.step event).isSome
  next cft event := (cft.step event).getD cft

instance (cft : CftProt) (event : CftEvent) : Decidable (cftProt.Enabled cft event) :=
  inferInstanceAs (Decidable (_ = true))

def cftProtInit : CftProt := ⟨[],0,0,.waiting,0,fun _ => .none,[]⟩

/-- What a thread that has ended has told of its result. -/
def CryptThread.result (thread : CryptThread) : Option Int :=
  match thread.todo,thread.done.getLast? with
  | [],some prog => if prog = 100 then some 0 else if prog < 0 then some prog else Option.none
  | _,_ => Option.none

namespace CftProt

/-- `doRequest` has returned only results of threads that had ended, and one thread is running at
most. -/
structure InTurn (cft : CftProt) : Prop where
  own : ∀ id ret, (id,ret) ∈ cft.returned → (cft.threads id).result = some ret
  one : ∀ id other, (cft.threads id).Running → (cft.threads other).Running → other = id

/-- The percentages of a thread lie between 0 and 99; and when `doRequest` reads the progress before
the thread of its request has reported, what is there is not the end of another one. -/
def freshAt (cft : CftProt) : Place → Start → Prop
  | .taking,.started outcome => outcome.InRange
  | .polling id,_ => (cft.threads id).done = [] → 0 ≤ cft.gCryptProgress
  | .below id,_ => (cft.threads id).done = [] → cft.gCryptProgress < 100
  | _,_ => True

instance (cft : CftProt) : (place : Place) → (start : Start) → Decidable (cft.freshAt place start)
  | .waiting,_ => instDecidableTrue
  | .taking,.refused _ => instDecidableTrue
  | .taking,.started outcome => inferInstanceAs (Decidable outcome.InRange)
  | .polling id,_ => inferInstanceAs (Decidable ((cft.threads id).done = [] → 0 ≤ cft.gCryptProgress))
  | .below id,_ => inferInstanceAs (Decidable ((cft.threads id).done = [] → cft.gCryptProgress < 100))
  | .equal _,_ => instDecidableTrue
  | .failing _,_ => instDecidableTrue

def fresh (cft : CftProt) : CftEvent → Prop
  | .doRequests start => cft.freshAt cft.place start
  | _ => True

instance (cft : CftProt) : (event : CftEvent) → Decidable (cft.fresh event)
  | .add _ => instDecidableTrue
  | .doRequests start => inferInstanceAs (Decidable (cft.freshAt cft.place start))
  | .report _ => instDecidableTrue

/-- How a thread of either function may end; a silent one leaves the progress at 0. -/
def Ending (prog : Int) : Prop := Underway prog ∨ Final prog

structure Kept (cft : CftProt) : Prop where
  reports : ∀ id < cft.started, (cft.threads id).Reports Ending
  unstarted : ∀ id, cft.started ≤ id → cft.threads id = .none
  current : ∀ id, cft.place.current = some id → id < cft.started
  running : ∀ id, (cft.threads id).Running → cft.place.current = some id
  wrote : ∀ id, cft.place.current = some id → (cft.threads id).done ≠ [] →
    (cft.threads id).done.getLast? = some cft.gCryptProgress
  looped : ∀ id, cft.place = .equal id ∨ cft.place = .failing id →
    (cft.threads id).todo = [] ∧ (cft.threads id).done ≠ [] ∧ Final cft.gCryptProgress
  failed : ∀ id, cft.place = .failing id → cft.gCryptProgress ≠ 100
  own : ∀ id ret, (id,ret) ∈ cft.returned → (cft.threads id).result = some ret

variable {cft : CftProt} {event : CftEvent}

theorem Kept.inTurn (kept : cft.Kept) : cft.InTurn where
  own := kept.own
  one id other running running' := by
    have same := (kept.running id running).symm.trans (kept.running other running')
    exact (Option.some.inj same).symm

theorem result_ended {thread : CryptThread} {prog : Int} (ended : thread.todo = [])
    (last : thread.done.getLast? = some prog) :
    thread.result = if prog = 100 then some 0 else if prog < 0 then some prog else none := by
  rw [CryptThread.result,ended,last]

theorem result_some {thread : CryptThread} {ret : Int} (result : thread.result = some ret) :
    thread.todo = [] := by
  cases todo : thread.todo with
  | nil => rfl
  | cons prog rest =>
    rw [CryptThread.result,todo] at result
    cases result

theorem Kept.move (kept : cft.Kept) {place : Place} (same : place.current = cft.place.current)
    (looped : ∀ id, place = .equal id ∨ place = .failing id →
      (cft.threads id).todo = [] ∧ (cft.threads id).done ≠ [] ∧ Final cft.gCryptProgress)
    (failed : ∀ id, place = .failing id → cft.gCryptProgress ≠ 100) : {cft with place}.Kept where
  reports := kept.reports
  unstarted := kept.unstarted
  current id here := kept.current id (same.symm.trans here)
  running id running := same.trans (kept.running id running)
  wrote id here := kept.wrote id (same.symm.trans here)
  looped := looped
  failed := failed
  own := kept.own

/-- The thread of the current request has ended when what it has reported ends the loop. -/
theorem Kept.ended (kept : cft.Kept) {id : Nat} (current : cft.place.current = some id)
    (reported : (cft.threads id).done ≠ []) (out : ¬ Underway cft.gCryptProgress) :
    (cft.threads id).todo = [] ∧ (cft.threads id).done ≠ [] ∧ Final cft.gCryptProgress := by
  obtain ⟨todo,ending⟩ := (kept.reports id (kept.current id current)).ended (kept.wrote id current reported) out
  exact ⟨todo,reported,ending.resolve_left out⟩

theorem Kept.leaveLoop (kept : cft.Kept) {id : Nat} (current : cft.place.current = some id)
    (reported : (cft.threads id).done ≠ []) (out : ¬ Underway cft.gCryptProgress) :
    {cft with place := .equal id}.Kept := by
  refine kept.move current.symm (fun other here => ?_) (fun other here => (by cases here))
  obtain rfl : id = other := by
    rcases here with same | same
    · exact Place.equal.inj same
    · cases same
  exact kept.ended current reported out

theorem Kept.none_running (kept : cft.Kept) {id : Nat} (current : cft.place.current = some id)
    (ended : (cft.threads id).todo = []) (other : Nat) : ¬ (cft.threads other).Running := by
  intro running
  obtain rfl := Option.some.inj (current.symm.trans (kept.running other running))
  exact running ended

theorem Kept.idle (kept : cft.Kept) (none : cft.place.current = Option.none) (id : Nat) :
    ¬ (cft.threads id).Running := by
  intro running
  have current := kept.running id running
  rw [none] at current
  cases current

theorem Place.between {place : Place} (none : place.current = Option.none) (id : Nat) :
    ¬ (place = .equal id ∨ place = .failing id) := by
  rintro (rfl | rfl) <;> cases none

theorem Kept.leave (kept : cft.Kept) {place : Place} (none : place.current = Option.none)
    (idle : ∀ id, ¬ (cft.threads id).Running) (gReqQueue : List MoCftAlgo) (gSem : Nat)
    {returned : List (Nat × Int)}
    (own : ∀ id ret, (id,ret) ∈ returned → (cft.threads id).result = some ret) :
    {cft with place, gReqQueue, gSem, returned}.Kept where
  reports := kept.reports
  unstarted := kept.unstarted
  current id here := by
    rw [none] at here
    cases here
  running id running := absurd running (idle id)
  wrote id here := by
    rw [none] at here
    cases here
  looped id here := absurd here (Place.between none id)
  failed id here := absurd (Or.inr here) (Place.between none id)
  own := own

theorem kept_returns (kept : cft.Kept) {id : Nat} {ret : Int} (current : cft.place.current = some id)
    (result : (cft.threads id).result = some ret) : (cft.returns id ret).Kept := by
  have idle := kept.none_running current (result_some result)
  have own : ∀ other value, (other,value) ∈ cft.returned ++ [(id,ret)] →
      (cft.threads other).result = some value := by
    intro other value among
    rcases List.mem_append.mp among with old | new
    · exact kept.own other value old
    · obtain ⟨rfl,rfl⟩ := Prod.mk.inj (List.mem_singleton.mp new)
      exact result
  rw [returns]
  split_ifs
  · exact kept.leave rfl idle _ _ own
  · exact kept.leave rfl idle _ _ own

theorem kept_report (kept : cft.Kept) {id : Nat} {value : Int} (next : (cft.threads id).todo.head? = some value) :
    { cft with
      gCryptProgress := value
      threads := Function.update cft.threads id (cft.threads id).report }.Kept := by
  obtain ⟨rest,todo⟩ : ∃ rest, (cft.threads id).todo = value :: rest := by
    cases todo : (cft.threads id).todo with
    | nil =>
      rw [todo] at next
      cases next
    | cons first rest =>
      rw [todo] at next
      exact ⟨rest,by rw [Option.some.inj next]⟩
  have running : (cft.threads id).Running := by
    rw [CryptThread.Running,todo]
    exact List.cons_ne_nil _ _
  have current := kept.running id running
  have started := kept.current id current
  have busy : ∀ other, ¬ (cft.place = .equal other ∨ cft.place = .failing other) := by
    intro other here
    have same : cft.place.current = some other := by rcases here with place | place <;> rw [place] <;> rfl
    obtain rfl := Option.some.inj (current.symm.trans same)
    exact running (kept.looped id here).1
  refine ⟨?_,?_,kept.current,?_,?_,fun other here => absurd here (busy other),
    fun other here => absurd (Or.inr here) (busy other),?_⟩
  · intro other bound
    rcases eq_or_ne other id with rfl | apart
    · simpa using (kept.reports other bound).report todo
    · simpa [apart] using kept.reports other bound
  · intro other (bound : cft.started ≤ other)
    simpa [(show other ≠ id by omega)] using kept.unstarted other bound
  · intro other here
    rcases eq_or_ne other id with rfl | apart
    · exact current
    · exact kept.running other (by simpa [apart] using here)
  · intro other here _
    obtain rfl := Option.some.inj (current.symm.trans here)
    simp [CryptThread.report_done todo]
  · intro other ret among
    have result := kept.own other ret among
    have apart : other ≠ id := by
      rintro rfl
      exact running (result_some result)
    simpa [apart] using result

theorem startCrypt_ok {algoNo : MoCftAlgo} {start : Start} {reports : List Int}
    (ok : startCrypt algoNo start = .ok reports) :
    ∃ func outcome, start = .started outcome ∧ reports = outcome.reports func := by
  cases start with
  | refused err => cases algoNo <;> cases ok
  | started outcome =>
    cases algoNo with
    | base64 => exact ⟨_,outcome,rfl,(Except.ok.inj ok).symm⟩
    | rc4 => exact ⟨_,outcome,rfl,(Except.ok.inj ok).symm⟩
    | des => cases ok
    | des3 => cases ok

theorem kept_started (kept : cft.Kept) (idle : ∀ id, ¬ (cft.threads id).Running) (gReqQueue : List MoCftAlgo)
    {reports : List Int} (sound : (CryptThread.start reports).Reports Ending) :
    { cft with
      gReqQueue
      place := .polling cft.started
      started := cft.started+1
      threads := Function.update cft.threads cft.started (.start reports) }.Kept := by
  refine ⟨?_,?_,?_,?_,?_,?_,?_,?_⟩
  · intro id (bound : id < cft.started+1)
    rcases eq_or_ne id cft.started with rfl | apart
    · simpa using sound
    · simpa [apart] using kept.reports id (by omega)
  · intro id (bound : cft.started+1 ≤ id)
    simpa [(show id ≠ cft.started by omega)] using kept.unstarted id (by omega)
  · intro id here
    obtain rfl := Option.some.inj here
    exact Nat.lt_succ_self _
  · intro id running
    rcases eq_or_ne id cft.started with rfl | apart
    · rfl
    · exact absurd (by simpa [apart] using running) (idle id)
  · intro id here reported
    obtain rfl := Option.some.inj here
    exact absurd (by simp [CryptThread.start]) reported
  · rintro id (same | same) <;> cases same
  · rintro id ⟨⟩
  · intro id ret among
    have result := kept.own id ret among
    have apart : id ≠ cft.started := by
      rintro rfl
      rw [kept.unstarted cft.started le_rfl] at result
      cases result
    simpa [apart] using result

theorem kept_take (kept : cft.Kept) (place : cft.place = .taking) {start : Start}
    (inRange : ∀ outcome, start = .started outcome → outcome.InRange) : (cft.take start).Kept := by
  have idle := kept.idle (by rw [place]; rfl)
  rw [take]
  split
  · exact kept.leave rfl idle _ _ kept.own
  · split
    · exact kept.leave rfl idle _ _ kept.own
    · rename_i started
      obtain ⟨func,outcome,rfl,rfl⟩ := startCrypt_ok started
      refine kept_started kept idle _ (outcome.start_reports func (inRange outcome rfl) (fun _ => Or.inr) ?_)
      exact fun _ _ => Or.inl (by decide)

theorem kept_doRequests (kept : cft.Kept) {start : Start} (fresh : cft.freshAt cft.place start)
    {after : CftProt} (made : cft.thDoRequests start = some after) : after.Kept := by
  rw [thDoRequests] at made
  cases place : cft.place with
  | waiting =>
    simp only [place] at made
    split_ifs at made
    obtain rfl := Option.some.inj made
    exact kept.leave rfl (kept.idle (by rw [place]; rfl)) _ _ kept.own
  | taking =>
    simp only [place] at made
    obtain rfl := Option.some.inj made
    refine kept_take kept place ?_
    rintro outcome rfl
    rw [place] at fresh
    exact fresh
  | polling id =>
    simp only [place] at made
    obtain rfl := Option.some.inj made
    have current : cft.place.current = some id := by rw [place]; rfl
    split_ifs with more
    · exact kept.move current.symm (by simp) (by simp)
    · rw [place] at fresh
      exact kept.leaveLoop current (fun none => more (fresh none)) fun underway => more underway.1
  | below id =>
    simp only [place] at made
    obtain rfl := Option.some.inj made
    have current : cft.place.current = some id := by rw [place]; rfl
    split_ifs with more
    · exact kept.move current.symm (by simp) (by simp)
    · rw [place] at fresh
      exact kept.leaveLoop current (fun none => more (fresh none)) fun underway => more underway.2
  | equal id =>
    simp only [place] at made
    obtain rfl := Option.some.inj made
    have current : cft.place.current = some id := by rw [place]; rfl
    obtain ⟨todo,done,final⟩ := kept.looped id (Or.inl place)
    split_ifs with all
    · refine kept_returns kept current ?_
      rw [result_ended todo (kept.wrote id current done),if_pos all]
    · refine kept.move current.symm (fun other here => ?_) fun _ _ => all
      obtain rfl : id = other := by
        rcases here with same | same
        · cases same
        · exact Place.failing.inj same
      exact ⟨todo,done,final⟩
  | failing id =>
    simp only [place] at made
    obtain rfl := Option.some.inj made
    have current : cft.place.current = some id := by rw [place]; rfl
    obtain ⟨todo,done,final⟩ := kept.looped id (Or.inr place)
    refine kept_returns kept current ?_
    have failed := kept.failed id place
    rw [result_ended todo (kept.wrote id current done),if_neg failed,if_pos (final.resolve_left failed)]

theorem kept_next (kept : cft.Kept) (enabled : cftProt.Enabled cft event) (fresh : cft.fresh event) :
    (cftProt.next cft event).Kept := by
  obtain ⟨after,made⟩ := Option.isSome_iff_exists.mp enabled
  rw [show cftProt.next cft event = after from congrArg (Option.getD · cft) made]
  cases event with
  | add pRequests =>
    obtain rfl := Option.some.inj made
    rw [cftProtAddRequest]
    split_ifs
    · exact kept
    · exact ⟨kept.reports,kept.unstarted,kept.current,kept.running,kept.wrote,kept.looped,kept.failed,kept.own⟩
  | doRequests start => exact kept_doRequests kept fresh made
  | report id =>
    obtain ⟨value,next,rfl⟩ := Option.map_eq_some_iff.mp made
    exact kept_report kept next

end CftProt

theorem cftProtInit_kept : cftProtInit.Kept where
  reports _ bound := absurd bound (Nat.not_lt_zero _)
  unstarted _ _ := rfl
  current _ here := by cases here
  running _ running := absurd rfl running
  wrote _ here := by cases here
  looped _ here := absurd here (CftProt.Place.between rfl _)
  failed _ here := by cases here
  own _ _ among := by cases among

/-- In a run in which no poll finds the end of an earlier request where its own has not reported
yet, `doRequest` returns for a request whose thread has ended, with its result, and one thread
is running at a time. -/
theorem requests_in_turn {cft : CftProt} (run : cftProt.Run CftProt.fresh cftProtInit cft) : cft.InTurn :=
  (run_invariant cftProtInit_kept CftProt.kept_next run).inTurn

/-- `doRequest` goes through its loop and returns, unless the progress is that of a task underway. -/
def polls (count : Nat) : List CftEvent := List.replicate count (.doRequests (.refused cftProtInputInvalid))

/-- One RC4 request: its thread reports all it has before the first poll. -/
def oneRequest : List CftEvent :=
  [.add [.rc4],.doRequests (.refused cftProtInputInvalid),.doRequests (.started (.crypted [90]))] ++
    List.replicate 6 (.report 0) ++ polls 3

theorem requests_in_turn_one : (oneRequest.foldl cftProt.next cftProtInit).returned = [(0,0)] ∧
    (oneRequest.foldl cftProt.next cftProtInit).InTurn := by
  have follows : cftProt.Follows CftProt.fresh cftProtInit oneRequest := by decide
  exact ⟨by decide,requests_in_turn (run_of_events follows .start)⟩

/-- Three requests. The second one is polled before its thread has reported. -/
def threeRequests : List CftEvent :=
  [.add [.rc4,.rc4,.base64],.doRequests (.refused cftProtInputInvalid),.doRequests (.started (.crypted [90]))] ++
    List.replicate 6 (.report 0) ++ polls 3 ++ [.doRequests (.started (.crypted [90]))] ++ polls 3 ++
    [.doRequests (.started (.crypted [90]))]

theorem returned_early : cftProt.Follows anyEvent cftProtInit threeRequests ∧
    (threeRequests.foldl cftProt.next cftProtInit).returned = [(0,0),(1,0)] ∧
    ((threeRequests.foldl cftProt.next cftProtInit).threads 1).done = [] ∧
    ((threeRequests.foldl cftProt.next cftProtInit).threads 1).Running ∧
    ((threeRequests.foldl cftProt.next cftProtInit).threads 2).Running ∧
    ¬ (threeRequests.foldl cftProt.next cftProtInit).InTurn := by
  have first : ((threeRequests.foldl cftProt.next cftProtInit).threads 1).Running := by decide
  have second : ((threeRequests.foldl cftProt.next cftProtInit).threads 2).Running := by decide
  refine ⟨by decide,by decide,by decide,first,second,fun inTurn => ?_⟩
  exact absurd (inTurn.one 1 2 first second) (by decide)

end MoCodes.CryptFileTool
