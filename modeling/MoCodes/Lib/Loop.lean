import Mathlib.Tactic.Common
import Mathlib.Tactic.Tauto

/-! Loops as iterated bodies. A pass of the body either reaches the state of the next
pass or leaves the loop with a result; a loop without a result is one that hangs, so
termination stays a statement to prove and is never read off a fuel argument. -/
namespace MoCodes.Lib.Loop

variable {σ ρ τ : Type}

inductive Outcome (σ ρ : Type) where
  | next (state : σ)
  | done (result : ρ)
  deriving DecidableEq

def run (body : σ → Outcome σ ρ) : Nat → σ → Option ρ
  | 0,_ => none
  | fuel+1,state => match body state with
    | .next after => run body fuel after
    | .done result => some result

def Returns (body : σ → Outcome σ ρ) (state : σ) (result : ρ) : Prop :=
  ∃ fuel, run body fuel state = some result

/-- The states that the loop comes to. -/
inductive Reached (body : σ → Outcome σ ρ) (start : σ) : σ → Prop where
  | start : Reached body start start
  | next {state after} : Reached body start state → body state = .next after → Reached body start after

def Hangs (body : σ → Outcome σ ρ) (state : σ) : Prop :=
  ∀ fuel, run body fuel state = none

theorem run_next {body : σ → Outcome σ ρ} {state after : σ} (step : body state = .next after)
    (fuel : Nat) : run body (fuel+1) state = run body fuel after := by
  simp only [run,step]

theorem run_done {body : σ → Outcome σ ρ} {state : σ} {result : ρ} (step : body state = .done result)
    (fuel : Nat) : run body (fuel+1) state = some result := by
  simp only [run,step]

theorem run_mono (body : σ → Outcome σ ρ) (fuel extra : Nat) (state : σ) (result : ρ)
    (ok : run body fuel state = some result) : run body (fuel+extra) state = some result := by
  induction fuel generalizing state with
  | zero => simp [run] at ok
  | succ fuel ih =>
    have shifted : fuel+1+extra = (fuel+extra)+1 := by omega
    rw [shifted]
    cases step : body state with
    | next after =>
      rw [run_next step] at ok ⊢
      exact ih after ok
    | done value =>
      rw [run_done step] at ok ⊢
      exact ok

theorem returns_unique {body : σ → Outcome σ ρ} {state : σ} {first second : ρ}
    (one : Returns body state first) (two : Returns body state second) : first = second := by
  obtain ⟨n,hn⟩ := one
  obtain ⟨m,hm⟩ := two
  have left := run_mono body n m state first hn
  have right := run_mono body m n state second hm
  rw [Nat.add_comm m n,left] at right
  exact Option.some.inj right

theorem returns_done {body : σ → Outcome σ ρ} {state : σ} {result : ρ}
    (step : body state = .done result) : Returns body state result :=
  ⟨1,run_done step 0⟩

theorem returns_next {body : σ → Outcome σ ρ} {state after : σ} {result : ρ}
    (step : body state = .next after) : Returns body state result ↔ Returns body after result := by
  constructor
  · rintro ⟨fuel,ok⟩
    cases fuel with
    | zero => simp [run] at ok
    | succ fuel => exact ⟨fuel,by rwa [run_next step] at ok⟩
  · rintro ⟨fuel,ok⟩
    exact ⟨fuel+1,by rwa [run_next step]⟩

theorem hangs_not_returns {body : σ → Outcome σ ρ} {state : σ} (hangs : Hangs body state)
    (result : ρ) : ¬ Returns body state result := by
  rintro ⟨fuel,ok⟩
  rw [hangs fuel] at ok
  cases ok

/-- What every pass keeps holds of the state the loop leaves from. -/
theorem returns_invariant {body : σ → Outcome σ ρ} (I : σ → Prop) (Q : ρ → Prop)
    (keep : ∀ state after, I state → body state = .next after → I after)
    (leave : ∀ state result, I state → body state = .done result → Q result)
    {state : σ} {result : ρ} (start : I state) (ok : Returns body state result) : Q result := by
  obtain ⟨fuel,ok⟩ := ok
  induction fuel generalizing state with
  | zero => simp [run] at ok
  | succ fuel ih =>
    cases step : body state with
    | next after =>
      rw [run_next step] at ok
      exact ih (keep state after start step) ok
    | done value =>
      rw [run_done step] at ok
      cases ok
      exact leave state result start step

theorem run_of_measure {body : σ → Outcome σ ρ} (I : σ → Prop) (measure : σ → Nat)
    (keep : ∀ state after, I state → body state = .next after → I after ∧ measure after < measure state)
    (fuel : Nat) (state : σ) (start : I state) (enough : measure state < fuel) :
    ∃ result, run body fuel state = some result := by
  induction fuel generalizing state with
  | zero => omega
  | succ fuel ih =>
    cases step : body state with
    | next after =>
      obtain ⟨kept,lower⟩ := keep state after start step
      rw [run_next step]
      exact ih after kept (by omega)
    | done value => exact ⟨value,run_done step fuel⟩

theorem returns_of_measure {body : σ → Outcome σ ρ} (I : σ → Prop) (measure : σ → Nat)
    (keep : ∀ state after, I state → body state = .next after → I after ∧ measure after < measure state)
    (state : σ) (start : I state) : ∃ result, Returns body state result := by
  obtain ⟨result,ok⟩ := run_of_measure I measure keep (measure state+1) state start (Nat.lt_succ_self _)
  exact ⟨result,_,ok⟩

/-- A set of states that no pass leaves holds the loop for ever. -/
theorem hangs_of_closed {body : σ → Outcome σ ρ} (I : σ → Prop)
    (keep : ∀ state, I state → ∃ after, body state = .next after ∧ I after)
    (state : σ) (start : I state) : Hangs body state := by
  intro fuel
  induction fuel generalizing state with
  | zero => rfl
  | succ fuel ih =>
    obtain ⟨after,step,kept⟩ := keep state start
    rw [run_next step]
    exact ih after kept

theorem hangs_of_fixed {body : σ → Outcome σ ρ} {state : σ} (fixed : body state = .next state) :
    Hangs body state :=
  hangs_of_closed (· = state) (by rintro _ rfl; exact ⟨_,fixed,rfl⟩) state rfl

section Counted

/-! A counted loop that breaks at the first index passing its test is a search of the
index range, from the front or from the back. -/

theorem range_search {n i : Nat} {test : Nat → Bool} :
    (List.range n).find? test = some i ↔ i < n ∧ test i = true ∧ ∀ j < i, test j = false := by
  rw [List.find?_range_eq_some]
  simp only [List.mem_range,Bool.not_eq_eq_eq_not,Bool.not_true]
  tauto

theorem range_search_none {n : Nat} {test : Nat → Bool} :
    (List.range n).find? test = none ↔ ∀ j < n, test j = false := by
  simp

theorem range_search_last {n i : Nat} {test : Nat → Bool} :
    (List.range n).findRev? test = some i ↔
      i < n ∧ test i = true ∧ ∀ j, i < j → j < n → test j = false := by
  induction n with
  | zero => simp
  | succ n ih =>
    rw [List.findRev?_eq_find?_reverse] at ih ⊢
    rw [List.range_succ,List.reverse_append,List.reverse_singleton,List.singleton_append,List.find?_cons]
    cases last : test n with
    | true =>
      simp only [Option.some.injEq]
      constructor
      · rintro rfl
        exact ⟨by omega,last,fun j low high => by omega⟩
      · rintro ⟨bound,passed,after⟩
        by_contra other
        have := after n (by omega) (by omega)
        simp [last] at this
    | false =>
      simp only [ih]
      constructor
      · rintro ⟨bound,passed,after⟩
        refine ⟨by omega,passed,fun j low high => ?_⟩
        rcases Nat.lt_succ_iff_lt_or_eq.mp high with inside | rfl
        · exact after j low inside
        · exact last
      · rintro ⟨bound,passed,after⟩
        have different : i ≠ n := by rintro rfl; simp [last] at passed
        exact ⟨by omega,passed,fun j low high => after j low (by omega)⟩

theorem range_search_last_none {n : Nat} {test : Nat → Bool} :
    (List.range n).findRev? test = none ↔ ∀ j < n, test j = false := by
  simp

theorem foldl_last (n : Nat) (test : Nat → Bool) (value : Nat → τ) (initial : τ) :
    (List.range n).foldl (fun kept j => if test j then value j else kept) initial =
      match (List.range n).findRev? test with
      | some j => value j
      | none => initial := by
  induction n with
  | zero => rfl
  | succ n ih =>
    rw [List.findRev?_eq_find?_reverse] at ih ⊢
    rw [List.range_succ,List.foldl_append,List.reverse_append,List.reverse_singleton,
      List.singleton_append,List.find?_cons,ih]
    cases last : test n <;> simp [last]

end Counted

end MoCodes.Lib.Loop
