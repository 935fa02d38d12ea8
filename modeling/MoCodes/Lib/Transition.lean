import Mathlib.Data.Fintype.Basic
import Mathlib.Data.Finset.Card
import Mathlib.Logic.Function.Basic
import Mathlib.Tactic.Common

/-! Systems whose parties take steps in any order. An event may be taken in a state where
it is enabled; a run is restricted to the events that are allowed. -/
namespace MoCodes.Lib.Transition

variable {σ ε : Type}

structure System (σ ε : Type) where
  Enabled : σ → ε → Prop
  next : σ → ε → σ

/-- What can be reached from `start` by allowed events. -/
inductive System.Run (sys : System σ ε) (allowed : σ → ε → Prop) (start : σ) : σ → Prop where
  | start : System.Run sys allowed start start
  | step {state event} : System.Run sys allowed start state → sys.Enabled state event →
      allowed state event → System.Run sys allowed start (sys.next state event)

/-- Every event that is enabled is allowed. -/
def anyEvent (_ : σ) (_ : ε) : Prop := True

instance (state : σ) (event : ε) : Decidable (anyEvent state event) := isTrue trivial

/-- The events of the list one after another, each enabled and allowed when its turn comes. -/
def System.Follows (sys : System σ ε) (allowed : σ → ε → Prop) : σ → List ε → Prop
  | _,[] => True
  | state,event :: events =>
    (sys.Enabled state event ∧ allowed state event) ∧ sys.Follows allowed (sys.next state event) events

instance System.decidableFollows (sys : System σ ε) (allowed : σ → ε → Prop)
    [∀ state event, Decidable (sys.Enabled state event)] [∀ state event, Decidable (allowed state event)] :
    (state : σ) → (events : List ε) → Decidable (sys.Follows allowed state events)
  | _,[] => isTrue trivial
  | state,event :: events =>
    have := System.decidableFollows sys allowed (sys.next state event) events
    inferInstanceAs (Decidable ((_ ∧ _) ∧ _))

variable {sys : System σ ε} {allowed : σ → ε → Prop} {start state : σ}

theorem run_invariant {I : σ → Prop} (initially : I start)
    (preserved : ∀ {state event}, I state → sys.Enabled state event → allowed state event →
      I (sys.next state event))
    (run : sys.Run allowed start state) : I state := by
  induction run with
  | start => exact initially
  | step _ enabled ok ih => exact preserved ih enabled ok

theorem run_mono {fewer : σ → ε → Prop} (more : ∀ state event, fewer state event → allowed state event)
    (run : sys.Run fewer start state) : sys.Run allowed start state := by
  induction run with
  | start => exact .start
  | step _ enabled ok ih => exact ih.step enabled (more _ _ ok)

theorem run_event (event : ε) {last : σ} (run : sys.Run anyEvent start state) (enabled : sys.Enabled state event)
    (moves : sys.next state event = last) : sys.Run anyEvent start last := by
  rw [← moves]
  exact run.step enabled trivial

theorem run_trans {last : σ} (first : sys.Run allowed start state) (second : sys.Run allowed state last) :
    sys.Run allowed start last := by
  induction second with
  | start => exact first
  | step _ enabled ok ih => exact ih.step enabled ok

theorem run_of_events {events : List ε} (follows : sys.Follows allowed state events)
    (run : sys.Run allowed start state) : sys.Run allowed start (events.foldl sys.next state) := by
  induction events generalizing state with
  | nil => exact run
  | cons event events ih =>
    obtain ⟨⟨enabled,ok⟩,rest⟩ := follows
    exact ih rest (run.step enabled ok)

theorem follows_any (always : ∀ state event, sys.Enabled state event) (events : List ε) :
    sys.Follows anyEvent state events := by
  induction events generalizing state with
  | nil => trivial
  | cons event events ih => exact ⟨⟨always state event,trivial⟩,ih⟩

theorem follows_front {events front : List ε} (follows : sys.Follows allowed state events)
    (before : front <+: events) : sys.Follows allowed state front := by
  induction events generalizing state front with
  | nil => rwa [List.prefix_nil.mp before]
  | cons event events ih =>
    cases front with
    | nil => trivial
    | cons first front =>
      obtain ⟨rfl,remaining⟩ := List.cons_prefix_cons.mp before
      exact ⟨follows.1,ih follows.2 remaining⟩

theorem follows_invariant {I : σ → Prop} {events : List ε} (follows : sys.Follows allowed state events)
    (preserved : ∀ {state event}, I state → sys.Enabled state event → allowed state event →
      I (sys.next state event))
    (initially : I state) : I (events.foldl sys.next state) :=
  run_invariant initially preserved (run_of_events follows .start)

/-- What allowed steps come nearer to all the time is reached by some of them. -/
theorem follows_until {I P : σ → Prop} (distance : σ → Nat)
    (nearer : ∀ state, I state → ¬ P state → ∃ event, sys.Enabled state event ∧ allowed state event ∧
      I (sys.next state event) ∧ distance (sys.next state event) < distance state)
    (initially : I state) : ∃ events, sys.Follows allowed state events ∧ P (events.foldl sys.next state) := by
  induction far : distance state using Nat.strong_induction_on generalizing state with
  | _ n ih =>
    by_cases there : P state
    · exact ⟨[],trivial,there⟩
    · obtain ⟨event,enabled,ok,kept,less⟩ := nearer state initially there
      obtain ⟨events,follows,reached⟩ := ih _ (far ▸ less) kept rfl
      exact ⟨event :: events,⟨⟨enabled,ok⟩,follows⟩,reached⟩

/-- A property that an invariant of the allowed steps gives, and that no other step keeps,
holds all along a run exactly when all its steps are allowed. -/
theorem follows_iff_kept {I P : σ → Prop}
    (keep : ∀ {state event}, I state → sys.Enabled state event → allowed state event →
      I (sys.next state event))
    (lost : ∀ {state event}, I state → sys.Enabled state event → P (sys.next state event) →
      allowed state event)
    (given : ∀ {state}, I state → P state)
    {events : List ε} (initially : I state) (follows : sys.Follows anyEvent state events) :
    (∀ front, front <+: events → P (front.foldl sys.next state)) ↔ sys.Follows allowed state events := by
  induction events generalizing state with
  | nil =>
    refine ⟨fun _ => trivial,fun _ front before => ?_⟩
    rw [List.prefix_nil.mp before]
    exact given initially
  | cons event events ih =>
    obtain ⟨⟨enabled,_⟩,rest⟩ := follows
    constructor
    · intro always
      have ok := lost initially enabled (always [event] (by simp))
      refine ⟨⟨enabled,ok⟩,(ih (keep initially enabled ok) rest).mp fun front before => ?_⟩
      exact always (event::front) (List.cons_prefix_cons.mpr ⟨rfl,before⟩)
    · rintro ⟨⟨_,ok⟩,later⟩ front before
      cases front with
      | nil => exact given initially
      | cons first front =>
        obtain ⟨rfl,remaining⟩ := List.cons_prefix_cons.mp before
        exact (ih (keep initially enabled ok) rest).mpr later front remaining

/-- A property that holds after a step exactly when the step is allowed holds all along a
run exactly when all its steps are. -/
theorem follows_iff_prefixes {I : σ → Prop}
    (exact_step : ∀ {state event}, I state → sys.Enabled state event →
      (I (sys.next state event) ↔ allowed state event))
    {events : List ε} (initially : I state) (follows : sys.Follows anyEvent state events) :
    (∀ front, front <+: events → I (front.foldl sys.next state)) ↔ sys.Follows allowed state events :=
  follows_iff_kept (fun here enabled => (exact_step here enabled).mpr)
    (fun here enabled => (exact_step here enabled).mp) id initially follows

section Places

variable {ι β : Type} [Fintype ι] [DecidableEq β] (places : ι → β)

/-- How many parties are at the place. -/
def number (place : β) : Nat := (Finset.univ.filter fun party => places party = place).card

variable {place other : β} {party : ι} {places}

theorem number_pos : 0 < number places place ↔ ∃ party, places party = place := by
  rw [number,Finset.card_pos,Finset.filter_nonempty_iff]
  simp

variable [DecidableEq ι]

theorem number_enter (outside : places party ≠ place) :
    number (Function.update places party place) place = number places place + 1 := by
  have set : (Finset.univ.filter fun i => Function.update places party place i = place) =
      insert party (Finset.univ.filter fun i => places i = place) := by
    ext i
    by_cases same : i = party <;> simp [Function.update_apply,same]
  rw [number,set,Finset.card_insert_of_notMem (by simpa using outside)]
  rfl

theorem number_leave (inside : places party = place) (apart : other ≠ place) :
    number (Function.update places party other) place + 1 = number places place := by
  have set : (Finset.univ.filter fun i => Function.update places party other i = place) =
      (Finset.univ.filter fun i => places i = place).erase party := by
    ext i
    by_cases same : i = party <;> simp [Function.update_apply,same,apart]
  rw [number,set,Finset.card_erase_add_one (by simpa using inside)]
  rfl

theorem number_keep (outside : places party ≠ place) (apart : other ≠ place) :
    number (Function.update places party other) place = number places place := by
  have set : (Finset.univ.filter fun i => Function.update places party other i = place) =
      Finset.univ.filter fun i => places i = place := by
    ext i
    by_cases same : i = party <;> simp [Function.update_apply,same,apart,outside]
  rw [number,set]
  rfl

end Places

end MoCodes.Lib.Transition
