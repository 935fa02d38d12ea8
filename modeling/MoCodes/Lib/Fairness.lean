import MoCodes.Lib.Transition

/-! Endless runs of a system and what they get to. A group of events is treated fairly if it
is not passed over for ever while one of its events can be taken all the time. -/
namespace MoCodes.Lib.Fairness
open Transition

variable {σ ε : Type}

/-- At every moment an event is taken or nothing happens. -/
structure Endless (sys : System σ ε) (start : σ) where
  state : Nat → σ
  event : Nat → Option ε
  initial : state 0 = start
  idle : ∀ n, event n = none → state (n+1) = state n
  enabled : ∀ n taken, event n = some taken → sys.Enabled (state n) taken
  moved : ∀ n taken, event n = some taken → state (n+1) = sys.next (state n) taken

variable {sys : System σ ε} {start : σ} (run : Endless sys start)

def Endless.WeaklyFair (group : ε → Prop) : Prop :=
  ∀ n, (∀ m ≥ n, ∃ event, group event ∧ sys.Enabled (run.state m) event) →
    ∃ m ≥ n, ∃ event, group event ∧ run.event m = some event

/-- Whenever the first holds, the second holds then or later. -/
def Endless.Leads (P Q : σ → Prop) : Prop := ∀ n, P (run.state n) → ∃ m ≥ n, Q (run.state m)

variable {run}

theorem endless_reachable (n : Nat) : sys.Run anyEvent start (run.state n) := by
  induction n with
  | zero =>
    rw [run.initial]
    exact .start
  | succ n ih =>
    cases taken : run.event n with
    | none => rwa [run.idle n taken]
    | some event =>
      rw [run.moved n event taken]
      exact ih.step (run.enabled n event taken) trivial

variable {P Q R : σ → Prop}

theorem leads_trans (first : run.Leads P Q) (second : run.Leads Q R) : run.Leads P R := by
  intro n here
  obtain ⟨m,later,there⟩ := first n here
  obtain ⟨k,last,final⟩ := second m there
  exact ⟨k,later.trans last,final⟩

theorem leads_cases (first : run.Leads P R) (second : run.Leads Q R) :
    run.Leads (fun state => P state ∨ Q state) R := by
  intro n here
  rcases here with left | right
  · exact first n left
  · exact second n right

theorem leads_exists {ι : Type} {P : ι → σ → Prop} (each : ∀ i, run.Leads (P i) Q) :
    run.Leads (fun state => ∃ i, P i state) Q := by
  intro n ⟨i,here⟩
  exact each i n here

theorem leads_of_imp (implies : ∀ state, sys.Run anyEvent start state → P state → Q state) : run.Leads P Q :=
  fun n here => ⟨n,Nat.le_refl n,implies _ (endless_reachable n) here⟩

/-- What the other events keep until the goal, and a fair group can always end, ends. -/
theorem leads_of_fair {group : ε → Prop} (fair : run.WeaklyFair group)
    (stay : ∀ state event, sys.Run anyEvent start state → P state → sys.Enabled state event → ¬group event →
      P (sys.next state event) ∨ Q (sys.next state event))
    (act : ∀ state event, sys.Run anyEvent start state → P state → sys.Enabled state event → group event →
      Q (sys.next state event))
    (able : ∀ state, sys.Run anyEvent start state → P state → ∃ event, group event ∧ sys.Enabled state event) :
    run.Leads P Q := by
  intro n here
  by_contra never
  have absent : ∀ m ≥ n, ¬Q (run.state m) := fun m later there => never ⟨m,later,there⟩
  have always : ∀ m ≥ n, P (run.state m) := by
    intro m later
    induction m, later using Nat.le_induction with
    | base => exact here
    | succ m later ih =>
      have next := absent (m+1) (later.trans (Nat.le_succ m))
      cases taken : run.event m with
      | none => rwa [run.idle m taken]
      | some event =>
        have enabled := run.enabled m event taken
        rw [run.moved m event taken] at next ⊢
        by_cases member : group event
        · exact absurd (act _ event (endless_reachable m) ih enabled member) next
        · exact (stay _ event (endless_reachable m) ih enabled member).resolve_right next
  obtain ⟨m,later,event,member,taken⟩ := fair n fun m later => able _ (endless_reachable m) (always m later)
  have goal := act _ event (endless_reachable m) (always m later) (run.enabled m event taken) member
  rw [← run.moved m event taken] at goal
  exact absent (m+1) (later.trans (Nat.le_succ m)) goal

/-- What an endless sequence of events leads to. -/
def stream (sys : System σ ε) (start : σ) (events : Nat → ε) : Nat → σ
  | 0 => start
  | n+1 => sys.next (stream sys start events n) (events n)

def Endless.ofStream (events : Nat → ε) (enabled : ∀ n, sys.Enabled (stream sys start events n) (events n)) :
    Endless sys start where
  state := stream sys start events
  event n := some (events n)
  initial := rfl
  idle _ absent := nomatch absent
  enabled n _ same := Option.some.inj same ▸ enabled n
  moved _ _ same := Option.some.inj same ▸ rfl

section Finite

variable {events : List ε}

theorem follows_taken {allowed : σ → ε → Prop} (follows : sys.Follows allowed start events) (n : Nat) {event : ε}
    (taken : events[n]? = some event) :
    sys.Enabled ((events.take n).foldl sys.next start) event ∧
      allowed ((events.take n).foldl sys.next start) event := by
  induction events generalizing start n with
  | nil => cases taken
  | cons first events ih =>
    obtain ⟨here,rest⟩ := follows
    cases n with
    | zero =>
      cases taken
      exact here
    | succ n => exact ih rest n taken

/-- The events one after another, and then nothing for ever. -/
def Endless.ofEvents (follows : sys.Follows anyEvent start events) : Endless sys start where
  state n := (events.take n).foldl sys.next start
  event n := events[n]?
  initial := rfl
  idle := by
    intro n past
    have bound := List.getElem?_eq_none_iff.mp past
    rw [List.take_of_length_le bound,List.take_of_length_le (bound.trans (Nat.le_succ n))]
  enabled n event taken := (follows_taken follows n taken).1
  moved := by
    intro n event taken
    rw [List.take_add_one,taken,Option.toList_some,List.foldl_append]
    rfl

/-- The events one after another, and then an endless run from where they lead to. -/
def Endless.after (follows : sys.Follows anyEvent start events) (run : Endless sys (events.foldl sys.next start)) :
    Endless sys start where
  state n := if n < events.length then (events.take n).foldl sys.next start else run.state (n-events.length)
  event n := if n < events.length then events[n]? else run.event (n-events.length)
  initial := by
    cases events with
    | nil => exact run.initial
    | cons event events => rfl
  idle := by
    intro n nothing
    by_cases early : n < events.length
    · rw [if_pos early,List.getElem?_eq_getElem early] at nothing
      cases nothing
    · rw [if_neg early] at nothing
      rw [if_neg early,if_neg (by omega),Nat.succ_sub (Nat.le_of_not_lt early)]
      exact run.idle _ nothing
  enabled := by
    intro n event taken
    by_cases early : n < events.length
    · rw [if_pos early] at taken ⊢
      exact (follows_taken follows n taken).1
    · rw [if_neg early] at taken ⊢
      exact run.enabled _ event taken
  moved := by
    intro n event taken
    by_cases early : n < events.length
    · rw [if_pos early] at taken ⊢
      have next : (events.take (n+1)).foldl sys.next start =
          sys.next ((events.take n).foldl sys.next start) event := by
        rw [List.take_add_one,taken,Option.toList_some,List.foldl_append]
        rfl
      by_cases last : n+1 < events.length
      · rw [if_pos last]
        exact next
      · have whole : n+1 = events.length := by omega
        rw [if_neg last,← next,whole,Nat.sub_self,run.initial,List.take_length]
    · rw [if_neg early] at taken ⊢
      rw [if_neg (by omega),Nat.succ_sub (Nat.le_of_not_lt early)]
      exact run.moved _ event taken

theorem after_state (follows : sys.Follows anyEvent start events)
    (run : Endless sys (events.foldl sys.next start)) (n : Nat) :
    (Endless.after follows run).state (events.length+n) = run.state n := by
  have late : ¬ events.length+n < events.length := by omega
  simp only [Endless.after,if_neg late,Nat.add_sub_cancel_left]

theorem after_event (follows : sys.Follows anyEvent start events)
    (run : Endless sys (events.foldl sys.next start)) (n : Nat) :
    (Endless.after follows run).event (events.length+n) = run.event n := by
  have late : ¬ events.length+n < events.length := by omega
  simp only [Endless.after,if_neg late,Nat.add_sub_cancel_left]

/-- A run that ends where no event of the group can be taken is fair to it. -/
theorem weaklyFair_ofEvents (follows : sys.Follows anyEvent start events) {group : ε → Prop}
    (stuck : ∀ event, group event → ¬sys.Enabled (events.foldl sys.next start) event) :
    (Endless.ofEvents follows).WeaklyFair group := by
  intro n always
  obtain ⟨event,member,enabled⟩ := always (n+events.length) (Nat.le_add_right ..)
  have final : (Endless.ofEvents follows).state (n+events.length) = events.foldl sys.next start := by
    simp only [Endless.ofEvents]
    rw [List.take_of_length_le (Nat.le_add_left ..)]
  rw [final] at enabled
  exact absurd enabled (stuck event member)

end Finite

end MoCodes.Lib.Fairness
