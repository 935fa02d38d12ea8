import MoCodes.Lib.Loop
import Mathlib.Order.Monotone.Basic
import Mathlib.Data.Nat.Find

/-! Transfers in parts. A loop asks for what is left of a range of items; a call moves
some of them, at most as many as it was asked for, or it is interrupted, would have to
wait, or fails. The answers to the calls are an endless sequence that nothing is known
about, and `move ptr n` is what moving the items from `ptr` to `ptr+n` does. -/
namespace MoCodes.Lib.Transfer
open MoCodes.Lib.Loop

variable {σ : Type}

/-- `moved ready` offers `ready` items; no item means the end. -/
inductive Answer where
  | moved (ready : Nat)
  | interrupted
  | again
  | failed
  deriving DecidableEq,Repr

def Answer.size : Answer → Nat
  | .moved ready => ready
  | _ => 0

inductive End where
  | stopped (left : Int)
  | failed
  | closed
  deriving DecidableEq,Repr

structure Xfer (σ : Type) where
  call : Nat
  left : Int
  ptr : Nat
  held : σ

def body (answers : Nat → Answer) (move : Nat → Nat → σ → σ) (state : Xfer σ) :
    Outcome (Xfer σ) (End × σ) :=
  if 0 < state.left then
    match answers state.call with
    | .interrupted => .next {state with call := state.call+1}
    | .again => .done (.stopped state.left,state.held)
    | .failed => .done (.failed,state.held)
    | .moved ready =>
      let n := min ready state.left.toNat
      if n = 0 then .done (.closed,state.held)
      else .next ⟨state.call+1,state.left-n,state.ptr+n,move state.ptr n state.held⟩
  else .done (.stopped state.left,state.held)

/-- The items that the first `k` answers offer. -/
def offered (answers : Nat → Answer) : Nat → Nat
  | 0 => 0
  | k+1 => offered answers k+(answers k).size

def Benign (answer : Answer) : Prop := answer = .interrupted ∨ 0 < answer.size

theorem benign_cases {answer : Answer} (benign : Benign answer) :
    answer = .interrupted ∨ ∃ ready, 0 < ready ∧ answer = .moved ready := by
  rcases benign with interrupted | moves
  · exact .inl interrupted
  · cases answer with
    | moved ready => exact .inr ⟨ready,moves,rfl⟩
    | interrupted => exact .inl rfl
    | again => exact absurd moves (Nat.lt_irrefl 0)
    | failed => exact absurd moves (Nat.lt_irrefl 0)

def Goes (answers : Nat → Answer) (k : Nat) : Prop := ∀ j < k, Benign (answers j)

/-- All items come, with nothing but interruptions in between. -/
def Delivers (answers : Nat → Answer) (len : Nat) : Prop := ∃ k, Goes answers k ∧ len ≤ offered answers k

/-- A call would have to wait while items are missing. -/
def Breaks (answers : Nat → Answer) (len : Nat) : Prop :=
  ∃ k, Goes answers k ∧ offered answers k < len ∧ answers k = .again

section Answers

variable {answers : Nat → Answer} {len : Nat}

theorem offered_mono (answers : Nat → Answer) : Monotone (offered answers) :=
  monotone_nat_of_le_succ fun _ => Nat.le_add_right _ _

theorem goes_le {k j : Nat} (goes : Goes answers k) (below : j ≤ k) : Goes answers j :=
  fun i inside => goes i (Nat.lt_of_lt_of_le inside below)

theorem goes_succ {k : Nat} (goes : Goes answers k) (benign : Benign (answers k)) : Goes answers (k+1) := by
  intro j inside
  rcases Nat.lt_succ_iff_lt_or_eq.mp inside with before | rfl
  · exact goes j before
  · exact benign

theorem delivers_first (delivers : Delivers answers len) :
    ∃ k, Goes answers k ∧ len ≤ offered answers k ∧ ∀ j < k, offered answers j < len := by
  classical
  have least := Nat.find_spec delivers
  refine ⟨Nat.find delivers,least.1,least.2,fun j before => ?_⟩
  have short := Nat.find_min delivers before
  exact not_le.mp fun enough => short ⟨goes_le least.1 before.le,enough⟩

/-- Interruptions that never last for ever let every number of items come. -/
theorem delivers_of_benign (benign : ∀ k, Benign (answers k))
    (resumes : ∀ k, ∃ m ≥ k, answers m ≠ .interrupted) (len : Nat) : Delivers answers len := by
  induction len with
  | zero => exact ⟨0,fun j inside => absurd inside (Nat.not_lt_zero j),Nat.zero_le _⟩
  | succ len ih =>
    obtain ⟨k,-,enough⟩ := ih
    obtain ⟨m,later,moves⟩ := resumes k
    have some : 0 < (answers m).size := (benign m).resolve_left moves
    have grown : offered answers k ≤ offered answers m := offered_mono answers later
    refine ⟨m+1,fun j _ => benign j,?_⟩
    rw [offered]
    omega

end Answers

section Run

variable {answers : Nat → Answer} {move : Nat → Nat → σ → σ} {len : Nat}

/-- How many of `len` items are moved after `k` calls. -/
def moved (answers : Nat → Answer) (len k : Nat) : Nat := min len (offered answers k)

def stateAt (answers : Nat → Answer) (move : Nat → Nat → σ → σ) (len : Nat) (held : σ) (k : Nat) : Xfer σ :=
  ⟨k,(len : Int)-moved answers len k,moved answers len k,move 0 (moved answers len k) held⟩

variable (nothing : ∀ held, move 0 0 held = held)
  (joined : ∀ n m held, move n m (move 0 n held) = move 0 (n+m) held)

include nothing in
theorem stateAt_zero (held : σ) : stateAt answers move len held 0 = ⟨0,len,0,held⟩ := by
  have none : moved answers len 0 = 0 := Nat.min_eq_right (Nat.zero_le _)
  rw [stateAt,none,nothing]
  simp

include joined in
theorem body_goes {k : Nat} (held : σ) (benign : Benign (answers k)) (short : offered answers k < len) :
    body answers move (stateAt answers move len held k) = .next (stateAt answers move len held (k+1)) := by
  have here : moved answers len k = offered answers k := Nat.min_eq_right short.le
  have asks : 0 < (len : Int)-offered answers k := by omega
  rw [stateAt,here]
  rcases benign_cases benign with answer | ⟨ready,some,answer⟩
  · have same : moved answers len (k+1) = offered answers k := by
      rw [moved,offered,answer]
      exact Nat.min_eq_right short.le
    rw [stateAt,same]
    simp only [body,if_pos asks,answer]
  · have left : ((len : Int)-offered answers k).toNat = len-offered answers k := by omega
    have more : min ready (len-offered answers k) ≠ 0 := by omega
    have total : offered answers k+min ready (len-offered answers k) = moved answers len (k+1) := by
      rw [moved,offered,answer,Answer.size]
      omega
    simp only [body,if_pos asks,answer,left,if_neg more,stateAt,joined,total]
    congr 2
    omega

include nothing joined in
theorem returns_stateAt {k : Nat} (held : σ) (goes : Goes answers k) (short : ∀ j < k, offered answers j < len)
    (result : End × σ) :
    Returns (body answers move) ⟨0,len,0,held⟩ result ↔
      Returns (body answers move) (stateAt answers move len held k) result := by
  induction k with
  | zero => rw [stateAt_zero nothing]
  | succ k ih =>
    rw [ih (goes_le goes (Nat.le_succ k)) fun j before => short j (Nat.lt_succ_of_lt before)]
    exact returns_next (body_goes joined held (goes k (Nat.lt_succ_self k)) (short k (Nat.lt_succ_self k)))

include nothing joined in
theorem returns_whole (held : σ) (delivers : Delivers answers len) :
    Returns (body answers move) ⟨0,len,0,held⟩ (.stopped 0,move 0 len held) := by
  obtain ⟨k,goes,enough,short⟩ := delivers_first delivers
  rw [returns_stateAt nothing joined held goes short]
  have whole : moved answers len k = len := Nat.min_eq_left enough
  apply returns_done
  rw [stateAt,whole,Int.sub_self]
  simp [body]

include nothing joined in
theorem returns_broken {k : Nat} (held : σ) (goes : Goes answers k) (short : offered answers k < len)
    (waits : answers k = .again) :
    Returns (body answers move) ⟨0,len,0,held⟩
      (.stopped ((len : Int)-offered answers k),move 0 (offered answers k) held) := by
  have before : ∀ j < k, offered answers j < len := fun j early =>
    Nat.lt_of_le_of_lt (offered_mono answers early.le) short
  rw [returns_stateAt nothing joined held goes before]
  have here : moved answers len k = offered answers k := Nat.min_eq_right short.le
  have asks : 0 < (len : Int)-offered answers k := by omega
  apply returns_done
  simp only [body,stateAt,here,if_pos asks,waits]

theorem body_next {k : Nat} {held : σ} {after : Xfer σ}
    (step : body answers move (stateAt answers move len held k) = .next after) :
    Benign (answers k) ∧ offered answers k < len := by
  have short : offered answers k < len := by
    by_contra enough
    have whole : moved answers len k = len := Nat.min_eq_left (not_lt.mp enough)
    simp [body,stateAt,whole] at step
  refine ⟨?_,short⟩
  have here : moved answers len k = offered answers k := Nat.min_eq_right short.le
  have asks : 0 < (len : Int)-offered answers k := by omega
  simp only [body,stateAt,here,if_pos asks] at step
  cases answer : answers k with
  | interrupted => exact .inl rfl
  | moved ready =>
    rw [answer] at step
    refine .inr (Nat.pos_of_ne_zero fun zero => ?_)
    simp [show ready = 0 from zero] at step
  | again =>
    rw [answer] at step
    cases step
  | failed =>
    rw [answer] at step
    cases step

/-- The states that the loop comes to: those after some calls that all went on. -/
def Along (answers : Nat → Answer) (move : Nat → Nat → σ → σ) (len : Nat) (held : σ) (state : Xfer σ) : Prop :=
  ∃ k, Goes answers k ∧ state = stateAt answers move len held k

include nothing in
theorem along_start (held : σ) : Along answers move len held ⟨0,len,0,held⟩ :=
  ⟨0,fun j inside => absurd inside (Nat.not_lt_zero j),(stateAt_zero nothing held).symm⟩

include joined in
theorem along_next {held : σ} {state after : Xfer σ} (along : Along answers move len held state)
    (step : body answers move state = .next after) : Along answers move len held after := by
  obtain ⟨k,goes,rfl⟩ := along
  obtain ⟨benign,short⟩ := body_next step
  rw [body_goes joined held benign short] at step
  cases step
  exact ⟨k+1,goes_succ goes benign,rfl⟩

include nothing joined in
theorem reached_along {held : σ} {state : Xfer σ} (reached : Reached (body answers move) ⟨0,len,0,held⟩ state) :
    Along answers move len held state := by
  induction reached with
  | start => exact along_start nothing held
  | next reached step ih => exact along_next joined ih step

theorem body_nothing {left : Int} (none : left ≤ 0) (held : σ) :
    body answers move ⟨0,left,0,held⟩ = .done (.stopped left,held) :=
  if_neg (not_lt.mpr none)

theorem reached_nothing {left : Int} (none : left ≤ 0) {held : σ} {state : Xfer σ}
    (reached : Reached (body answers move) ⟨0,left,0,held⟩ state) : state = ⟨0,left,0,held⟩ := by
  induction reached with
  | start => rfl
  | next reached step ih =>
    rw [ih,body_nothing none held] at step
    cases step

/-- Where the loop ends, and with what. -/
inductive Ends (answers : Nat → Answer) (move : Nat → Nat → σ → σ) (len : Nat) (held : σ) (k : Nat) :
    End × σ → Prop where
  | whole : len ≤ offered answers k → Ends answers move len held k (.stopped 0,move 0 len held)
  | waits : offered answers k < len → answers k = .again →
      Ends answers move len held k (.stopped ((len : Int)-offered answers k),move 0 (offered answers k) held)
  | fails : offered answers k < len → answers k = .failed →
      Ends answers move len held k (.failed,move 0 (offered answers k) held)
  | closes : offered answers k < len → answers k = .moved 0 →
      Ends answers move len held k (.closed,move 0 (offered answers k) held)

theorem body_done {k : Nat} {held : σ} {result : End × σ}
    (step : body answers move (stateAt answers move len held k) = .done result) :
    Ends answers move len held k result := by
  by_cases short : offered answers k < len
  · have here : moved answers len k = offered answers k := Nat.min_eq_right short.le
    have asks : 0 < (len : Int)-offered answers k := by omega
    simp only [body,stateAt,here,if_pos asks] at step
    cases answer : answers k with
    | again =>
      rw [answer] at step
      cases step
      exact .waits short answer
    | interrupted =>
      rw [answer] at step
      cases step
    | failed =>
      rw [answer] at step
      cases step
      exact .fails short answer
    | moved ready =>
      rw [answer] at step
      simp only at step
      split at step
      · next nothing =>
        cases step
        have none : ready = 0 := by omega
        exact .closes short (by rw [answer,none])
      · cases step
  · have whole : moved answers len k = len := Nat.min_eq_left (not_lt.mp short)
    simp only [body,stateAt,whole,Int.sub_self,Int.lt_irrefl,if_false] at step
    cases step
    exact .whole (not_lt.mp short)

include nothing joined in
theorem returns_ends {held : σ} {result : End × σ}
    (returns : Returns (body answers move) ⟨0,len,0,held⟩ result) :
    ∃ k, Goes answers k ∧ Ends answers move len held k result := by
  refine returns_invariant (Along answers move len held)
    (fun result => ∃ k, Goes answers k ∧ Ends answers move len held k result)
    (fun _ _ along step => along_next joined along step) ?_ (along_start nothing held) returns
  rintro _ result ⟨k,goes,rfl⟩ step
  exact ⟨k,goes,body_done step⟩

theorem ends_benign {k : Nat} {held : σ} {result : End × σ} (benign : Benign (answers k))
    (ends : Ends answers move len held k result) :
    len ≤ offered answers k ∧ result = (.stopped 0,move 0 len held) := by
  rcases benign_cases benign with answer | ⟨ready,some,answer⟩
  · cases ends with
    | whole enough => exact ⟨enough,rfl⟩
    | waits short other => cases answer.symm.trans other
    | fails short other => cases answer.symm.trans other
    | closes short other => cases answer.symm.trans other
  · cases ends with
    | whole enough => exact ⟨enough,rfl⟩
    | waits short other => cases answer.symm.trans other
    | fails short other => cases answer.symm.trans other
    | closes short other =>
      cases answer.symm.trans other
      exact absurd some (Nat.lt_irrefl 0)

include nothing joined in
/-- Nothing but interruptions and moves: whenever the loop ends, all has come. -/
theorem returns_benign (benign : ∀ k, Benign (answers k)) {held : σ} {result : End × σ}
    (returns : Returns (body answers move) ⟨0,len,0,held⟩ result) :
    result = (.stopped 0,move 0 len held) := by
  obtain ⟨k,-,ends⟩ := returns_ends nothing joined returns
  exact (ends_benign (benign k) ends).2

end Run

end MoCodes.Lib.Transfer
