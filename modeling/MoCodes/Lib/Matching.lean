import MoCodes.Lib.Loop
import Mathlib.Order.Bounds.Basic
import Mathlib.Logic.Function.Basic

/-! Occurrences of a pattern in a text, and the shifts that pass over none of them.
Text and pattern are read by index, so bytes beyond either end exist but are never
part of an occurrence. A shift rule is a condition that every shift to an occurrence
meets; the least positive shift meeting it, or any smaller one, is then safe. -/
namespace MoCodes.Lib.Matching
open Loop

variable {α ρ : Type}

def OccursAt (t p : Nat → α) (m i : Nat) : Prop := ∀ k < m, t (i+k) = p k

def FirstAt (t p : Nat → α) (m last i : Nat) : Prop :=
  i ≤ last ∧ OccursAt t p m i ∧ ∀ r < i, ¬ OccursAt t p m r

def Absent (t p : Nat → α) (m last : Nat) : Prop := ∀ r ≤ last, ¬ OccursAt t p m r

def SafeShift (t p : Nat → α) (m last i s : Nat) : Prop :=
  ∀ r, i ≤ r → r < i+s → r ≤ last → ¬ OccursAt t p m r

/-- The prefix of length `j` agrees with itself moved by `s`. -/
def PrefixShift (p : Nat → α) (j s : Nat) : Prop := ∀ k, k+s < j → p k = p (k+s)

/-- The suffix from `e` agrees with what a move by `s` puts under it. -/
def SuffixShift (p : Nat → α) (m e s : Nat) : Prop :=
  ∀ k, e ≤ k → k < m → s ≤ k → p (k-s) = p k

/-- A move by `s` puts the character `c` under index `e`, or nothing at all. -/
def CharShift (p : Nat → α) (e : Nat) (c : α) (s : Nat) : Prop := s ≤ e → p (e-s) = c

def LeastShift (rule : Nat → Prop) (s : Nat) : Prop := IsLeast {r | 0 < r ∧ rule r} s

section Rules

variable {t p : Nat → α} {m last i : Nat}

theorem occurs_prefixShift {j r : Nat} (agree : ∀ k < j, t (i+k) = p k) (inside : j ≤ m)
    (occurs : OccursAt t p m (i+r)) : PrefixShift p j r := by
  intro k bound
  calc p k = t (i+r+k) := (occurs k (by omega)).symm
    _ = t (i+(k+r)) := by congr 1; omega
    _ = p (k+r) := agree (k+r) bound

theorem occurs_suffixShift {e r : Nat} (agree : ∀ k, e ≤ k → k < m → t (i+k) = p k)
    (occurs : OccursAt t p m (i+r)) : SuffixShift p m e r := by
  intro k low high below
  calc p (k-r) = t (i+r+(k-r)) := (occurs (k-r) (by omega)).symm
    _ = t (i+k) := by congr 1; omega
    _ = p k := agree k low high

theorem occurs_charShift {e r : Nat} (inside : e < m+r) (occurs : OccursAt t p m (i+r)) :
    CharShift p e (t (i+e)) r := by
  intro below
  calc p (e-r) = t (i+r+(e-r)) := (occurs (e-r) (by omega)).symm
    _ = t (i+e) := by congr 1; omega

/-- The rule of safe shifts: after a mismatch, a shift of at most the least positive
one that the rule allows passes over no occurrence. -/
theorem safe_of_least {rule : Nat → Prop} {s d : Nat} (least : LeastShift rule s)
    (necessary : ∀ r, 0 < r → OccursAt t p m (i+r) → rule r)
    (mismatch : ¬ OccursAt t p m i) (below : d ≤ s) : SafeShift t p m last i d := by
  intro r low high _ occurs
  rcases Nat.eq_or_lt_of_le low with rfl | above
  · exact mismatch occurs
  · have shifted : i+(r-i) = r := by omega
    have allowed := necessary (r-i) (by omega) (by rwa [shifted])
    have minimal := least.2 ⟨by omega,allowed⟩
    omega

theorem least_unique {rule : Nat → Prop} {a b : Nat} (first : LeastShift rule a)
    (second : LeastShift rule b) : a = b := IsLeast.unique first second

theorem least_pos {rule : Nat → Prop} {s : Nat} (least : LeastShift rule s) : 0 < s := least.1.1

theorem least_of {rule : Nat → Prop} {s : Nat} (positive : 0 < s) (allowed : rule s)
    (minimal : ∀ r, 0 < r → r < s → ¬ rule r) : LeastShift rule s := by
  refine ⟨⟨positive,allowed⟩,fun r ⟨above,other⟩ => ?_⟩
  by_contra below
  exact minimal r above (by omega) other

end Rules

section Scan

/-! A scan looks at a position, and either reports an occurrence there or moves on. -/

variable {t p : Nat → α} {m last : Nat} {body : Nat → Outcome Nat ρ} {found : Nat → ρ} {missing : ρ}

theorem scan_first
    (within : ∀ i ≤ last, (OccursAt t p m i ∧ body i = .done (found i)) ∨
      ∃ s, SafeShift t p m last i s ∧ body i = .next (i+s))
    (beyond : ∀ i, last < i → body i = .done missing)
    {result : ρ} (ok : Returns body 0 result) :
    (∃ i, FirstAt t p m last i ∧ result = found i) ∨ (Absent t p m last ∧ result = missing) := by
  refine returns_invariant (fun i => ∀ r < i, r ≤ last → ¬ OccursAt t p m r)
    (fun result => (∃ i, FirstAt t p m last i ∧ result = found i) ∨
      (Absent t p m last ∧ result = missing)) ?_ ?_ (fun r below => absurd below (Nat.not_lt_zero r)) ok
  · intro i after passed step r below inside
    rcases Nat.lt_or_ge last i with out | bound
    · simp [beyond i out] at step
    · rcases within i bound with ⟨_,ended⟩ | ⟨s,safe,moved⟩
      · simp [ended] at step
      · rw [moved] at step
        cases step
        rcases Nat.lt_or_ge r i with before | later
        · exact passed r before inside
        · exact safe r later below inside
  · intro i value passed step
    rcases Nat.lt_or_ge last i with out | bound
    · rw [beyond i out] at step
      cases step
      exact Or.inr ⟨fun r inside => passed r (by omega) inside,rfl⟩
    · rcases within i bound with ⟨occurs,ended⟩ | ⟨s,_,moved⟩
      · rw [ended] at step
        cases step
        exact Or.inl ⟨i,⟨bound,occurs,fun r before => passed r before (by omega)⟩,rfl⟩
      · simp [moved] at step

variable (last) in
theorem scan_returns
    (within : ∀ i ≤ last, (∃ result, body i = .done result) ∨ ∃ after, i < after ∧ body i = .next after)
    (beyond : ∀ i, last < i → ∃ result, body i = .done result) :
    ∃ result, Returns body 0 result := by
  refine returns_of_measure (fun _ => True) (fun i => last+1-i) ?_ 0 trivial
  intro i after _ step
  refine ⟨trivial,?_⟩
  rcases Nat.lt_or_ge last i with out | bound
  · obtain ⟨result,ended⟩ := beyond i out
    simp [ended] at step
  · rcases within i bound with ⟨result,ended⟩ | ⟨next,higher,moved⟩
    · simp [ended] at step
    · rw [moved] at step
      cases step
      omega

end Scan

section Tables

/-! A table filled by a pass over the pattern holds, for each character, what the last
occurrence of that character wrote. -/

variable [DecidableEq α] {β : Type}

theorem fill_absent (key : Nat → α) (value : Nat → β) (initial : α → β) (n : Nat) (c : α)
    (absent : ∀ j < n, key j ≠ c) :
    (List.range n).foldl (fun table j => Function.update table (key j) (value j)) initial c = initial c := by
  induction n with
  | zero => rfl
  | succ n ih =>
    rw [List.range_succ,List.foldl_append,List.foldl_cons,List.foldl_nil,
      Function.update_of_ne (absent n (by omega)).symm]
    exact ih (fun j bound => absent j (by omega))

theorem fill_last (key : Nat → α) (value : Nat → β) (initial : α → β) (n j : Nat)
    (bound : j < n) (after : ∀ k, j < k → k < n → key k ≠ key j) :
    (List.range n).foldl (fun table j => Function.update table (key j) (value j)) initial (key j) =
      value j := by
  induction n with
  | zero => omega
  | succ n ih =>
    rw [List.range_succ,List.foldl_append,List.foldl_cons,List.foldl_nil]
    rcases Nat.lt_succ_iff_lt_or_eq.mp bound with inside | rfl
    · rw [Function.update_of_ne (after n inside (by omega)).symm]
      exact ih inside (fun k low high => after k low (by omega))
    · exact Function.update_self _ _ _

theorem last_occurrence (key : Nat → α) (n : Nat) (c : α) :
    (∀ j < n, key j ≠ c) ∨ ∃ j < n, key j = c ∧ ∀ k, j < k → k < n → key k ≠ c := by
  induction n with
  | zero => exact Or.inl (fun j bound => absurd bound (Nat.not_lt_zero j))
  | succ n ih =>
    by_cases here : key n = c
    · exact Or.inr ⟨n,by omega,here,fun k low high => by omega⟩
    · rcases ih with absent | ⟨j,bound,same,after⟩
      · refine Or.inl (fun j bound => ?_)
        rcases Nat.lt_succ_iff_lt_or_eq.mp bound with inside | rfl
        · exact absent j inside
        · exact here
      · refine Or.inr ⟨j,by omega,same,fun k low high => ?_⟩
        rcases Nat.lt_succ_iff_lt_or_eq.mp high with inside | rfl
        · exact after k low inside
        · exact here

end Tables

end MoCodes.Lib.Matching
