import Mathlib.Data.List.Nodup
import Mathlib.Data.List.Range
import Mathlib.Logic.Equiv.Basic
import Mathlib.Order.RelClasses
import Mathlib.Order.Basic
import Mathlib.Tactic.Common

/-! Arrays sorted in place: the first items of a sequence, in order and rearranged. -/
namespace MoCodes.Lib.Sorting

variable {α : Type} {n : Nat} {a b c : Nat → α}

def Ordered (r : α → α → Prop) (a : Nat → α) (n : Nat) : Prop := ∀ i j, i < j → j < n → r (a i) (a j)

def contents (a : Nat → α) (n : Nat) : List α := (List.range n).map a

/-- The first items change places, the others stay. -/
def Rearranged (n : Nat) (a b : Nat → α) : Prop :=
  ∃ σ : Equiv.Perm Nat, (∀ i ≥ n, σ i = i) ∧ ∀ i, b i = a (σ i)

/-- `tmp = a[i]; a[i] = a[j]; a[j] = tmp;` -/
def swap (a : Nat → α) (i j : Nat) : Nat → α := Function.update (Function.update a i (a j)) j (a i)

theorem swap_apply (i j k : Nat) : swap a i j k = a (Equiv.swap i j k) := by
  rw [swap]
  by_cases second : k = j
  · rw [second,Function.update_self,Equiv.swap_apply_right]
  · rw [Function.update_of_ne second]
    by_cases first : k = i
    · rw [first,Function.update_self,Equiv.swap_apply_left]
    · rw [Function.update_of_ne first,Equiv.swap_apply_of_ne_of_ne first second]

theorem rearranged_refl : Rearranged n a a := ⟨Equiv.refl Nat,fun _ _ => rfl,fun _ => rfl⟩

theorem rearranged_trans (first : Rearranged n a b) (second : Rearranged n b c) : Rearranged n a c := by
  obtain ⟨σ,outside,moved⟩ := first
  obtain ⟨τ,outside',moved'⟩ := second
  refine ⟨τ.trans σ,fun i bound => ?_,fun i => ?_⟩
  · rw [Equiv.trans_apply,outside' i bound,outside i bound]
  · rw [moved' i,moved (τ i),Equiv.trans_apply]

theorem rearranged_swap {i j : Nat} (first : i < n) (second : j < n) : Rearranged n a (swap a i j) := by
  refine ⟨Equiv.swap i j,fun k bound => Equiv.swap_apply_of_ne_of_ne ?_ ?_,swap_apply i j⟩ <;> omega

theorem rearranged_mono {m : Nat} (rearranged : Rearranged n a b) (more : n ≤ m) : Rearranged m a b := by
  obtain ⟨σ,outside,moved⟩ := rearranged
  exact ⟨σ,fun i bound => outside i (more.trans bound),moved⟩

theorem rearranged_outside (rearranged : Rearranged n a b) {i : Nat} (outside : n ≤ i) : b i = a i := by
  obtain ⟨σ,fixed,moved⟩ := rearranged
  rw [moved i,fixed i outside]

theorem rearranged_source (rearranged : Rearranged n a b) {i : Nat} (inside : i < n) :
    ∃ j < n, b i = a j := by
  obtain ⟨σ,fixed,moved⟩ := rearranged
  refine ⟨σ i,?_,moved i⟩
  by_contra out
  have back := σ.injective (fixed (σ i) (Nat.le_of_not_lt out))
  omega

theorem rearranged_perm (rearranged : Rearranged n a b) : (contents b n).Perm (contents a n) := by
  obtain ⟨σ,fixed,moved⟩ := rearranged
  have image : contents b n = ((List.range n).map σ).map a := by
    rw [contents,List.map_map]
    exact List.map_congr_left fun i _ => moved i
  rw [image,contents]
  apply List.Perm.map
  rw [List.perm_ext_iff_of_nodup (List.Nodup.map σ.injective List.nodup_range) List.nodup_range]
  intro i
  rw [List.mem_map,List.mem_range]
  constructor
  · rintro ⟨j,inside,rfl⟩
    rw [List.mem_range] at inside
    by_contra out
    have back := σ.injective (fixed (σ j) (Nat.le_of_not_lt out))
    omega
  · intro inside
    refine ⟨σ.symm i,?_,σ.apply_symm_apply i⟩
    rw [List.mem_range]
    by_contra out
    have fixedHere := fixed (σ.symm i) (Nat.le_of_not_lt out)
    rw [σ.apply_symm_apply] at fixedHere
    omega

theorem ordered_pairwise {r : α → α → Prop} (ordered : Ordered r a n) : (contents a n).Pairwise r := by
  rw [contents,List.pairwise_map]
  refine List.pairwise_lt_range.imp_of_mem ?_
  intro i j _ inside less
  exact ordered i j less (List.mem_range.mp inside)

theorem ordered_unique {r : α → α → Prop} [Std.Antisymm r] (first : Ordered r b n) (second : Ordered r c n)
    (same : (contents b n).Perm (contents c n)) : contents b n = contents c n :=
  List.Perm.eq_of_pairwise (fun _ _ _ _ less more => antisymm_of r less more) (ordered_pairwise first)
    (ordered_pairwise second) same

section Down

variable {r : α → α → Prop} {pass : Nat → (Nat → α) → Nat → α}

/-- `for(; i >= 1; i--)` over an array. -/
def countDown (pass : Nat → (Nat → α) → Nat → α) : Nat → (Nat → α) → Nat → α
  | 0,a => a
  | i+1,a => countDown pass i (pass (i+1) a)

/-- A pass brings the last of the first items to its place. -/
def Selects (r : α → α → Prop) (pass : Nat → (Nat → α) → Nat → α) : Prop :=
  ∀ i a, Rearranged (i+1) a (pass i a) ∧ ∀ j < i, r (pass i a j) (pass i a i)

theorem countDown_ordered (selects : Selects r pass) {i : Nat} (inside : i < n)
    (done : ∀ p q, p < q → i < q → q < n → r (a p) (a q)) :
    Rearranged n a (countDown pass i a) ∧ Ordered r (countDown pass i a) n := by
  induction i generalizing a with
  | zero => exact ⟨rearranged_refl,fun p q less bound => done p q less (Nat.zero_lt_of_lt less) bound⟩
  | succ i ih =>
    obtain ⟨moved,last⟩ := selects (i+1) a
    have next : ∀ p q, p < q → i < q → q < n → r (pass (i+1) a p) (pass (i+1) a q) := by
      intro p q less above bound
      rcases Nat.eq_or_lt_of_le above with rfl | behind
      · exact last p less
      · rw [rearranged_outside moved behind]
        by_cases inFront : p < i+1+1
        · obtain ⟨source,front,same⟩ := rearranged_source moved inFront
          rw [same]
          exact done source q (by omega) behind bound
        · rw [rearranged_outside moved (Nat.le_of_not_lt inFront)]
          exact done p q less behind bound
    obtain ⟨movedLater,ordered⟩ := ih (Nat.lt_of_succ_lt inside) next
    exact ⟨rearranged_trans (rearranged_mono moved inside) movedLater,ordered⟩

end Down

end MoCodes.Lib.Sorting
