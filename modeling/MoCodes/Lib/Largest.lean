import Mathlib.Data.List.Sort

/-! The elements of a list with the largest keys, and what a window keeps of them that gives up
its least element for each new one. -/
namespace MoCodes.Lib.Largest

variable {α κ : Type} [LinearOrder κ] (key : α → κ)

def descending (l : List α) : List α := l.insertionSort fun first second => key second ≤ key first

def largest (count : Nat) (l : List α) : List α := (descending key l).take count

theorem descending_perm (l : List α) : (descending key l).Perm l := List.perm_insertionSort _ l

theorem largest_length (count : Nat) (l : List α) : (largest key count l).length = min count l.length := by
  rw [largest,List.length_take,(descending_perm key l).length_eq]

theorem largest_all {count : Nat} {l : List α} (short : l.length ≤ count) : (largest key count l).Perm l := by
  rw [largest,List.take_of_length_le (by rwa [(descending_perm key l).length_eq])]
  exact descending_perm key l

/-- What is put in behind the first ones does not count for them. -/
theorem take_orderedInsert {r : α → α → Prop} [DecidableRel r] (x : α) (s : List α) (count : Nat) :
    (s.orderedInsert r x).take count = ((s.take count).orderedInsert r x).take count := by
  induction s generalizing count with
  | nil => rw [List.take_nil]
  | cons first s ih =>
    cases count with
    | zero => rw [List.take_zero,List.take_zero]
    | succ count =>
      rw [List.take_succ_cons,List.orderedInsert_cons,List.orderedInsert_cons]
      split
      · rw [List.take_succ_cons,List.take_succ_cons]
        cases count with
        | zero => rfl
        | succ count => rw [List.take_succ_cons,List.take_succ_cons,List.take_take,Nat.min_eq_left (Nat.le_succ count)]
      · rw [List.take_succ_cons,List.take_succ_cons,ih]

instance descendingTotal : Std.Total fun first second : α => key second ≤ key first := ⟨fun _ _ => le_total _ _⟩

instance descendingTrans : IsTrans α fun first second => key second ≤ key first := ⟨fun _ _ _ front back => le_trans back front⟩

theorem descending_sorted (l : List α) : (descending key l).Pairwise fun first second => key second ≤ key first :=
  List.pairwise_insertionSort _ l

theorem descending_largest (count : Nat) (l : List α) : descending key (largest key count l) = largest key count l :=
  ((descending_sorted key l).sublist (List.take_sublist count _)).insertionSort_eq

section Distinct

variable {key} {l : List α}

theorem descending_strict (distinct : (l.map key).Nodup) :
    (descending key l).Pairwise fun first second => key second < key first := by
  have apart : (descending key l).Pairwise fun first second => key first ≠ key second :=
    List.pairwise_map.mp (((descending_perm key l).map key).nodup_iff.mpr distinct)
  exact (descending_sorted key l).imp₂ (fun _ _ below differ => lt_of_le_of_ne below differ.symm) apart

/-- Without equal keys there is one order to sort in. -/
theorem descending_concat {x : α} (distinct : ((l ++ [x]).map key).Nodup) :
    descending key (l ++ [x]) = (descending key l).orderedInsert (fun first second => key second ≤ key first) x := by
  have other : (descending key l).orderedInsert (fun first second => key second ≤ key first) x =
      descending key (x :: l) := rfl
  have perm : (descending key (l ++ [x])).Perm (descending key (x :: l)) :=
    (descending_perm key _).trans (List.perm_append_singleton x l |>.trans (descending_perm key _).symm)
  have distinct' : ((x :: l).map key).Nodup :=
    ((List.perm_append_singleton x l).map key).nodup_iff.mp distinct
  rw [other]
  refine List.Perm.eq_of_pairwise (fun first second _ _ before after => ?_) (descending_strict distinct)
    (descending_strict distinct') perm
  exact absurd before (lt_asymm after)

/-- Where there are more than enough, a new element in front of the largest leaves one too many, which
is the least of them. -/
theorem largest_concat {x : α} {count : Nat} (enough : count ≤ l.length) (distinct : ((l ++ [x]).map key).Nodup) :
    ∃ least, (x :: largest key count l).Perm (largest key count (l ++ [x]) ++ [least]) ∧
      ∀ kept ∈ largest key count (l ++ [x]), key least < key kept := by
  have distinct' : ((x :: l).map key).Nodup :=
    ((List.perm_append_singleton x l).map key).nodup_iff.mp distinct
  have apart : ((x :: largest key count l).map key).Nodup := by
    have sorted : ((x :: descending key l).map key).Nodup :=
      (((descending_perm key l).cons x).map key).nodup_iff.mpr distinct'
    exact sorted.sublist (((List.take_sublist count _).cons_cons x).map key)
  have front : (descending key (x :: largest key count l)).take count = largest key count (l ++ [x]) := by
    have inserted : descending key (x :: largest key count l) =
        (descending key (largest key count l)).orderedInsert (fun first second => key second ≤ key first) x := rfl
    rw [descending_largest] at inserted
    rw [inserted,largest,largest,descending_concat distinct,← take_orderedInsert]
  have size : (descending key (x :: largest key count l)).length = count+1 := by
    rw [(descending_perm key _).length_eq,List.length_cons,largest_length,Nat.min_eq_left enough]
  have split := List.take_append_drop count (descending key (x :: largest key count l))
  obtain ⟨least,last⟩ := List.length_eq_one_iff.mp
    (show ((descending key (x :: largest key count l)).drop count).length = 1 by rw [List.length_drop,size]; omega)
  rw [front,last] at split
  refine ⟨least,split ▸ (descending_perm key _).symm,fun kept among => ?_⟩
  have strict := descending_strict apart
  rw [← split] at strict
  exact (List.pairwise_append.mp strict).2.2 kept among least List.mem_cons_self

end Distinct

end MoCodes.Lib.Largest
