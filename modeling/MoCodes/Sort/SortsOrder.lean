import MoCodes.Sort.MoSort
import Mathlib.Data.Int.Order.Basic
import Mathlib.Algebra.Group.Nat.Defs
import Mathlib.Algebra.Group.Int.Defs

/-! Each loop of moSort.c leaves the array rearranged and in order, up to the length from
which an int no longer holds the last index. -/
namespace MoCodes.Sort
open MoCodes.Lib.Sorting

section Passes

variable {r : Int → Int → Prop} [IsLinearOrder Int r] {test : Int → Int → Prop} [DecidableRel test]
  (strict : ∀ x y, test x y ↔ ¬r x y)
include strict

theorem selectFrom_last {pArray : IntArray} {i j : Nat} (below : j ≤ i) {selected : Int × Nat}
    (value : selected.1 = pArray selected.2) (place : selected.2 ≤ i)
    (last : ∀ p, j ≤ p → p ≤ i → r (pArray p) selected.1) :
    let result := selectFrom test pArray j selected
    result.1 = pArray result.2 ∧ result.2 ≤ i ∧ ∀ p ≤ i, r (pArray p) result.1 := by
  induction j generalizing selected with
  | zero => exact ⟨value,place,fun p bound => last p (Nat.zero_le p) bound⟩
  | succ j ih =>
    rw [selectFrom]
    split
    · rename_i beyond
      have more : r selected.1 (pArray j) := (total_of r _ _).resolve_left ((strict _ _).mp beyond)
      apply ih (by omega) rfl (by omega)
      intro p above bound
      rcases Nat.eq_or_lt_of_le above with rfl | behind
      · exact refl_of r _
      · exact trans_of r (last p behind bound) more
    · rename_i within
      have less : r (pArray j) selected.1 := by_contra fun more => within ((strict _ _).mpr more)
      apply ih (by omega) value place
      intro p above bound
      rcases Nat.eq_or_lt_of_le above with rfl | behind
      · exact less
      · exact last p behind bound

theorem selectPass_selects : Selects r (selectPass test) := by
  intro i pArray
  have start : ∀ p, i ≤ p → p ≤ i → r (pArray p) (pArray i) := by
    intro p above bound
    rw [Nat.le_antisymm bound above]
    exact refl_of r _
  have itself : (pArray i,i).1 = pArray (pArray i,i).2 := rfl
  obtain ⟨value,place,last⟩ := selectFrom_last strict (Nat.le_refl i) itself (Nat.le_refl i) start
  have moved : Rearranged (i+1) pArray (selectPass test i pArray) := by
    rw [selectPass]
    split
    · exact rearranged_swap (Nat.lt_succ_self i) (Nat.lt_succ_of_le place)
    · exact rearranged_refl
  have atEnd : selectPass test i pArray i = (selectFrom test pArray i (pArray i,i)).1 := by
    rw [selectPass,value]
    split
    · rw [swap_apply,Equiv.swap_apply_left]
    · rename_i same
      rw [not_not.mp same]
  refine ⟨moved,fun j front => ?_⟩
  obtain ⟨source,inside,same⟩ := rearranged_source moved (by omega : j < i+1)
  rw [same,atEnd]
  exact last source (Nat.le_of_lt_succ inside)

theorem bubblePass_selects : Selects r (bubblePass test) := by
  intro i pArray
  rw [bubblePass]
  induction i with
  | zero => exact ⟨rearranged_refl,fun j front => absurd front (Nat.not_lt_zero j)⟩
  | succ i ih =>
    obtain ⟨moved,last⟩ := ih
    rw [List.range_succ,List.foldl_append,List.foldl_cons,List.foldl_nil]
    generalize (List.range i).foldl _ pArray = before at moved last ⊢
    have more := rearranged_mono moved (Nat.le_succ (i+1))
    split
    · rename_i beyond
      have less : r (before (i+1)) (before i) := (total_of r _ _).resolve_left ((strict _ _).mp beyond)
      refine ⟨rearranged_trans more (rearranged_swap (by omega) (by omega)),fun j front => ?_⟩
      rw [swap_apply,swap_apply,Equiv.swap_apply_right]
      rcases Nat.eq_or_lt_of_le (Nat.le_of_lt_succ front) with rfl | earlier
      · rwa [Equiv.swap_apply_left]
      · rw [Equiv.swap_apply_of_ne_of_ne (by omega) (by omega)]
        exact last j earlier
    · rename_i within
      have less : r (before i) (before (i+1)) := by_contra fun above => within ((strict _ _).mpr above)
      refine ⟨more,fun j front => ?_⟩
      rcases Nat.eq_or_lt_of_le (Nat.le_of_lt_succ front) with rfl | earlier
      · exact less
      · exact trans_of r (last j earlier) less

end Passes

section Insertion

theorem shift_apply (k j m : Nat) (pArray : IntArray) :
    shift k j pArray m = if k < m ∧ m ≤ j then pArray (m-1) else pArray m := by
  induction j generalizing pArray with
  | zero =>
    rw [shift,if_neg (by omega)]
  | succ j ih =>
    rw [shift]
    by_cases more : j+1 > k
    · rw [if_pos more,ih]
      by_cases inside : k < m ∧ m ≤ j
      · rw [if_pos inside,if_pos ⟨inside.1,by omega⟩,Function.update_of_ne (by omega)]
      · rw [if_neg inside]
        by_cases last : m = j+1
        · subst last
          rw [Function.update_self,if_pos ⟨more,Nat.le_refl _⟩,Nat.add_sub_cancel]
        · rw [Function.update_of_ne last,if_neg (by omega)]
    · rw [if_neg more,if_neg (by omega)]

theorem shift_rearranged {n k j : Nat} (below : k ≤ j) (inside : j < n) {value : Int} {first pArray : IntArray}
    (moved : Rearranged n first (Function.update pArray j value)) :
    Rearranged n first (Function.update (shift k j pArray) k value) := by
  induction j generalizing pArray with
  | zero =>
    obtain rfl : k = 0 := Nat.le_zero.mp below
    exact moved
  | succ j ih =>
    rw [shift]
    rcases Nat.eq_or_lt_of_le below with rfl | more
    · rw [if_neg (Nat.lt_irrefl _)]
      exact moved
    · rw [if_pos more]
      apply ih (Nat.le_of_lt_succ more) (Nat.lt_of_succ_lt inside)
      have step : Function.update (Function.update pArray (j+1) (pArray j)) j value =
          swap (Function.update pArray (j+1) value) j (j+1) := by
        funext m
        by_cases hole : m = j
        · simp [swap,hole]
        · by_cases above : m = j+1 <;> simp [swap,hole,above]
      rw [step]
      exact rearranged_trans moved (rearranged_swap (by omega) inside)

variable {i k : Nat} {pArray : IntArray}

theorem insertAt_apply (m : Nat) : insertAt i k pArray m =
    if m = k then pArray (i+1) else if k < m ∧ m ≤ i+1 then pArray (m-1) else pArray m := by
  rw [insertAt]
  by_cases here : m = k
  · rw [if_pos here,here,Function.update_self]
  · rw [if_neg here,Function.update_of_ne here,shift_apply]

theorem insertAt_rearranged (below : k ≤ i) : Rearranged (i+2) pArray (insertAt i k pArray) := by
  apply shift_rearranged (by omega) (by omega)
  rw [Function.update_eq_self]
  exact rearranged_refl

variable {r : Int → Int → Prop} [IsLinearOrder Int r]

theorem insertAt_ordered (below : k ≤ i) (ordered : Ordered r pArray (i+1))
    (front : ∀ p < k, ¬r (pArray (i+1)) (pArray p)) (back : r (pArray (i+1)) (pArray k)) :
    Ordered r (insertAt i k pArray) (i+2) := by
  have weak : ∀ p q, p ≤ q → q < i+1 → r (pArray p) (pArray q) := by
    intro p q less bound
    rcases Nat.eq_or_lt_of_le less with rfl | strict
    · exact refl_of r _
    · exact ordered p q strict bound
  intro p q less bound
  rw [insertAt_apply,insertAt_apply]
  rcases Nat.lt_trichotomy q k with before | rfl | after
  · rw [if_neg (by omega),if_neg (by omega),if_neg (by omega),if_neg (by omega)]
    exact ordered p q less (by omega)
  · rw [if_neg (by omega),if_neg (by omega),if_pos rfl]
    exact (total_of r _ _).resolve_right (front p less)
  · rw [if_neg (by omega : ¬q = k),if_pos (by omega : k < q ∧ q ≤ i+1)]
    rcases Nat.lt_trichotomy p k with before | rfl | behind
    · rw [if_neg (by omega),if_neg (by omega)]
      exact weak p (q-1) (by omega) (by omega)
    · rw [if_pos rfl]
      exact trans_of r back (weak p (q-1) (by omega) (by omega))
    · rw [if_neg (by omega),if_pos (by omega)]
      exact weak (p-1) (q-1) (by omega) (by omega)

theorem insertAt_same (below : k ≤ i) (ordered : Ordered r pArray (i+2)) (back : r (pArray (i+1)) (pArray k)) :
    insertAt i k pArray = pArray := by
  have equal : ∀ p, k ≤ p → p ≤ i+1 → pArray p = pArray k := by
    intro p above bound
    rcases Nat.eq_or_lt_of_le above with rfl | behind
    · rfl
    · apply antisymm_of r _ (ordered k p behind (by omega))
      rcases Nat.eq_or_lt_of_le bound with rfl | inside
      · exact back
      · exact trans_of r (ordered p (i+1) inside (by omega)) back
  funext m
  rw [insertAt_apply]
  split
  · rename_i here
    rw [here,equal (i+1) (by omega) (Nat.le_refl _)]
  · split
    · rename_i inside
      rw [equal (m-1) (by omega) (by omega),equal m (by omega) inside.2]
    · rfl

variable [DecidableRel r]

/-- Over the pass the item is either still behind all it was compared with, or in its place. -/
theorem insertPass_ordered (ordered : Ordered r pArray (i+1)) :
    Rearranged (i+2) pArray (insertPass r i pArray) ∧ Ordered r (insertPass r i pArray) (i+2) := by
  have pass : ∀ m ≤ i+1, ∀ after, after = (List.range m).foldl (fun pArray k =>
        if r (pArray (i+1)) (pArray k) then insertAt i k pArray else pArray) pArray →
      Rearranged (i+2) pArray after ∧
        (Ordered r after (i+1) ∧ (∀ p < m, ¬r (after (i+1)) (after p)) ∨ Ordered r after (i+2)) := by
    intro m bound
    induction m with
    | zero =>
      rintro _ rfl
      exact ⟨rearranged_refl,.inl ⟨ordered,fun p none => absurd none (Nat.not_lt_zero p)⟩⟩
    | succ m ih =>
      intro after same
      rw [List.range_succ,List.foldl_append,List.foldl_cons,List.foldl_nil] at same
      obtain ⟨moved,state⟩ := ih (by omega) _ rfl
      generalize (List.range m).foldl _ pArray = before at same moved state
      subst same
      split
      · rename_i goes
        refine ⟨rearranged_trans moved (insertAt_rearranged (by omega)),.inr ?_⟩
        rcases state with ⟨still,behind⟩ | placed
        · exact insertAt_ordered (by omega) still behind goes
        · rwa [insertAt_same (by omega) placed goes]
      · rename_i stays
        refine ⟨moved,?_⟩
        rcases state with ⟨still,behind⟩ | placed
        · refine .inl ⟨still,fun p front => ?_⟩
          rcases Nat.eq_or_lt_of_le (Nat.le_of_lt_succ front) with rfl | earlier
          · exact stays
          · exact behind p earlier
        · exact .inr placed
  obtain ⟨moved,state⟩ := pass (i+1) (Nat.le_refl _) _ rfl
  refine ⟨moved,?_⟩
  rcases state with ⟨still,behind⟩ | placed
  · intro p q less bound
    rcases Nat.eq_or_lt_of_le (Nat.le_of_lt_succ bound) with rfl | inside
    · exact (total_of r _ _).resolve_right (behind p less)
    · exact still p q less inside
  · exact placed

theorem directInsert_ordered (n : Nat) :
    Rearranged n pArray (directInsert r pArray n) ∧ Ordered r (directInsert r pArray n) n := by
  have pass : ∀ m, Rearranged (m+1) pArray ((List.range m).foldl (fun pArray i => insertPass r i pArray) pArray) ∧
      Ordered r ((List.range m).foldl (fun pArray i => insertPass r i pArray) pArray) (m+1) := by
    intro m
    induction m with
    | zero => exact ⟨rearranged_refl,fun p q less bound => by omega⟩
    | succ m ih =>
      rw [List.range_succ,List.foldl_append,List.foldl_cons,List.foldl_nil]
      obtain ⟨moved,ordered⟩ := insertPass_ordered ih.2
      exact ⟨rearranged_trans (rearranged_mono ih.1 (Nat.le_succ _)) moved,ordered⟩
  cases n with
  | zero => exact ⟨rearranged_refl,fun p q less bound => absurd bound (Nat.not_lt_zero q)⟩
  | succ m => exact pass m

end Insertion

section Lengths

variable {arrayLength : UInt32}

theorem pred_toNat (more : 1 ≤ arrayLength.toNat) : (arrayLength-1).toNat = arrayLength.toNat-1 := by
  rw [UInt32.toNat_sub_of_le]
  · rfl
  · rwa [UInt32.le_iff_toNat_le]

theorem lastIndex_small (more : 1 ≤ arrayLength.toNat) (fits : arrayLength.toNat ≤ 2^31) :
    lastIndex arrayLength = arrayLength.toNat-1 := by
  have value : (arrayLength-1).toBitVec.toNat = arrayLength.toNat-1 := pred_toNat more
  rw [lastIndex,toInt,BitVec.toInt_eq_toNat_cond,value,if_pos (by omega)]
  rfl

/-- From 2^31+1 items on the last index is a negative int. -/
theorem lastIndex_large (large : 2^31 < arrayLength.toNat) : lastIndex arrayLength = 0 := by
  have value : (arrayLength-1).toBitVec.toNat = arrayLength.toNat-1 := pred_toNat (by omega)
  have bound := arrayLength.toNat_lt
  rw [lastIndex,toInt,BitVec.toInt_eq_toNat_cond,value,if_neg (by omega)]
  omega

end Lengths

def MOSORT_DST_SEQUENCE.order : MOSORT_DST_SEQUENCE → Int → Int → Prop
  | .MOSORT_DST_SEQUENCE_L2B => (· ≤ ·)
  | .MOSORT_DST_SEQUENCE_B2L => (· ≥ ·)

instance (seq : MOSORT_DST_SEQUENCE) : IsLinearOrder Int seq.order := by
  cases seq
  · exact inferInstanceAs (IsLinearOrder Int (· ≤ ·))
  · exact inferInstanceAs (IsLinearOrder Int (· ≥ ·))

/-- The function succeeds and leaves the items of the array, and nothing behind it, changed to
a permutation in the direction. -/
def Sorts (sort : Option IntArray → UInt32 → Int → Int × Option IntArray) (pArray : IntArray)
    (arrayLength : UInt32) (seq : MOSORT_DST_SEQUENCE) : Prop :=
  ∃ after, sort (some pArray) arrayLength seq.value = (0,some after) ∧
    (contents after arrayLength.toNat).Perm (contents pArray arrayLength.toNat) ∧
    (∀ i ≥ arrayLength.toNat, after i = pArray i) ∧ Ordered seq.order after arrayLength.toNat

theorem sorts_of {sort : Option IntArray → UInt32 → Int → Int × Option IntArray} {pArray after : IntArray}
    {arrayLength : UInt32} {seq : MOSORT_DST_SEQUENCE}
    (returned : sort (some pArray) arrayLength seq.value = (0,some after))
    (result : Rearranged arrayLength.toNat pArray after ∧ Ordered seq.order after arrayLength.toNat) :
    Sorts sort pArray arrayLength seq :=
  ⟨after,returned,rearranged_perm result.1,fun _ outside => rearranged_outside result.1 outside,result.2⟩

section Frame

variable {sortL2B sortB2L : IntArray → UInt32 → IntArray} {pArray : IntArray} {arrayLength : UInt32}

theorem short_ordered (short : arrayLength.toNat ≤ 1) (r : Int → Int → Prop) :
    Ordered r pArray arrayLength.toNat := fun i j less bound => by omega

theorem sortWith_short (short : arrayLength ≤ 1) (seq : Int) :
    sortWith sortL2B sortB2L (some pArray) arrayLength seq = (0,some pArray) := if_pos short

theorem sortWith_long (long : ¬arrayLength ≤ 1) (seq : MOSORT_DST_SEQUENCE) :
    sortWith sortL2B sortB2L (some pArray) arrayLength seq.value = (0,some (match seq with
      | .MOSORT_DST_SEQUENCE_L2B => sortL2B pArray arrayLength
      | .MOSORT_DST_SEQUENCE_B2L => sortB2L pArray arrayLength)) := by
  simp only [sortWith,if_neg long]
  cases seq <;> rfl

theorem sorts_short (short : arrayLength ≤ 1) (seq : MOSORT_DST_SEQUENCE) :
    Sorts (sortWith sortL2B sortB2L) pArray arrayLength seq :=
  sorts_of (sortWith_short short seq.value)
    ⟨rearranged_refl,short_ordered (UInt32.le_iff_toNat_le.mp short) seq.order⟩

end Frame

section Lengths

variable {arrayLength : UInt32} (pArray : IntArray) (seq : MOSORT_DST_SEQUENCE)

theorem moSort_directInsertSort_sorts : Sorts moSort_directInsertSort pArray arrayLength seq := by
  by_cases short : arrayLength ≤ 1
  · exact sorts_short short seq
  · refine sorts_of (sortWith_long short seq) ?_
    cases seq
    · exact directInsert_ordered (r := (· ≤ ·)) arrayLength.toNat
    · exact directInsert_ordered (r := (· ≥ ·)) arrayLength.toNat

theorem countDown_sorts {r : Int → Int → Prop} {pass : Nat → IntArray → IntArray} (selects : Selects r pass)
    (long : ¬arrayLength ≤ 1) (fits : arrayLength.toNat ≤ 2^31) :
    let after := countDown pass (lastIndex arrayLength) pArray
    Rearranged arrayLength.toNat pArray after ∧ Ordered r after arrayLength.toNat := by
  rw [UInt32.le_iff_toNat_le] at long
  have more : 1 < arrayLength.toNat := Nat.lt_of_not_le long
  rw [lastIndex_small more.le fits]
  exact countDown_ordered selects (by omega) fun p q less above bound => by omega

theorem moSort_selectSort_sorts (fits : arrayLength.toNat ≤ 2^31) :
    Sorts moSort_selectSort pArray arrayLength seq := by
  by_cases short : arrayLength ≤ 1
  · exact sorts_short short seq
  · refine sorts_of (sortWith_long short seq) ?_
    cases seq
    · exact countDown_sorts pArray (selectPass_selects fun x y => Int.not_le.symm) short fits
    · exact countDown_sorts pArray (selectPass_selects fun x y => Int.not_le.symm) short fits

theorem moSort_bubbleSort_sorts (fits : arrayLength.toNat ≤ 2^31) :
    Sorts moSort_bubbleSort pArray arrayLength seq := by
  by_cases short : arrayLength ≤ 1
  · exact sorts_short short seq
  · refine sorts_of (sortWith_long short seq) ?_
    cases seq
    · exact countDown_sorts pArray (bubblePass_selects fun x y => Int.not_le.symm) short fits
    · exact countDown_sorts pArray (bubblePass_selects fun x y => Int.not_le.symm) short fits

/-- A loop that starts below 1 leaves the array as it is. -/
theorem sortWith_large {passL2B passB2L : Nat → IntArray → IntArray} (large : 2^31 < arrayLength.toNat) :
    sortWith (fun pArray arrayLength => countDown passL2B (lastIndex arrayLength) pArray)
      (fun pArray arrayLength => countDown passB2L (lastIndex arrayLength) pArray) (some pArray) arrayLength
        seq.value = (0,some pArray) := by
  have long : ¬arrayLength ≤ 1 := by
    rw [UInt32.le_iff_toNat_le,Nat.not_le]
    exact Nat.lt_trans (by decide) large
  rw [sortWith_long long,lastIndex_large large]
  cases seq <;> rfl

end Lengths

def Agree (pArray : IntArray) (arrayLength : UInt32) (seq : MOSORT_DST_SEQUENCE) : Prop :=
  ∃ inserted selected bubbled,
    moSort_directInsertSort (some pArray) arrayLength seq.value = (0,some inserted) ∧
    moSort_selectSort (some pArray) arrayLength seq.value = (0,some selected) ∧
    moSort_bubbleSort (some pArray) arrayLength seq.value = (0,some bubbled) ∧
    contents inserted arrayLength.toNat = contents selected arrayLength.toNat ∧
    contents selected arrayLength.toNat = contents bubbled arrayLength.toNat

theorem agree_of_sorts {pArray : IntArray} {arrayLength : UInt32} {seq : MOSORT_DST_SEQUENCE}
    (insertion : Sorts moSort_directInsertSort pArray arrayLength seq)
    (selection : Sorts moSort_selectSort pArray arrayLength seq)
    (bubble : Sorts moSort_bubbleSort pArray arrayLength seq) : Agree pArray arrayLength seq := by
  obtain ⟨inserted,returned,perm,_,ordered⟩ := insertion
  obtain ⟨selected,returned',perm',_,ordered'⟩ := selection
  obtain ⟨bubbled,returned'',perm'',_,ordered''⟩ := bubble
  exact ⟨inserted,selected,bubbled,returned,returned',returned'',
    ordered_unique ordered ordered' (perm.trans perm'.symm),
    ordered_unique ordered' ordered'' (perm'.trans perm''.symm)⟩

/-- The three functions sort, and so agree, exactly where the last index is an int or there is
nothing to do. -/
theorem sorts_iff (pArray : IntArray) (arrayLength : UInt32) (seq : MOSORT_DST_SEQUENCE) :
    (Sorts moSort_directInsertSort pArray arrayLength seq ∧ Sorts moSort_selectSort pArray arrayLength seq ∧
        Sorts moSort_bubbleSort pArray arrayLength seq ∧ Agree pArray arrayLength seq) ↔
      (arrayLength.toNat ≤ 2^31 ∨ Ordered seq.order pArray arrayLength.toNat) := by
  constructor
  · intro ⟨_,⟨after,returned,_,_,ordered⟩,_⟩
    refine or_iff_not_imp_left.mpr fun large => ?_
    have unchanged : moSort_selectSort (some pArray) arrayLength seq.value = (0,some pArray) :=
      sortWith_large pArray seq (Nat.lt_of_not_le large)
    cases returned.symm.trans unchanged
    exact ordered
  · intro condition
    have insertion : Sorts moSort_directInsertSort pArray arrayLength seq :=
      moSort_directInsertSort_sorts pArray seq
    by_cases fits : arrayLength.toNat ≤ 2^31
    · have selection := moSort_selectSort_sorts pArray seq fits
      have bubble := moSort_bubbleSort_sorts pArray seq fits
      exact ⟨insertion,selection,bubble,agree_of_sorts insertion selection bubble⟩
    · have ordered := condition.resolve_left fits
      have large := Nat.lt_of_not_le fits
      have selection : Sorts moSort_selectSort pArray arrayLength seq :=
        sorts_of (sortWith_large pArray seq large) ⟨rearranged_refl,ordered⟩
      have bubble : Sorts moSort_bubbleSort pArray arrayLength seq :=
        sorts_of (sortWith_large pArray seq large) ⟨rearranged_refl,ordered⟩
      exact ⟨insertion,selection,bubble,agree_of_sorts insertion selection bubble⟩

/-- 2^31+1 items, from little to big: 1, 0, 0 and so on. -/
theorem select_unsorted : ¬Sorts moSort_selectSort (fun i => if i = 0 then 1 else 0) 2147483649
    .MOSORT_DST_SEQUENCE_L2B := by
  intro ⟨after,returned,_,_,ordered⟩
  have unchanged : moSort_selectSort (some fun i => if i = 0 then 1 else 0) 2147483649
      MOSORT_DST_SEQUENCE.MOSORT_DST_SEQUENCE_L2B.value = (0,some fun i => if i = 0 then 1 else 0) :=
    sortWith_large _ .MOSORT_DST_SEQUENCE_L2B (by decide)
  cases returned.symm.trans unchanged
  have wrong : (1 : Int) ≤ 0 := ordered 0 1 Nat.one_pos (by decide)
  exact absurd wrong (by decide)

end MoCodes.Sort
