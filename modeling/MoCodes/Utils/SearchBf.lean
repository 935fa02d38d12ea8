import MoCodes.Utils.Search

/-! The brute-force search finds the first occurrence, and so does every scan that stops
there and passes over none. -/
namespace MoCodes.Utils.Search
open MoCodes.Lib.Loop MoCodes.Lib.Matching

theorem u32_of_lt {n : Nat} (bound : n < 2^32) : u32 n = n := Nat.mod_eq_of_lt bound

theorem mismatch_none {pSrc pPattern : Bytes} {patternLen i : Nat} :
    mismatch pSrc pPattern patternLen i = none ↔ OccursAt pSrc pPattern patternLen i := by
  unfold mismatch OccursAt
  rw [range_search_none]
  simp

theorem mismatch_some {pSrc pPattern : Bytes} {patternLen i j : Nat} :
    mismatch pSrc pPattern patternLen i = some j ↔
      j < patternLen ∧ pSrc (i+j) ≠ pPattern j ∧ ∀ k < j, pSrc (i+k) = pPattern k := by
  unfold mismatch
  rw [range_search]
  simp

theorem mismatch_not_occurs {pSrc pPattern : Bytes} {patternLen i j : Nat}
    (broke : mismatch pSrc pPattern patternLen i = some j) : ¬ OccursAt pSrc pPattern patternLen i := by
  intro occurs
  have whole := mismatch_none.mpr occurs
  rw [broke] at whole
  cases whole

theorem checkLen_none {srcLen patternLen : Nat} :
    checkLen srcLen patternLen = none ↔ 0 < patternLen ∧ patternLen ≤ srcLen := by
  unfold checkLen
  split
  · simp only [reduceCtorEq,false_iff]
    omega
  · split <;> simp only [reduceCtorEq,false_iff,true_iff] <;> omega

theorem searchBF_first {pSrc pPattern : Bytes} {srcLen patternLen i : Nat}
    (checked : checkLen srcLen patternLen = none)
    (first : FirstAt pSrc pPattern patternLen (srcLen-patternLen) i) :
    searchBF pSrc srcLen pPattern patternLen = toInt i := by
  have found : (List.range (srcLen-patternLen+1)).find? (fun offset =>
      (mismatch pSrc pPattern patternLen offset).isNone) = some i := by
    apply range_search.mpr
    refine ⟨Nat.lt_succ_of_le first.1,?_,fun j below => ?_⟩
    · rw [mismatch_none.mpr first.2.1]
      rfl
    · by_contra none_at
      have whole := Option.isNone_iff_eq_none.mp (by simpa using none_at)
      exact first.2.2 j below (mismatch_none.mp whole)
  simp only [searchBF,checked,found]

theorem searchBF_absent {pSrc pPattern : Bytes} {srcLen patternLen : Nat}
    (checked : checkLen srcLen patternLen = none)
    (absent : Absent pSrc pPattern patternLen (srcLen-patternLen)) :
    searchBF pSrc srcLen pPattern patternLen = errPatNotExist := by
  have found : (List.range (srcLen-patternLen+1)).find? (fun offset =>
      (mismatch pSrc pPattern patternLen offset).isNone) = none := by
    apply range_search_none.mpr
    intro j below
    by_contra none_at
    have whole := Option.isNone_iff_eq_none.mp (by simpa using none_at)
    exact absent j (Nat.le_of_lt_succ below) (mismatch_none.mp whole)
  simp only [searchBF,checked,found]

/-- Any scan that stops at the first occurrence, or reports that there is none, gives the
brute-force result. -/
theorem scan_agrees {pSrc pPattern : Bytes} {srcLen patternLen : Nat} {body : Nat → Outcome Nat Int}
    (checked : checkLen srcLen patternLen = none)
    (within : ∀ i ≤ srcLen-patternLen,
      (OccursAt pSrc pPattern patternLen i ∧ body i = .done (toInt i)) ∨
        ∃ s, SafeShift pSrc pPattern patternLen (srcLen-patternLen) i s ∧ body i = .next (i+s))
    (beyond : ∀ i, srcLen-patternLen < i → body i = .done errPatNotExist)
    {result : Int} (ok : Returns body 0 result) : result = searchBF pSrc srcLen pPattern patternLen := by
  rcases scan_first within beyond ok with ⟨i,first,same⟩ | ⟨absent,same⟩
  · rw [searchBF_first checked first,same]
  · rw [searchBF_absent checked absent,same]

theorem search_agrees {pSrc pPattern : Bytes} {srcLen patternLen : Nat} {body : Nat → Outcome Nat Int}
    {result : Int}
    (scan : checkLen srcLen patternLen = none → Returns body 0 result →
      result = searchBF pSrc srcLen pPattern patternLen)
    (ok : match checkLen srcLen patternLen with
      | some err => result = err
      | none => Returns body 0 result) : result = searchBF pSrc srcLen pPattern patternLen := by
  cases checked : checkLen srcLen patternLen with
  | some err =>
    rw [checked] at ok
    simp only [searchBF,checked,ok]
  | none =>
    rw [checked] at ok
    exact scan checked ok

end MoCodes.Utils.Search
