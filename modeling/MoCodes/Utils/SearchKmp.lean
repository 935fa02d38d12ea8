import MoCodes.Utils.SearchBf

/-! The KMP search never passes over an occurrence: its untruncated shift is the least
one that moves the matched prefix onto itself, and an entry cut to eight bits is only a
smaller shift. -/
namespace MoCodes.Utils.Search
open MoCodes.Lib.Loop MoCodes.Lib.Matching

theorem isBorder_iff {pPattern : Bytes} {i j : Nat} (inside : j ≤ i) :
    isBorder pPattern i j = true ↔ PrefixShift pPattern i (i-j) := by
  unfold isBorder PrefixShift
  simp only [List.all_eq_true,List.mem_range,beq_iff_eq]
  constructor
  · intro border k bound
    rw [border k (by omega)]
    congr 1
    omega
  · intro shift k bound
    rw [shift k (by omega)]
    congr 1
    omega

def kmpShift (pPattern : Bytes) (j : Nat) : Nat := j+1-pmValue pPattern j

theorem pmValue_zero (pPattern : Bytes) : pmValue pPattern 0 = 0 := rfl

theorem pmValue_border (pPattern : Bytes) {i : Nat} (positive : 0 < i) :
    ∃ b < i, pmValue pPattern i = b+1 ∧ PrefixShift pPattern i (i-b) ∧
      ∀ j, b < j → j < i → ¬ PrefixShift pPattern i (i-j) := by
  unfold pmValue
  rw [foldl_last]
  cases longest : (List.range i).findRev? (isBorder pPattern i) with
  | none =>
    have empty := range_search_last_none.mp longest 0 positive
    simp [isBorder] at empty
  | some b =>
    obtain ⟨bound,border,after⟩ := range_search_last.mp longest
    refine ⟨b,bound,rfl,(isBorder_iff (by omega)).mp border,fun j low high shift => ?_⟩
    have longer := (isBorder_iff (by omega)).mpr shift
    rw [after j low high] at longer
    cases longer

theorem kmpShift_least (pPattern : Bytes) (j : Nat) :
    LeastShift (PrefixShift pPattern j) (kmpShift pPattern j) := by
  rcases Nat.eq_zero_or_pos j with rfl | positive
  · rw [kmpShift,pmValue_zero]
    exact least_of (by omega) (fun k bound => by omega) (fun r low high => by omega)
  · obtain ⟨b,bound,value,border,longest⟩ := pmValue_border pPattern positive
    have shift : kmpShift pPattern j = j-b := by rw [kmpShift,value]; omega
    rw [shift]
    refine least_of (by omega) border (fun r low high allowed => ?_)
    have same : j-(j-r) = r := by omega
    exact longest (j-r) (by omega) (by omega) (by rw [same]; exact allowed)

theorem pmValue_le (pPattern : Bytes) (j : Nat) : pmValue pPattern j ≤ j := by
  rcases Nat.eq_zero_or_pos j with rfl | positive
  · exact Nat.le_of_eq (pmValue_zero pPattern)
  · obtain ⟨b,bound,value,_⟩ := pmValue_border pPattern positive
    omega

theorem kmpShift_le (pPattern : Bytes) {j patternLen : Nat} (inside : j < patternLen) :
    kmpShift pPattern j ≤ patternLen := by
  unfold kmpShift
  omega

theorem kmpGenNextArray_toNat (pPmt pNext pPattern : Bytes) {patternLen j : Nat} (inside : j < patternLen) :
    (kmpGenNextArray pPmt pNext pPattern patternLen j).toNat = kmpShift pPattern j % 256 := by
  have stored : kmpGenNextArray pPmt pNext pPattern patternLen j = UInt8.ofNat (kmpShift pPattern j) := by
    simp only [kmpGenNextArray,genKmpNext,genPMT,inside,if_true,kmpShift]
    rw [UInt8.ofNat_sub]
    exact Nat.le_succ_of_le (pmValue_le pPattern j)
  rw [stored,UInt8.toNat_ofNat']

section Kmp

variable {pSrc pPattern pPmt pNext : Bytes} {srcLen patternLen i j : Nat}

theorem kmpBody_beyond (out : srcLen-patternLen < i) :
    kmpBody pSrc srcLen pPattern patternLen pNext i = .done errPatNotExist := by
  unfold kmpBody
  rw [if_neg (by omega)]

theorem kmpBody_found (bound : i ≤ srcLen-patternLen) (occurs : OccursAt pSrc pPattern patternLen i) :
    kmpBody pSrc srcLen pPattern patternLen pNext i = .done (toInt i) := by
  unfold kmpBody
  rw [if_pos bound,mismatch_none.mpr occurs]

variable (pPmt pNext) in
theorem kmpBody_shift (fits : srcLen < 2^32) (checked : checkLen srcLen patternLen = none)
    (bound : i ≤ srcLen-patternLen) (broke : mismatch pSrc pPattern patternLen i = some j) :
    kmpBody pSrc srcLen pPattern patternLen (kmpGenNextArray pPmt pNext pPattern patternLen) i =
      .next (i+kmpShift pPattern j % 256) := by
  have inside := (mismatch_some.mp broke).1
  have lengths := checkLen_none.mp checked
  have small : kmpShift pPattern j % 256 ≤ patternLen :=
    Nat.le_trans (Nat.mod_le _ _) (kmpShift_le pPattern inside)
  unfold kmpBody
  rw [if_pos bound,broke]
  simp only [kmpGenNextArray_toNat pPmt pNext pPattern inside]
  rw [u32_of_lt (by omega)]

theorem kmp_safe (broke : mismatch pSrc pPattern patternLen i = some j) :
    SafeShift pSrc pPattern patternLen (srcLen-patternLen) i (kmpShift pPattern j % 256) := by
  obtain ⟨inside,_,agree⟩ := mismatch_some.mp broke
  apply safe_of_least (kmpShift_least pPattern j)
  · intro r _ occurs
    exact occurs_prefixShift agree (Nat.le_of_lt inside) occurs
  · exact mismatch_not_occurs broke
  · exact Nat.mod_le _ _

end Kmp

theorem searchKMP_eq_searchBF (pSrc pPattern pNext pPmt : Bytes) (srcLen patternLen : Nat)
    (fits : srcLen < 2^31) (result : Int)
    (ok : SearchKMP pSrc srcLen pPattern patternLen (kmpGenNextArray pPmt pNext pPattern patternLen) result) :
    result = searchBF pSrc srcLen pPattern patternLen := by
  refine search_agrees (fun checked scan => ?_) ok
  refine scan_agrees checked (fun i bound => ?_) (fun i out => kmpBody_beyond out) scan
  cases broke : mismatch pSrc pPattern patternLen i with
  | none =>
    have occurs := mismatch_none.mp broke
    exact Or.inl ⟨occurs,kmpBody_found bound occurs⟩
  | some j =>
    exact Or.inr ⟨_,kmp_safe broke,kmpBody_shift pPmt pNext (by omega) checked bound broke⟩

theorem searchKMP_eq_searchBF_baab :
    SearchKMP (bytesOf [98,97,97,98]) 4 (bytesOf [97,98]) 2
      (kmpGenNextArray (bytesOf []) (bytesOf []) (bytesOf [97,98]) 2) 2 ∧
    2 = searchBF (bytesOf [98,97,97,98]) 4 (bytesOf [97,98]) 2 := by
  have ok : SearchKMP (bytesOf [98,97,97,98]) 4 (bytesOf [97,98]) 2
      (kmpGenNextArray (bytesOf []) (bytesOf []) (bytesOf [97,98]) 2) 2 := ⟨3,by decide⟩
  exact ⟨ok,searchKMP_eq_searchBF _ _ _ _ _ _ (by decide) _ ok⟩

end MoCodes.Utils.Search
