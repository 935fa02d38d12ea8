import MoCodes.Utils.SearchKmp

/-! The bad-character and good-suffix tables of BM hold least shifts modulo 256: no
entry, and so no step of the search, passes over an occurrence. -/
namespace MoCodes.Utils.Search
open MoCodes.Lib.Loop MoCodes.Lib.Matching

theorem bmGenBCT_least {pPattern : Bytes} {patternLen : Nat} {c : UInt8} (positive : 0 < patternLen)
    (other : pPattern (patternLen-1) ≠ c) :
    ∃ s, LeastShift (CharShift pPattern (patternLen-1) c) s ∧ s ≤ patternLen ∧
      (bmGenBCT pPattern patternLen c).toNat = s % 256 := by
  unfold bmGenBCT
  rcases last_occurrence pPattern patternLen c with absent | ⟨j,bound,rfl,after⟩
  · refine ⟨patternLen,?_,Nat.le_refl _,?_⟩
    · apply least_of positive
      · intro below
        omega
      · intro r low high rule
        exact absent _ (by omega) (rule (by omega))
    · rw [fill_absent _ _ _ _ _ absent,UInt8.toNat_ofNat']
  · have notLast : j ≠ patternLen-1 := by rintro rfl; exact other rfl
    refine ⟨patternLen-j-1,?_,by omega,?_⟩
    · apply least_of (by omega)
      · intro _
        congr 1
        omega
      · intro r low high rule
        exact after _ (by omega) (by omega) (rule (by omega))
    · rw [fill_last _ _ _ _ _ bound after,UInt8.toNat_ofNat']

theorem isPrevExist_iff {pPattern : Bytes} {patternLen i j : Nat} (inside : j ≤ i) :
    isPrevExist pPattern patternLen i j = true ↔ SuffixShift pPattern patternLen i (i-j) := by
  unfold isPrevExist SuffixShift
  simp only [List.all_eq_true,List.mem_range,beq_iff_eq]
  constructor
  · intro again k low high _
    have first : j+(k-i) = k-(i-j) := by omega
    have second : i+(k-i) = k := by omega
    have same := again (k-i) (by omega)
    rwa [first,second] at same
  · intro shift k bound
    have first : i+k-(i-j) = j+k := by omega
    have same := shift (i+k) (by omega) (by omega) (by omega)
    rwa [first] at same

theorem isMatchToHead_iff {pPattern : Bytes} {patternLen i tmpStartPos : Nat} (below : i ≤ tmpStartPos) :
    isMatchToHead pPattern patternLen tmpStartPos = true ↔ SuffixShift pPattern patternLen i tmpStartPos := by
  unfold isMatchToHead SuffixShift
  simp only [List.all_eq_true,List.mem_range,beq_iff_eq]
  constructor
  · intro head k low high inside
    have moved : tmpStartPos+(k-tmpStartPos) = k := by omega
    have same := head (k-tmpStartPos) (by omega)
    rwa [moved] at same
  · intro shift k bound
    have moved : tmpStartPos+k-tmpStartPos = k := by omega
    have same := shift (tmpStartPos+k) (by omega) (by omega) (by omega)
    rwa [moved] at same

/-- Both searches of the table, for the whole suffix and then for a shorter one at the
head, look for the same thing: the least move that the suffix survives. -/
theorem gstValue_least (pPattern : Bytes) {patternLen i : Nat} (inside : i < patternLen) :
    LeastShift (SuffixShift pPattern patternLen i) (gstValue pPattern patternLen i) ∧
      gstValue pPattern patternLen i ≤ patternLen := by
  unfold gstValue
  cases again : (List.range i).findRev? (isPrevExist pPattern patternLen i) with
  | some j =>
    obtain ⟨bound,found,after⟩ := range_search_last.mp again
    dsimp only
    refine ⟨least_of (by omega) ((isPrevExist_iff (by omega)).mp found) (fun r low high rule => ?_),
      by omega⟩
    have same : i-(i-r) = r := by omega
    have closer := (isPrevExist_iff (Nat.sub_le i r)).mpr (by rw [same]; exact rule)
    rw [after (i-r) (by omega) (by omega)] at closer
    cases closer
  | none =>
    have nowhere := range_search_last_none.mp again
    have notBefore : ∀ r, 0 < r → r ≤ i → ¬ SuffixShift pPattern patternLen i r := by
      intro r low high rule
      have same : i-(i-r) = r := by omega
      have closer := (isPrevExist_iff (Nat.sub_le i r)).mpr (by rw [same]; exact rule)
      rw [nowhere (i-r) (by omega)] at closer
      cases closer
    cases head : (List.range (patternLen-1-i)).find? fun k =>
        isMatchToHead pPattern patternLen (i+1+k) with
    | some k =>
      obtain ⟨bound,found,before⟩ := range_search.mp head
      dsimp only
      refine ⟨least_of (by omega) ((isMatchToHead_iff (by omega)).mp found) (fun r low high rule => ?_),
        by omega⟩
      rcases Nat.lt_or_ge i r with later | early
      · have same : i+1+(r-i-1) = r := by omega
        have sooner := (isMatchToHead_iff (by omega)).mpr rule
        have refuted := before (r-i-1) (by omega)
        rw [same,sooner] at refuted
        cases refuted
      · exact notBefore r low early rule
    | none =>
      have noHead := range_search_none.mp head
      dsimp only
      refine ⟨least_of (by omega) (fun k low high below => by omega) (fun r low high rule => ?_),
        Nat.le_refl _⟩
      rcases Nat.lt_or_ge i r with later | early
      · have same : i+1+(r-i-1) = r := by omega
        have sooner := (isMatchToHead_iff (by omega)).mpr rule
        have refuted := noHead (r-i-1) (by omega)
        rw [same,sooner] at refuted
        cases refuted
      · exact notBefore r low early rule

theorem bmGenGST_toNat (pGst pPattern : Bytes) {patternLen i : Nat} (inside : i < patternLen)
    (short : patternLen ≤ 2^31) :
    (bmGenGST pGst pPattern patternLen i).toNat = gstValue pPattern patternLen i % 256 := by
  unfold bmGenGST
  rw [if_pos ⟨inside,short⟩,UInt8.toNat_ofNat']

section Bm

variable {pSrc pPattern pGst : Bytes} {srcLen patternLen i j : Nat}

theorem bmMismatch_none (fits : srcLen < 2^32) (short : patternLen ≤ 2^31)
    (bound : i+patternLen ≤ srcLen) :
    bmMismatch pSrc pPattern patternLen i = none ↔ OccursAt pSrc pPattern patternLen i := by
  unfold bmMismatch OccursAt
  rw [if_pos short,range_search_last_none]
  constructor
  · intro same k inside
    have here := same k inside
    rw [u32_of_lt (by omega)] at here
    exact (by simpa using here : pPattern k = pSrc (i+k)).symm
  · intro occurs k inside
    rw [u32_of_lt (by omega),occurs k inside]
    simp

theorem bmMismatch_some (fits : srcLen < 2^32) (short : patternLen ≤ 2^31)
    (bound : i+patternLen ≤ srcLen) :
    bmMismatch pSrc pPattern patternLen i = some j ↔
      j < patternLen ∧ pPattern j ≠ pSrc (i+j) ∧ ∀ k, j < k → k < patternLen → pSrc (i+k) = pPattern k := by
  unfold bmMismatch
  rw [if_pos short,range_search_last]
  constructor
  · rintro ⟨inside,differ,after⟩
    rw [u32_of_lt (by omega)] at differ
    refine ⟨inside,by simpa using differ,fun k low high => ?_⟩
    have here := after k low high
    rw [u32_of_lt (by omega)] at here
    exact (by simpa using here : pPattern k = pSrc (i+k)).symm
  · rintro ⟨inside,differ,after⟩
    refine ⟨inside,?_,fun k low high => ?_⟩
    · rw [u32_of_lt (by omega)]
      simpa using differ
    · rw [u32_of_lt (by omega),after k low high]
      simp

theorem bmBody_beyond {pBct : UInt8 → UInt8} (out : srcLen-patternLen < i) :
    bmBody pSrc srcLen pPattern patternLen pBct pGst i = .done errPatNotExist := by
  unfold bmBody
  rw [if_neg (by omega)]

theorem bmBody_found {pBct : UInt8 → UInt8} (bound : i ≤ srcLen-patternLen)
    (whole : bmMismatch pSrc pPattern patternLen i = none) :
    bmBody pSrc srcLen pPattern patternLen pBct pGst i = .done (toInt i) := by
  unfold bmBody
  rw [if_pos bound,whole]

variable (pGst) in
/-- After a mismatch at `j` BM moves by the table entry for it, and that entry is the
least shift of its rule modulo 256. The last byte reads the bad-character table, every
other one the good-suffix table. -/
theorem bmBody_shift (fits : srcLen < 2^32) (short : patternLen ≤ 2^31)
    (checked : checkLen srcLen patternLen = none) (bound : i ≤ srcLen-patternLen)
    (broke : bmMismatch pSrc pPattern patternLen i = some j) :
    ∃ s, s ≤ patternLen ∧
      bmBody pSrc srcLen pPattern patternLen (bmGenBCT pPattern patternLen)
        (bmGenGST pGst pPattern patternLen) i = .next (i+s % 256) ∧
      (if j = patternLen-1 then LeastShift (CharShift pPattern (patternLen-1) (pSrc (i+j))) s
        else LeastShift (SuffixShift pPattern patternLen (j+1)) s) := by
  have lengths := checkLen_none.mp checked
  obtain ⟨inside,differ,_⟩ := (bmMismatch_some fits short (by omega)).mp broke
  unfold bmBody
  rw [if_pos bound,broke]
  by_cases last : j = patternLen-1
  · obtain ⟨s,least,small,entry⟩ := bmGenBCT_least (c := pSrc (i+j)) lengths.1 (by rw [← last]; exact differ)
    have reduced : s % 256 ≤ s := Nat.mod_le _ _
    refine ⟨s,small,?_,by rw [if_pos last]; exact least⟩
    simp only [last,if_true]
    rw [u32_of_lt (by omega : i+(patternLen-1) < 2^32),← last,entry,u32_of_lt (by omega)]
  · obtain ⟨least,small⟩ := gstValue_least pPattern (by omega : j+1 < patternLen)
    have reduced : gstValue pPattern patternLen (j+1) % 256 ≤ gstValue pPattern patternLen (j+1) :=
      Nat.mod_le _ _
    refine ⟨_,small,?_,by rw [if_neg last]; exact least⟩
    simp only [last,if_false,bmGenGST_toNat pGst pPattern (by omega : j+1 < patternLen) short]
    rw [u32_of_lt (by omega)]

theorem bm_safe {s : Nat} (fits : srcLen < 2^32) (short : patternLen ≤ 2^31)
    (bound : i+patternLen ≤ srcLen)
    (broke : bmMismatch pSrc pPattern patternLen i = some j)
    (least : if j = patternLen-1 then LeastShift (CharShift pPattern (patternLen-1) (pSrc (i+j))) s
      else LeastShift (SuffixShift pPattern patternLen (j+1)) s) :
    SafeShift pSrc pPattern patternLen (srcLen-patternLen) i (s % 256) := by
  obtain ⟨inside,differ,after⟩ := (bmMismatch_some fits short bound).mp broke
  have notHere : ¬ OccursAt pSrc pPattern patternLen i := fun occurs => differ (occurs j inside).symm
  by_cases last : j = patternLen-1
  · rw [if_pos last] at least
    apply safe_of_least least
    · intro r positive occurs
      rw [last]
      exact occurs_charShift (by omega) occurs
    · exact notHere
    · exact Nat.mod_le _ _
  · rw [if_neg last] at least
    apply safe_of_least least
    · intro r _ occurs
      exact occurs_suffixShift (fun k low high => after k (by omega) high) occurs
    · exact notHere
    · exact Nat.mod_le _ _

end Bm

theorem searchBM_eq_searchBF (pSrc pPattern pGst : Bytes) (srcLen patternLen : Nat)
    (fits : srcLen < 2^31) (result : Int)
    (ok : SearchBM pSrc srcLen pPattern patternLen (bmGenBCT pPattern patternLen)
      (bmGenGST pGst pPattern patternLen) result) :
    result = searchBF pSrc srcLen pPattern patternLen := by
  refine search_agrees (fun checked scan => ?_) ok
  have lengths := checkLen_none.mp checked
  have wide : srcLen < 2^32 := by omega
  have short : patternLen ≤ 2^31 := by omega
  refine scan_agrees checked (fun i bound => ?_) (fun i out => bmBody_beyond out) scan
  have within : i+patternLen ≤ srcLen := by omega
  cases broke : bmMismatch pSrc pPattern patternLen i with
  | none =>
    exact Or.inl ⟨(bmMismatch_none wide short within).mp broke,bmBody_found bound broke⟩
  | some j =>
    obtain ⟨s,_,moved,least⟩ := bmBody_shift pGst wide short checked bound broke
    exact Or.inr ⟨_,bm_safe wide short within broke least,moved⟩

theorem searchBM_eq_searchBF_baab :
    SearchBM (bytesOf [98,97,97,98]) 4 (bytesOf [97,98]) 2 (bmGenBCT (bytesOf [97,98]) 2)
      (bmGenGST (bytesOf []) (bytesOf [97,98]) 2) 2 ∧
    2 = searchBF (bytesOf [98,97,97,98]) 4 (bytesOf [97,98]) 2 := by
  have ok : SearchBM (bytesOf [98,97,97,98]) 4 (bytesOf [97,98]) 2 (bmGenBCT (bytesOf [97,98]) 2)
      (bmGenGST (bytesOf []) (bytesOf [97,98]) 2) 2 := ⟨3,by decide⟩
  exact ⟨ok,searchBM_eq_searchBF _ _ _ _ _ (by decide) _ ok⟩

end MoCodes.Utils.Search
