import MoCodes.Utils.SearchKmp

/-! The Sunday search is led by the byte after the window. At the last window there is
none: the comparison then runs on past the text, and whatever it reads there only moves
the position beyond every window that is left, unless the position wraps at 2^32. -/
namespace MoCodes.Utils.Search
open MoCodes.Lib.Loop MoCodes.Lib.Matching

theorem charShift_absent {pPattern : Bytes} {patternLen : Nat} {c : UInt8}
    (absent : ∀ j < patternLen, pPattern j ≠ c) :
    LeastShift (CharShift pPattern patternLen c) (patternLen+1) := by
  apply least_of (by omega)
  · intro below
    omega
  · intro r low high rule
    exact absent _ (by omega) (rule (by omega))

theorem sundayGenNextTable_least (pPattern : Bytes) (patternLen : Nat) (c : UInt8) :
    ∃ s, LeastShift (CharShift pPattern patternLen c) s ∧ s ≤ patternLen+1 ∧
      (sundayGenNextTable pPattern patternLen c).toNat = s % 256 := by
  unfold sundayGenNextTable
  rcases last_occurrence pPattern patternLen c with absent | ⟨j,bound,rfl,after⟩
  · refine ⟨patternLen+1,charShift_absent absent,Nat.le_refl _,?_⟩
    rw [fill_absent _ _ _ _ _ absent,UInt8.toNat_ofNat']
  · refine ⟨patternLen-j,?_,by omega,?_⟩
    · apply least_of (by omega)
      · intro _
        congr 1
        omega
      · intro r low high rule
        exact after _ (by omega) (by omega) (rule (by omega))
    · rw [fill_last _ _ _ _ _ bound after,UInt8.toNat_ofNat']

section Sunday

variable {pSrc pPattern : Bytes} {srcLen patternLen i : Nat} {pNext : UInt8 → UInt8}

/-- At the last window the position moves on by at most one for each byte of the pattern.
Either its sum with the length stays within 2^32, or it wraps and the table moves the
position once more, which a pattern of over 255 bytes keeps below 2^32. -/
def LastWindowFits (srcLen patternLen : Nat) : Prop := srcLen+patternLen ≤ 2^32 ∨ 255 < patternLen

variable (pSrc pPattern pNext) in
/-- Past the end the comparison ends without a match and never moves the position back. -/
theorem sundayMatch_past (left : Nat) (j i : Nat) (text : 0 < srcLen) (past : srcLen ≤ i+patternLen)
    (positive : 0 < patternLen) (small : i+patternLen ≤ 2^32)
    (fits : i+patternLen+left ≤ 2^32 ∨ 255 < patternLen) :
    ∃ after, i ≤ after ∧ sundayMatch pSrc srcLen pPattern patternLen pNext left j i false = (after,false) := by
  induction left generalizing j i with
  | zero => exact ⟨i,Nat.le_refl _,rfl⟩
  | succ left ih =>
    unfold sundayMatch
    split
    · rcases Nat.eq_or_lt_of_le small with wraps | below
      · -- The sum is 2^32 and reads as 0: the table leads, by an entry of at most 255.
        have entry := (pNext (pSrc (u32 (i+patternLen)))).toNat_lt
        have zero : u32 (i+patternLen) = 0 := by rw [wraps]; rfl
        rw [if_pos (by rw [zero]; exact text),u32_of_lt (by omega)]
        exact ⟨_,Nat.le_add_right _ _,rfl⟩
      · rw [u32_of_lt below,if_neg (by omega),u32_of_lt (by omega)]
        obtain ⟨after,higher,ended⟩ := ih (j+1) (i+1) (by omega) (by omega) (by omega)
        exact ⟨after,by omega,ended⟩
    · exact ih (j+1) i past small (by omega)

theorem sundayMatch_whole {left j : Nat} (fits : i+j+left ≤ 2^32)
    (same : ∀ k, j ≤ k → k < j+left → pSrc (i+k) = pPattern k) (isMatched : Bool) :
    sundayMatch pSrc srcLen pPattern patternLen pNext left j i isMatched = (i,isMatched) := by
  induction left generalizing j with
  | zero => rfl
  | succ left ih =>
    unfold sundayMatch
    rw [u32_of_lt (by omega),if_neg (by simpa using same j (by omega) (by omega))]
    exact ih (by omega) (fun k low high => same k (by omega) (by omega))

theorem sundayMatch_broke {left j k : Nat} (fits : i+patternLen < 2^32) (inside : i+patternLen < srcLen)
    (length : j+left = patternLen) (low : j ≤ k) (high : k < patternLen)
    (differ : pSrc (i+k) ≠ pPattern k) (same : ∀ l, j ≤ l → l < k → pSrc (i+l) = pPattern l) :
    sundayMatch pSrc srcLen pPattern patternLen pNext left j i true =
      (u32 (i+(pNext (pSrc (i+patternLen))).toNat),false) := by
  induction left generalizing j with
  | zero => omega
  | succ left ih =>
    unfold sundayMatch
    rw [u32_of_lt (by omega : i+j < 2^32)]
    rcases Nat.eq_or_lt_of_le low with rfl | later
    · rw [if_pos differ,u32_of_lt fits,if_pos inside]
    · rw [if_neg (by simpa using same j (Nat.le_refl _) later)]
      exact ih (by omega) later (fun l lower => same l (by omega))

variable (pNext) in
theorem sundayMatch_last {left j k : Nat} (fits : srcLen < 2^32)
    (window : LastWindowFits srcLen patternLen) (last : i+patternLen = srcLen)
    (length : j+left = patternLen) (low : j ≤ k) (high : k < patternLen)
    (differ : pSrc (i+k) ≠ pPattern k) (same : ∀ l, j ≤ l → l < k → pSrc (i+l) = pPattern l) :
    ∃ after, i < after ∧
      sundayMatch pSrc srcLen pPattern patternLen pNext left j i true = (after,false) := by
  induction left generalizing j with
  | zero => omega
  | succ left ih =>
    unfold sundayMatch
    rw [u32_of_lt (by omega : i+j < 2^32)]
    rcases Nat.eq_or_lt_of_le low with rfl | later
    · rw [if_pos differ,u32_of_lt (by omega : i+patternLen < 2^32),if_neg (by omega),
        u32_of_lt (by omega : i+1 < 2^32)]
      unfold LastWindowFits at window
      obtain ⟨after,higher,ended⟩ := sundayMatch_past pSrc pPattern pNext left (j+1) (i+1)
        (by omega : 0 < srcLen) (by omega : srcLen ≤ i+1+patternLen) (by omega) (by omega) (by omega)
      exact ⟨after,by omega,ended⟩
    · rw [if_neg (by simpa using same j (Nat.le_refl _) later)]
      exact ih (by omega) later (fun l lower => same l (by omega))

/-- A last window in which nothing matches, long enough for the sum to wrap: the byte
that leads on is then the first of the text. -/
theorem sundayMatch_around {left j rest : Nat} (text : 0 < srcLen) (past : srcLen ≤ i+patternLen)
    (wraps : i+patternLen+rest = 2^32) (length : j+left = patternLen) (enough : rest < left)
    (differ : ∀ t k, srcLen ≤ t+patternLen → k < patternLen → pSrc t ≠ pPattern k) (isMatched : Bool) :
    sundayMatch pSrc srcLen pPattern patternLen pNext left j i isMatched =
      (u32 (2^32-patternLen+(pNext (pSrc 0)).toNat),false) := by
  induction rest generalizing left j i isMatched with
  | zero =>
    obtain ⟨less,rfl⟩ : ∃ less, left = less+1 := ⟨left-1,by omega⟩
    have sum : i+patternLen = 2^32 := by omega
    have zero : u32 (i+patternLen) = 0 := by rw [sum]; rfl
    have position : i = 2^32-patternLen := by omega
    unfold sundayMatch
    rw [u32_of_lt (by omega : i+j < 2^32),if_pos (differ (i+j) j (by omega) (by omega)),zero,if_pos text,
      position]
  | succ rest ih =>
    obtain ⟨less,rfl⟩ : ∃ less, left = less+1 := ⟨left-1,by omega⟩
    unfold sundayMatch
    rw [u32_of_lt (by omega : i+j < 2^32),if_pos (differ (i+j) j (by omega) (by omega)),
      u32_of_lt (by omega : i+patternLen < 2^32),if_neg (by omega),u32_of_lt (by omega : i+1 < 2^32)]
    exact ih (by omega) (by omega) (by omega) (by omega) false

theorem sundayBody_beyond (out : srcLen-patternLen < i) :
    sundayBody pSrc srcLen pPattern patternLen pNext i = .done errPatNotExist := by
  unfold sundayBody
  rw [if_neg (by omega)]

theorem sundayBody_found (fits : srcLen < 2^32) (bound : i ≤ srcLen-patternLen)
    (within : i+patternLen ≤ srcLen) (occurs : OccursAt pSrc pPattern patternLen i) :
    sundayBody pSrc srcLen pPattern patternLen pNext i = .done (toInt i) := by
  unfold sundayBody
  rw [if_pos bound,sundayMatch_whole (by omega) (fun k _ high => occurs k (by omega))]

theorem sundayBody_shift {j : Nat} (fits : srcLen < 2^32) (before : i+patternLen < srcLen)
    (broke : mismatch pSrc pPattern patternLen i = some j) :
    ∃ s, LeastShift (CharShift pPattern patternLen (pSrc (i+patternLen))) s ∧
      sundayBody pSrc srcLen pPattern patternLen (sundayGenNextTable pPattern patternLen) i =
        .next (i+s % 256) := by
  obtain ⟨inside,differ,same⟩ := mismatch_some.mp broke
  obtain ⟨s,least,small,entry⟩ := sundayGenNextTable_least pPattern patternLen (pSrc (i+patternLen))
  have reduced : s % 256 ≤ s := Nat.mod_le _ _
  refine ⟨s,least,?_⟩
  unfold sundayBody
  rw [if_pos (by omega),sundayMatch_broke (by omega) before (Nat.zero_add _) (Nat.zero_le j) inside differ
    (fun l _ lower => same l lower),entry,u32_of_lt (by omega)]

variable (pNext) in
theorem sundayBody_last {j : Nat} (fits : srcLen < 2^32) (window : LastWindowFits srcLen patternLen)
    (last : i+patternLen = srcLen) (broke : mismatch pSrc pPattern patternLen i = some j) :
    ∃ after, i < after ∧ sundayBody pSrc srcLen pPattern patternLen pNext i = .next after := by
  obtain ⟨inside,differ,same⟩ := mismatch_some.mp broke
  obtain ⟨after,higher,ended⟩ := sundayMatch_last pNext fits window last (Nat.zero_add _)
    (Nat.zero_le j) inside differ (fun l _ lower => same l lower)
  refine ⟨after,higher,?_⟩
  unfold sundayBody
  rw [if_pos (by omega),ended]

theorem sunday_safe {j s : Nat} (broke : mismatch pSrc pPattern patternLen i = some j)
    (least : LeastShift (CharShift pPattern patternLen (pSrc (i+patternLen))) s) :
    SafeShift pSrc pPattern patternLen (srcLen-patternLen) i (s % 256) := by
  apply safe_of_least least
  · intro r positive occurs
    exact occurs_charShift (by omega) occurs
  · exact mismatch_not_occurs broke
  · exact Nat.mod_le _ _

theorem sunday_safe_last {j s : Nat} (last : i+patternLen = srcLen)
    (broke : mismatch pSrc pPattern patternLen i = some j) :
    SafeShift pSrc pPattern patternLen (srcLen-patternLen) i s := by
  intro r low _ bound occurs
  have same : r = i := by omega
  exact mismatch_not_occurs broke (same ▸ occurs)

end Sunday

/-- Whenever the Sunday search returns, it returns what the brute-force search does,
whatever lies in memory behind the text. -/
theorem searchSunday_eq_searchBF (pSrc pPattern : Bytes) (srcLen patternLen : Nat)
    (fits : srcLen < 2^31) (result : Int)
    (ok : SearchSunday pSrc srcLen pPattern patternLen (sundayGenNextTable pPattern patternLen) result) :
    result = searchBF pSrc srcLen pPattern patternLen := by
  refine search_agrees (fun checked scan => ?_) ok
  have lengths := checkLen_none.mp checked
  refine scan_agrees checked (fun i bound => ?_) (fun i out => sundayBody_beyond out) scan
  cases broke : mismatch pSrc pPattern patternLen i with
  | none =>
    have occurs := mismatch_none.mp broke
    exact Or.inl ⟨occurs,sundayBody_found (by omega) bound (by omega) occurs⟩
  | some j =>
    rcases Nat.lt_or_ge (i+patternLen) srcLen with before | atEnd
    · obtain ⟨s,least,moved⟩ := sundayBody_shift (by omega) before broke
      exact Or.inr ⟨_,sunday_safe broke least,moved⟩
    · have last : i+patternLen = srcLen := by omega
      obtain ⟨after,higher,moved⟩ := sundayBody_last _ (by omega) (Or.inl (by omega)) last broke
      have split : i+(after-i) = after := by omega
      exact Or.inr ⟨after-i,sunday_safe_last last broke,by rw [split]; exact moved⟩

theorem searchSunday_eq_searchBF_baab :
    SearchSunday (bytesOf [98,97,97,98]) 4 (bytesOf [97,98]) 2 (sundayGenNextTable (bytesOf [97,98]) 2) 2 ∧
    2 = searchBF (bytesOf [98,97,97,98]) 4 (bytesOf [97,98]) 2 := by
  have ok : SearchSunday (bytesOf [98,97,97,98]) 4 (bytesOf [97,98]) 2
      (sundayGenNextTable (bytesOf [97,98]) 2) 2 := ⟨3,by decide⟩
  exact ⟨ok,searchSunday_eq_searchBF _ _ _ _ (by decide) _ ok⟩

end MoCodes.Utils.Search
