import MoCodes.Utils.SearchSunday

/-! Where the Sunday search reads the text. Windows before the last one lie inside it with the byte
that leads on; after a mismatch in the last window the comparison moves on with the position. -/
namespace MoCodes.Utils.Search
open MoCodes.Lib.Loop MoCodes.Lib.Matching

def sundayMatchReads (pSrc : Bytes) (srcLen : Nat) (pPattern : Bytes) (patternLen : Nat) :
    Nat → Nat → Nat → List Nat
  | 0,_,_ => []
  | left+1,j,i =>
    u32 (i+j) :: if pSrc (u32 (i+j)) ≠ pPattern j then
      if u32 (i+patternLen) < srcLen then [u32 (i+patternLen)]
      else sundayMatchReads pSrc srcLen pPattern patternLen left (j+1) (u32 (i+1))
    else sundayMatchReads pSrc srcLen pPattern patternLen left (j+1) i

def sundayReads (pSrc : Bytes) (srcLen : Nat) (pPattern : Bytes) (patternLen i : Nat) : List Nat :=
  if i ≤ srcLen-patternLen then sundayMatchReads pSrc srcLen pPattern patternLen patternLen 0 i else []

def SearchSundayReads (pSrc : Bytes) (srcLen : Nat) (pPattern : Bytes) (patternLen : Nat)
    (pNext : UInt8 → UInt8) (index : Nat) : Prop :=
  checkLen srcLen patternLen = none ∧ ∃ i, Reached (sundayBody pSrc srcLen pPattern patternLen pNext) 0 i ∧
    index ∈ sundayReads pSrc srcLen pPattern patternLen i

section Reads

variable {pSrc pSrc' pPattern : Bytes} {srcLen patternLen i : Nat} {pNext : UInt8 → UInt8}

theorem sundayMatch_congr {left j i : Nat} {isMatched : Bool}
    (same : ∀ index ∈ sundayMatchReads pSrc srcLen pPattern patternLen left j i, pSrc index = pSrc' index) :
    sundayMatch pSrc' srcLen pPattern patternLen pNext left j i isMatched =
      sundayMatch pSrc srcLen pPattern patternLen pNext left j i isMatched := by
  induction left generalizing j i isMatched with
  | zero => rfl
  | succ left ih =>
    rw [sundayMatchReads,List.forall_mem_cons] at same
    obtain ⟨here,rest⟩ := same
    rw [sundayMatch,sundayMatch,← here]
    split_ifs at rest ⊢ with differ inside
    · rw [rest _ (List.mem_singleton_self _)]
    · exact ih rest
    · exact ih rest

/-- A pass depends on nothing of the text but what it reads. -/
theorem sundayBody_congr
    (same : ∀ index ∈ sundayReads pSrc srcLen pPattern patternLen i, pSrc index = pSrc' index) :
    sundayBody pSrc' srcLen pPattern patternLen pNext i = sundayBody pSrc srcLen pPattern patternLen pNext i := by
  unfold sundayReads at same
  unfold sundayBody
  split_ifs at same ⊢ with bound
  · rw [sundayMatch_congr same]
  · rfl

variable (pSrc pPattern) in
theorem sundayMatchReads_inside {left j : Nat} (fits : srcLen < 2^32) (before : i+patternLen < srcLen)
    (length : j+left = patternLen) :
    ∀ index ∈ sundayMatchReads pSrc srcLen pPattern patternLen left j i, index < srcLen := by
  induction left generalizing j with
  | zero => intro index among; cases among
  | succ left ih =>
    have rest := ih (j := j+1) (by omega)
    rw [sundayMatchReads,u32_of_lt (by omega : i+j < 2^32),u32_of_lt (by omega : i+patternLen < 2^32),
      if_pos before,List.forall_mem_cons]
    refine ⟨by omega,?_⟩
    split_ifs
    · exact List.forall_mem_singleton.mpr before
    · exact rest

end Reads

section Last

/-- How far the position has moved on in the last window before byte `j` of the pattern. -/
def moved (window pPattern : Bytes) : Nat → Nat
  | 0 => 0
  | j+1 => moved window pPattern j + if window (moved window pPattern j + j) ≠ pPattern j then 1 else 0

/-- In the last window the pattern differs at its last byte at most. Or it is so long, and the text
so few bytes short of 2^32, that the position comes to 2^32 while the text is still read, where a
mismatch ends the comparison. -/
def LastInside (window pPattern : Bytes) (patternLen rest : Nat) : Prop :=
  (∀ j, j+1 < patternLen → window j = pPattern j) ∨
    ∃ j, moved window pPattern j = rest ∧ rest+j < patternLen ∧ window (rest+j) ≠ pPattern j

/-- The same from byte `j` on. -/
def InsideFrom (window pPattern : Bytes) (patternLen rest j : Nat) : Prop :=
  moved window pPattern j = 0 ∧ (∀ k, j ≤ k → k+1 < patternLen → window k = pPattern k) ∨
    ∃ k, j ≤ k ∧ moved window pPattern k = rest ∧ rest+k < patternLen ∧ window (rest+k) ≠ pPattern k

/-- A mismatch after which the table leads on. -/
def Wraps (window pPattern : Bytes) (rest j : Nat) : Prop :=
  moved window pPattern j = rest ∧ window (rest+j) ≠ pPattern j

variable {window pPattern : Bytes} {patternLen rest j : Nat}

theorem moved_mono {k : Nat} (later : j ≤ k) : moved window pPattern j ≤ moved window pPattern k := by
  induction later with
  | refl => exact Nat.le_refl _
  | step _ ih => exact ih.trans (Nat.le_add_right _ _)

theorem lastInside_iff : LastInside window pPattern patternLen rest ↔
    InsideFrom window pPattern patternLen rest 0 := by
  simp [LastInside,InsideFrom,moved]

theorem insideFrom_succ (goes : ¬ Wraps window pPattern rest j) (more : j+1 < patternLen) :
    InsideFrom window pPattern patternLen rest j ↔ InsideFrom window pPattern patternLen rest (j+1) := by
  constructor
  · rintro (⟨still,agree⟩ | ⟨k,later,wrapped,inside,differ⟩)
    · have here : window (moved window pPattern j + j) = pPattern j := by
        rw [still,Nat.zero_add]
        exact agree j le_rfl more
      refine Or.inl ⟨?_,fun k later => agree k (Nat.le_of_succ_le later)⟩
      rw [moved,if_neg (not_not.mpr here),still]
    · rcases Nat.eq_or_lt_of_le later with rfl | after
      · exact absurd ⟨wrapped,differ⟩ goes
      · exact Or.inr ⟨k,after,wrapped,inside,differ⟩
  · rintro (⟨still,agree⟩ | ⟨k,later,wrapped,inside,differ⟩)
    · rw [moved] at still
      split_ifs at still with differ
      rw [Nat.add_zero] at still
      refine Or.inl ⟨still,fun k later => ?_⟩
      rcases Nat.eq_or_lt_of_le later with rfl | after
      · rw [still,Nat.zero_add,not_not] at differ
        exact fun _ => differ
      · exact agree k after
    · exact Or.inr ⟨k,Nat.le_of_succ_le later,wrapped,inside,differ⟩

theorem not_insideFrom (more : j < patternLen) (outside : patternLen ≤ moved window pPattern j + j) :
    ¬ InsideFrom window pPattern patternLen rest j := by
  rintro (⟨still,_⟩ | ⟨k,later,wrapped,inside,_⟩)
  · omega
  · have further : moved window pPattern j ≤ moved window pPattern k := moved_mono later
    omega

theorem moved_succ_le (goes : ¬ Wraps window pPattern rest j) (few : moved window pPattern j ≤ rest) :
    moved window pPattern (j+1) ≤ rest := by
  rw [moved]
  split_ifs with differ
  · rcases Nat.eq_or_lt_of_le few with wrapped | less
    · exact absurd ⟨wrapped,wrapped ▸ differ⟩ goes
    · exact less
  · exact few

variable {pSrc : Bytes} {srcLen left : Nat}

def lastWindow (pSrc : Bytes) (srcLen patternLen : Nat) : Bytes := fun k => pSrc (srcLen-patternLen+k)

section Steps

variable (fits : srcLen < 2^32) (within : patternLen ≤ srcLen)
  (few : moved (lastWindow pSrc srcLen patternLen) pPattern j ≤ 2^32-srcLen)
  (inside : moved (lastWindow pSrc srcLen patternLen) pPattern j + j < patternLen)
include fits within few inside

theorem sundayMatchReads_last (goes : ¬ Wraps (lastWindow pSrc srcLen patternLen) pPattern (2^32-srcLen) j) :
    sundayMatchReads pSrc srcLen pPattern patternLen (left+1) j
        (srcLen-patternLen+moved (lastWindow pSrc srcLen patternLen) pPattern j) =
      (srcLen-patternLen+(moved (lastWindow pSrc srcLen patternLen) pPattern j + j)) ::
        sundayMatchReads pSrc srcLen pPattern patternLen left (j+1)
          (srcLen-patternLen+moved (lastWindow pSrc srcLen patternLen) pPattern (j+1)) := by
  have later := moved_succ_le goes few
  rw [moved] at later
  rw [sundayMatchReads,u32_of_lt (by omega),Nat.add_assoc,moved]
  have read : pSrc (srcLen-patternLen+(moved (lastWindow pSrc srcLen patternLen) pPattern j + j)) =
    lastWindow pSrc srcLen patternLen (moved (lastWindow pSrc srcLen patternLen) pPattern j + j) := rfl
  rw [read]
  split_ifs at later ⊢ with differ around
  · rw [u32_of_lt (by omega)] at around
    omega
  · rw [u32_of_lt (by omega)]
    rfl
  · rfl

omit few in
theorem sundayMatchReads_wraps (wraps : Wraps (lastWindow pSrc srcLen patternLen) pPattern (2^32-srcLen) j) :
    ∀ index ∈ sundayMatchReads pSrc srcLen pPattern patternLen (left+1) j
      (srcLen-patternLen+moved (lastWindow pSrc srcLen patternLen) pPattern j), index < srcLen := by
  obtain ⟨wrapped,differ⟩ := wraps
  have sum : srcLen-patternLen+moved (lastWindow pSrc srcLen patternLen) pPattern j + patternLen = 2^32 := by omega
  have zero : u32 (2^32) = 0 := rfl
  have read : pSrc (srcLen-patternLen+(moved (lastWindow pSrc srcLen patternLen) pPattern j + j)) ≠ pPattern j :=
    wrapped ▸ differ
  rw [sundayMatchReads,sum,zero,u32_of_lt (by omega),Nat.add_assoc,if_pos read,if_pos (by omega)]
  exact List.forall_mem_cons.mpr ⟨by omega,List.forall_mem_singleton.mpr (by omega)⟩

end Steps

theorem last_reads (fits : srcLen < 2^32) (within : patternLen ≤ srcLen) (length : j+(left+1) = patternLen)
    (few : moved (lastWindow pSrc srcLen patternLen) pPattern j ≤ 2^32-srcLen)
    (inside : moved (lastWindow pSrc srcLen patternLen) pPattern j + j < patternLen) :
    (∀ index ∈ sundayMatchReads pSrc srcLen pPattern patternLen (left+1) j
      (srcLen-patternLen+moved (lastWindow pSrc srcLen patternLen) pPattern j), index < srcLen) ↔
    InsideFrom (lastWindow pSrc srcLen patternLen) pPattern patternLen (2^32-srcLen) j := by
  induction left generalizing j with
  | zero =>
    -- nothing has been moved on, or the last byte would lie outside
    have still : moved (lastWindow pSrc srcLen patternLen) pPattern j = 0 := by omega
    have goes : ¬ Wraps (lastWindow pSrc srcLen patternLen) pPattern (2^32-srcLen) j := by
      rintro ⟨wrapped,_⟩
      omega
    rw [sundayMatchReads_last fits within few inside goes,List.forall_mem_cons]
    exact iff_of_true ⟨by omega,by intro index among; cases among⟩ (Or.inl ⟨still,fun k later more => by omega⟩)
  | succ left ih =>
    by_cases wraps : Wraps (lastWindow pSrc srcLen patternLen) pPattern (2^32-srcLen) j
    · exact iff_of_true (sundayMatchReads_wraps fits within inside wraps)
        (Or.inr ⟨j,le_rfl,wraps.1,by have := wraps.1; omega,wraps.2⟩)
    · have here : srcLen-patternLen+(moved (lastWindow pSrc srcLen patternLen) pPattern j + j) < srcLen := by omega
      have next : moved (lastWindow pSrc srcLen patternLen) pPattern (j+1) ≤
          moved (lastWindow pSrc srcLen patternLen) pPattern j + 1 := by
        rw [moved]
        split_ifs <;> omega
      have later := moved_succ_le wraps few
      rw [sundayMatchReads_last fits within few inside wraps,List.forall_mem_cons,insideFrom_succ wraps (by omega),
        and_iff_right here]
      rcases Nat.lt_or_ge (moved (lastWindow pSrc srcLen patternLen) pPattern (j+1) + (j+1)) patternLen with
        more | outside
      · exact ih (by omega) later more
      · refine iff_of_false (fun reads => ?_) (not_insideFrom (by omega) outside)
        have first := reads _ List.mem_cons_self
        rw [u32_of_lt (by omega)] at first
        omega

end Last

/-- The windows that the table leads to. -/
inductive SundayWindow (pSrc : Bytes) (srcLen : Nat) (pPattern : Bytes) (patternLen : Nat) : Nat → Prop where
  | first : SundayWindow pSrc srcLen pPattern patternLen 0
  | shift {i} : SundayWindow pSrc srcLen pPattern patternLen i → i+patternLen < srcLen →
      ¬ OccursAt pSrc pPattern patternLen i →
      SundayWindow pSrc srcLen pPattern patternLen
        (i+(sundayGenNextTable pPattern patternLen (pSrc (i+patternLen))).toNat)

/-- The comparison stays inside the text if the search comes to the last window. -/
def StaysInside (pSrc : Bytes) (srcLen : Nat) (pPattern : Bytes) (patternLen : Nat) : Prop :=
  0 < patternLen → patternLen ≤ srcLen → SundayWindow pSrc srcLen pPattern patternLen (srcLen-patternLen) →
    LastInside (lastWindow pSrc srcLen patternLen) pPattern patternLen (2^32-srcLen)

section Search

variable {pSrc pPattern : Bytes} {srcLen patternLen i : Nat} (fits : srcLen < 2^32)
include fits

theorem sundayBody_window (before : i+patternLen < srcLen) (absent : ¬ OccursAt pSrc pPattern patternLen i) :
    sundayBody pSrc srcLen pPattern patternLen (sundayGenNextTable pPattern patternLen) i =
      .next (i+(sundayGenNextTable pPattern patternLen (pSrc (i+patternLen))).toNat) := by
  obtain ⟨j,broke⟩ : ∃ j, mismatch pSrc pPattern patternLen i = some j :=
    Option.ne_none_iff_exists'.mp fun whole => absent (mismatch_none.mp whole)
  obtain ⟨inside,differ,same⟩ := mismatch_some.mp broke
  obtain ⟨s,_,small,entry⟩ := sundayGenNextTable_least pPattern patternLen (pSrc (i+patternLen))
  have reduced : s % 256 ≤ s := Nat.mod_le _ _
  unfold sundayBody
  rw [if_pos (by omega),sundayMatch_broke (by omega) before (Nat.zero_add _) (Nat.zero_le j) inside differ
    (fun l _ lower => same l lower),u32_of_lt (by omega)]

theorem reached_of_window (window : SundayWindow pSrc srcLen pPattern patternLen i) :
    Reached (sundayBody pSrc srcLen pPattern patternLen (sundayGenNextTable pPattern patternLen)) 0 i := by
  induction window with
  | first => exact .start
  | shift _ before absent ih => exact ih.next (sundayBody_window fits before absent)

/-- As long as the last window is not met, the search is led by the table alone. -/
theorem window_of_reached (missed : ¬ SundayWindow pSrc srcLen pPattern patternLen (srcLen-patternLen))
    (within : patternLen ≤ srcLen)
    (reached : Reached (sundayBody pSrc srcLen pPattern patternLen (sundayGenNextTable pPattern patternLen)) 0 i) :
    SundayWindow pSrc srcLen pPattern patternLen i := by
  induction reached with
  | start => exact .first
  | @next i after _ step window =>
    have apart : i ≠ srcLen-patternLen := by
      rintro rfl
      exact missed window
    rcases Nat.lt_or_ge (srcLen-patternLen) i with out | bound
    · rw [sundayBody_beyond out] at step
      cases step
    · have before : i+patternLen < srcLen := by omega
      by_cases occurs : OccursAt pSrc pPattern patternLen i
      · rw [sundayBody_found fits bound before.le occurs] at step
        cases step
      · rw [sundayBody_window fits before occurs] at step
        obtain rfl := Outcome.next.inj step
        exact window.shift before occurs

theorem sundayReads_last (positive : 0 < patternLen) (within : patternLen ≤ srcLen) :
    (∀ index ∈ sundayReads pSrc srcLen pPattern patternLen (srcLen-patternLen), index < srcLen) ↔
      LastInside (lastWindow pSrc srcLen patternLen) pPattern patternLen (2^32-srcLen) := by
  obtain ⟨left,rfl⟩ := Nat.exists_eq_add_of_lt positive
  rw [sundayReads,if_pos le_rfl,lastInside_iff]
  rw [Nat.zero_add] at within ⊢
  exact last_reads fits within (Nat.zero_add _) (Nat.zero_le _) (Nat.succ_pos _)

theorem sundayReads_inside (within : patternLen ≤ srcLen) (apart : i ≠ srcLen-patternLen) :
    ∀ index ∈ sundayReads pSrc srcLen pPattern patternLen i, index < srcLen := by
  rw [sundayReads]
  split_ifs with bound
  · exact sundayMatchReads_inside pSrc pPattern fits (by omega) (Nat.zero_add _)
  · intro index among
    cases among

end Search

/-- The search reads inside the text exactly when it does so in the last window or never comes to it. -/
theorem sunday_reads_iff (pSrc pPattern : Bytes) {srcLen : Nat} (patternLen : Nat) (fits : srcLen < 2^32) :
    (∀ index, SearchSundayReads pSrc srcLen pPattern patternLen (sundayGenNextTable pPattern patternLen) index →
      index < srcLen) ↔ StaysInside pSrc srcLen pPattern patternLen := by
  constructor
  · intro inside positive within window
    have checked := checkLen_none.mpr ⟨positive,within⟩
    have reached := reached_of_window fits window
    exact (sundayReads_last fits positive within).mp fun index among => inside index ⟨checked,_,reached,among⟩
  · rintro stays index ⟨checked,i,reached,among⟩
    obtain ⟨positive,within⟩ := checkLen_none.mp checked
    rcases ne_or_eq i (srcLen-patternLen) with apart | rfl
    · exact sundayReads_inside fits within apart index among
    · refine (sundayReads_last fits positive within).mpr ?_ index among
      by_contra outside
      have missed : ¬ SundayWindow pSrc srcLen pPattern patternLen (srcLen-patternLen) :=
        fun window => outside (stays positive within window)
      exact missed (window_of_reached fits missed within reached)

theorem sunday_reads_baab : StaysInside (bytesOf [98,97,97,98]) 4 (bytesOf [97,98]) 2 ∧
    ∀ index, SearchSundayReads (bytesOf [98,97,97,98]) 4 (bytesOf [97,98]) 2
      (sundayGenNextTable (bytesOf [97,98]) 2) index → index < 4 := by
  have stays : StaysInside (bytesOf [98,97,97,98]) 4 (bytesOf [97,98]) 2 := by
    refine fun _ _ _ => Or.inl fun j more => ?_
    obtain rfl : j = 0 := by omega
    rfl
  exact ⟨stays,(sunday_reads_iff _ _ 2 (by decide)).mpr stays⟩

/-- The pattern differs from the whole text at its first byte: the next byte that is read lies
behind the text. -/
theorem sunday_reads_behind : SearchSundayReads (bytesOf [97,98]) 2 (bytesOf [99,100]) 2
      (sundayGenNextTable (bytesOf [99,100]) 2) 2 ∧
    ¬ ∀ index, SearchSundayReads (bytesOf [97,98]) 2 (bytesOf [99,100]) 2
      (sundayGenNextTable (bytesOf [99,100]) 2) index → index < 2 := by
  have behind : SearchSundayReads (bytesOf [97,98]) 2 (bytesOf [99,100]) 2
    (sundayGenNextTable (bytesOf [99,100]) 2) 2 := ⟨rfl,0,.start,by decide⟩
  exact ⟨behind,fun inside => absurd (inside 2 behind) (by decide)⟩

end MoCodes.Utils.Search
