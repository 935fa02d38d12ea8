import MoCodes.Utils.SearchBm
import MoCodes.Utils.SearchSunday
import Mathlib.Data.Finset.Card
import Mathlib.Data.Finset.Range

/-! When the table searches end. A least shift that 256 divides is stored as 0, and a
text that meets it holds the search at one position for ever; a pattern none of whose
usable shifts is such a multiple is searched for to the end of every text. Only the
Sunday search of a text just below 2^32 bytes has another way to go on for ever: its
position wraps at the end of the text and comes back to the start. -/
namespace MoCodes.Utils.Search
open MoCodes.Lib.Loop MoCodes.Lib.Matching

/-- The least shift of the rule keeps a positive value in an unsigned char. -/
def Stored (rule : Nat → Prop) : Prop := ∀ s, LeastShift rule s → ¬ 256 ∣ s

def KmpProgress (pPattern : Bytes) (patternLen : Nat) : Prop :=
  ∀ j < patternLen, Stored (PrefixShift pPattern j)

/-- The bad-character table is only read at the last byte, for another byte than the
pattern's; the good-suffix table never at index 0. -/
def BmProgress (pPattern : Bytes) (patternLen : Nat) : Prop :=
  (∀ c, pPattern (patternLen-1) ≠ c → Stored (CharShift pPattern (patternLen-1) c)) ∧
    ∀ i, 0 < i → i < patternLen → Stored (SuffixShift pPattern patternLen i)

def SundayProgress (pPattern : Bytes) (patternLen : Nat) : Prop :=
  ∀ c, Stored (CharShift pPattern patternLen c)

def Advances (body : Nat → Outcome Nat Int) : Prop := ∀ i after, body i = .next after → i < after

theorem stored_mod {rule : Nat → Prop} {s : Nat} (stored : Stored rule) (least : LeastShift rule s) :
    0 < s % 256 := Nat.pos_of_ne_zero fun zero => stored s least (Nat.dvd_of_mod_eq_zero zero)

theorem next_byte_ne (c : UInt8) : c+1 ≠ c := by
  intro same
  have value := congrArg UInt8.toNat same
  rw [UInt8.toNat_add] at value
  have bound := c.toNat_lt
  have one : (1 : UInt8).toNat = 1 := rfl
  omega

theorem returns_of_advances {body : Nat → Outcome Nat Int} {last : Nat} (advances : Advances body)
    (beyond : ∀ i, last < i → body i = .done errPatNotExist) : ∃ result, Returns body 0 result := by
  refine scan_returns last (fun i _ => ?_) (fun i out => ⟨_,beyond i out⟩)
  cases step : body i with
  | done result => exact Or.inl ⟨result,rfl⟩
  | next after => exact Or.inr ⟨after,advances i after step,rfl⟩

theorem search_ends {srcLen patternLen : Nat} {body : Nat → Outcome Nat Int}
    (ends : checkLen srcLen patternLen = none → ∃ result, Returns body 0 result) :
    ∃ result, match checkLen srcLen patternLen with
      | some err => result = err
      | none => Returns body 0 result := by
  cases checked : checkLen srcLen patternLen with
  | some err => exact ⟨err,rfl⟩
  | none => exact ends checked

section Kmp

variable {pSrc pPattern pPmt pNext : Bytes} {srcLen patternLen : Nat}

theorem kmp_advances (fits : srcLen < 2^32) (checked : checkLen srcLen patternLen = none)
    (progress : KmpProgress pPattern patternLen) :
    Advances (kmpBody pSrc srcLen pPattern patternLen (kmpGenNextArray pPmt pNext pPattern patternLen)) := by
  intro i after step
  rcases Nat.lt_or_ge (srcLen-patternLen) i with out | bound
  · simp [kmpBody_beyond out] at step
  · cases broke : mismatch pSrc pPattern patternLen i with
    | none => simp [kmpBody_found bound (mismatch_none.mp broke)] at step
    | some j =>
      rw [kmpBody_shift pPmt pNext fits checked bound broke] at step
      cases step
      have moved := stored_mod (progress j (mismatch_some.mp broke).1) (kmpShift_least pPattern j)
      omega

theorem kmp_hangs {j s : Nat} (fits : srcLen < 2^32) (checked : checkLen srcLen patternLen = none)
    (inside : j < patternLen) (least : LeastShift (PrefixShift pPattern j) s) (multiple : 256 ∣ s)
    (result : Int) :
    ¬ SearchKMP (Function.update pPattern j (pPattern j+1)) srcLen pPattern patternLen
      (kmpGenNextArray pPmt pNext pPattern patternLen) result := by
  have broke : mismatch (Function.update pPattern j (pPattern j+1)) pPattern patternLen 0 = some j := by
    apply mismatch_some.mpr
    refine ⟨inside,?_,fun k below => ?_⟩
    · rw [Nat.zero_add,Function.update_self]
      exact next_byte_ne _
    · rw [Nat.zero_add,Function.update_of_ne (by omega)]
  have same := least_unique least (kmpShift_least pPattern j)
  have fixed := kmpBody_shift pPmt pNext fits checked (Nat.zero_le _) broke
  rw [← same,Nat.mod_eq_zero_of_dvd multiple] at fixed
  unfold SearchKMP
  rw [checked]
  exact hangs_not_returns (hangs_of_fixed fixed) result

end Kmp

section Bm

variable {pSrc pPattern pGst : Bytes} {srcLen patternLen : Nat}

theorem bmMismatch_long (long : 2^31 < patternLen) (i : Nat) :
    bmMismatch pSrc pPattern patternLen i = none := by
  unfold bmMismatch
  rw [if_neg (by omega)]

theorem bm_advances (fits : srcLen < 2^32) (checked : checkLen srcLen patternLen = none)
    (progress : patternLen ≤ 2^31 → BmProgress pPattern patternLen) :
    Advances (bmBody pSrc srcLen pPattern patternLen (bmGenBCT pPattern patternLen)
      (bmGenGST pGst pPattern patternLen)) := by
  intro i after step
  have lengths := checkLen_none.mp checked
  rcases Nat.lt_or_ge (srcLen-patternLen) i with out | bound
  · simp [bmBody_beyond out] at step
  · rcases Nat.lt_or_ge (2^31) patternLen with long | short
    · simp [bmBody_found bound (bmMismatch_long long i)] at step
    · cases broke : bmMismatch pSrc pPattern patternLen i with
      | none => simp [bmBody_found bound broke] at step
      | some j =>
        obtain ⟨s,_,moved,least⟩ := bmBody_shift pGst fits short checked bound broke
        obtain ⟨inside,differ,_⟩ := (bmMismatch_some fits short (by omega)).mp broke
        rw [moved] at step
        cases step
        have positive : 0 < s % 256 := by
          by_cases last : j = patternLen-1
          · rw [if_pos last] at least
            exact stored_mod ((progress short).1 _ (by rw [← last]; exact differ)) least
          · rw [if_neg last] at least
            exact stored_mod ((progress short).2 (j+1) (by omega) (by omega)) least
        omega

theorem bm_hangs {j s : Nat} {c : UInt8} (fits : srcLen < 2^32) (short : patternLen ≤ 2^31)
    (checked : checkLen srcLen patternLen = none) (inside : j < patternLen) (other : pPattern j ≠ c)
    (least : if j = patternLen-1 then LeastShift (CharShift pPattern (patternLen-1) c) s
      else LeastShift (SuffixShift pPattern patternLen (j+1)) s) (multiple : 256 ∣ s) (result : Int) :
    ¬ SearchBM (Function.update pPattern j c) srcLen pPattern patternLen
      (bmGenBCT pPattern patternLen) (bmGenGST pGst pPattern patternLen) result := by
  have lengths := checkLen_none.mp checked
  have here : Function.update pPattern j c (0+j) = c := by rw [Nat.zero_add,Function.update_self]
  have broke : bmMismatch (Function.update pPattern j c) pPattern patternLen 0 = some j := by
    apply (bmMismatch_some fits short (by omega)).mpr
    refine ⟨inside,?_,fun k low high => ?_⟩
    · rw [here]
      exact other
    · rw [Nat.zero_add,Function.update_of_ne (by omega)]
  obtain ⟨t,_,fixed,stored⟩ := bmBody_shift pGst fits short checked (Nat.zero_le _) broke
  rw [here] at stored
  have same : s = t := by
    by_cases last : j = patternLen-1
    · rw [if_pos last] at least stored
      exact least_unique least stored
    · rw [if_neg last] at least stored
      exact least_unique least stored
  rw [← same,Nat.mod_eq_zero_of_dvd multiple] at fixed
  unfold SearchBM
  rw [checked]
  exact hangs_not_returns (hangs_of_fixed fixed) result

end Bm

section Sunday

variable {pSrc pPattern : Bytes} {srcLen patternLen i : Nat}

theorem sunday_advances (fits : srcLen < 2^32) (checked : checkLen srcLen patternLen = none)
    (progress : patternLen < srcLen → SundayProgress pPattern patternLen)
    (window : LastWindowFits srcLen patternLen) :
    Advances (sundayBody pSrc srcLen pPattern patternLen (sundayGenNextTable pPattern patternLen)) := by
  intro i after step
  have lengths := checkLen_none.mp checked
  rcases Nat.lt_or_ge (srcLen-patternLen) i with out | bound
  · simp [sundayBody_beyond out] at step
  · cases broke : mismatch pSrc pPattern patternLen i with
    | none => simp [sundayBody_found fits bound (by omega) (mismatch_none.mp broke)] at step
    | some j =>
      rcases Nat.lt_or_ge (i+patternLen) srcLen with before | atEnd
      · obtain ⟨s,least,moved⟩ := sundayBody_shift fits before broke
        rw [moved] at step
        cases step
        have positive := stored_mod (progress (by omega) _) least
        omega
      · obtain ⟨next,higher,moved⟩ := sundayBody_last (sundayGenNextTable pPattern patternLen) fits
          window (by omega) broke
        rw [moved] at step
        cases step
        exact higher

theorem sundayBody_shift_of {j s : Nat} (fits : srcLen < 2^32) (before : i+patternLen < srcLen)
    (broke : mismatch pSrc pPattern patternLen i = some j)
    (least : LeastShift (CharShift pPattern patternLen (pSrc (i+patternLen))) s) :
    sundayBody pSrc srcLen pPattern patternLen (sundayGenNextTable pPattern patternLen) i =
      .next (i+s % 256) := by
  obtain ⟨t,stored,moved⟩ := sundayBody_shift fits before broke
  rw [least_unique least stored]
  exact moved

theorem sunday_hangs {s : Nat} {c : UInt8} (positive : 0 < patternLen) (fits : srcLen < 2^32)
    (longer : patternLen < srcLen) (least : LeastShift (CharShift pPattern patternLen c) s)
    (multiple : 256 ∣ s) (result : Int) :
    ¬ SearchSunday (Function.update (Function.update pPattern 0 (pPattern 0+1)) patternLen c) srcLen
      pPattern patternLen (sundayGenNextTable pPattern patternLen) result := by
  have checked : checkLen srcLen patternLen = none := checkLen_none.mpr ⟨positive,by omega⟩
  have broke : mismatch (Function.update (Function.update pPattern 0 (pPattern 0+1)) patternLen c)
      pPattern patternLen 0 = some 0 := by
    apply mismatch_some.mpr
    refine ⟨positive,?_,fun k below => absurd below (Nat.not_lt_zero k)⟩
    rw [Nat.zero_add,Function.update_of_ne (by omega),Function.update_self]
    exact next_byte_ne _
  have fixed := sundayBody_shift_of fits (by omega : 0+patternLen < srcLen) broke
    (by rw [Nat.zero_add,Function.update_self]; exact least)
  rw [Nat.mod_eq_zero_of_dvd multiple] at fixed
  unfold SearchSunday
  rw [checked]
  exact hangs_not_returns (hangs_of_fixed fixed) result

end Sunday

section Around

/-! The round trip of the Sunday search. Behind the last window of a text just below 2^32
bytes a pattern of 2 to 254 bytes comes to the first byte of the text, and where that
byte leads on by one more than the pattern's length the next position is 1. -/

variable {pPattern : Bytes} {srcLen patternLen rounds rest i : Nat} {other : UInt8}

theorem absent_byte (pPattern : Bytes) (short : patternLen ≤ 255) :
    ∃ c, ∀ k < patternLen, pPattern k ≠ c := by
  have fewer : ((Finset.range patternLen).image fun k => (pPattern k).toNat).card <
      (Finset.range 256).card := by
    have most := Finset.card_image_le (s := Finset.range patternLen) (f := fun k => (pPattern k).toNat)
    rw [Finset.card_range] at most ⊢
    omega
  obtain ⟨value,byte,missing⟩ := Finset.exists_mem_notMem_of_card_lt_card fewer
  refine ⟨UInt8.ofNat value,fun k below same => missing ?_⟩
  refine Finset.mem_image.mpr ⟨k,Finset.mem_range.mpr below,?_⟩
  rw [same,UInt8.toNat_ofNat',Nat.mod_eq_of_lt (Finset.mem_range.mp byte)]

/-- The pattern's last byte leads on by one position, a byte the pattern does not hold by
one more than its length. So many single positions bring the scan to the last window. -/
def aroundText (pPattern : Bytes) (patternLen rounds : Nat) (other : UInt8) : Bytes := fun t =>
  if t < rounds*(patternLen+2) ∧ t % (patternLen+2) = patternLen then pPattern (patternLen-1) else other

def OnRound (patternLen rounds rest i : Nat) : Prop :=
  (∃ k < rounds, i = k*(patternLen+2) ∨ i = k*(patternLen+2)+1) ∨
    ∃ t ≤ rest, i = rounds*(patternLen+2)+t*(patternLen+1)

theorem turn_le {k n : Nat} (s : Nat) (below : k < n) : k*s+s ≤ n*s := by
  rw [← Nat.succ_mul]
  exact Nat.mul_le_mul_right s below

theorem aroundText_other {k d : Nat} (small : d < patternLen+2) (notLast : d ≠ patternLen) :
    aroundText pPattern patternLen rounds other (k*(patternLen+2)+d) = other := by
  unfold aroundText
  rw [Nat.mul_add_mod_self_right,Nat.mod_eq_of_lt small,if_neg (fun both => notLast both.2)]

theorem aroundText_behind {t : Nat} (behind : rounds*(patternLen+2) ≤ t) :
    aroundText pPattern patternLen rounds other t = other := by
  unfold aroundText
  rw [if_neg (fun both => absurd both.1 (by omega))]

theorem aroundText_single {k : Nat} (before : k < rounds) :
    aroundText pPattern patternLen rounds other (k*(patternLen+2)+patternLen) = pPattern (patternLen-1) := by
  have inside := turn_le (patternLen+2) before
  unfold aroundText
  rw [Nat.mul_add_mod_self_right,Nat.mod_eq_of_lt (by omega),if_pos ⟨by omega,rfl⟩]

theorem around_length (short : patternLen ≤ 254) (long : 2^32 < srcLen+patternLen) :
    ∃ rounds rest, 0 < rounds ∧ srcLen = rounds*(patternLen+2)+rest*(patternLen+1)+patternLen := by
  have positive : 0 < patternLen+1 := Nat.succ_pos _
  have split := Nat.div_add_mod (srcLen-patternLen-1) (patternLen+1)
  have part := Nat.mod_lt (srcLen-patternLen-1) positive
  have square : (patternLen+1)*(patternLen+1) ≤ 255*255 := Nat.mul_le_mul (by omega) (by omega)
  have enough : patternLen+1 ≤ (srcLen-patternLen-1)/(patternLen+1) :=
    (Nat.le_div_iff_mul_le positive).mpr (by omega)
  have room : (srcLen-patternLen-1) % (patternLen+1)+1 ≤ (srcLen-patternLen-1)/(patternLen+1) := by omega
  obtain ⟨rest,quotient⟩ := Nat.exists_eq_add_of_le room
  refine ⟨(srcLen-patternLen-1) % (patternLen+1)+1,rest,Nat.succ_pos _,?_⟩
  rw [quotient,Nat.mul_add,Nat.mul_comm _ rest,Nat.mul_comm (patternLen+1)] at split
  rw [Nat.mul_succ _ (patternLen+1)]
  omega

theorem around_step {pSrc : Bytes} {s : Nat} (fits : srcLen < 2^32) (positive : 0 < patternLen)
    (absent : ∀ k < patternLen, pPattern k ≠ other) (small : s ≤ 255) (before : i+patternLen < srcLen)
    (here : pSrc i = other) (least : LeastShift (CharShift pPattern patternLen (pSrc (i+patternLen))) s) :
    sundayBody pSrc srcLen pPattern patternLen (sundayGenNextTable pPattern patternLen) i =
      .next (i+s) := by
  have broke : mismatch pSrc pPattern patternLen i = some 0 := by
    apply mismatch_some.mpr
    refine ⟨positive,?_,fun k below => absurd below (Nat.not_lt_zero k)⟩
    rw [Nat.add_zero,here]
    exact (absent 0 positive).symm
  rw [sundayBody_shift_of fits before broke least,Nat.mod_eq_of_lt (by omega)]

theorem around_back {pSrc : Bytes} (fits : srcLen < 2^32) (long : 2^32 < srcLen+patternLen)
    (short : patternLen ≤ 254) (absent : ∀ k < patternLen, pPattern k ≠ other)
    (behind : ∀ t, srcLen ≤ t+patternLen → pSrc t = other) (first : pSrc 0 = other)
    (last : i+patternLen = srcLen) :
    sundayBody pSrc srcLen pPattern patternLen (sundayGenNextTable pPattern patternLen) i = .next 1 := by
  have entry : (sundayGenNextTable pPattern patternLen other).toNat = patternLen+1 := by
    unfold sundayGenNextTable
    rw [fill_absent _ _ _ _ _ absent,UInt8.toNat_ofNat',Nat.mod_eq_of_lt (by omega)]
  have position : 2^32-patternLen+(patternLen+1) = 2^32+1 := by omega
  unfold sundayBody
  rw [if_pos (by omega),sundayMatch_around (by omega) (by omega)
    (by omega : i+patternLen+(2^32-srcLen) = 2^32)
    (Nat.zero_add _) (by omega) (fun t k low high same => absent k high (by rw [← same]; exact behind t low)),
    first,entry,position]
  rfl

theorem onRound_step (fits : srcLen < 2^32) (long : 2^32 < srcLen+patternLen) (short : patternLen ≤ 254)
    (absent : ∀ k < patternLen, pPattern k ≠ other) (turns : 0 < rounds)
    (length : srcLen = rounds*(patternLen+2)+rest*(patternLen+1)+patternLen)
    (on : OnRound patternLen rounds rest i) :
    ∃ after, sundayBody (aroundText pPattern patternLen rounds other) srcLen pPattern patternLen
      (sundayGenNextTable pPattern patternLen) i = .next after ∧ OnRound patternLen rounds rest after := by
  have single : LeastShift (CharShift pPattern patternLen (pPattern (patternLen-1))) 1 :=
    least_of Nat.one_pos (fun _ => rfl) (fun r low high => by omega)
  have whole := charShift_absent absent
  rcases on with ⟨k,before,rfl | rfl⟩ | ⟨t,within,rfl⟩
  · have inside := turn_le (patternLen+2) before
    refine ⟨_,around_step fits (by omega) absent (by omega) (by omega) ?_
      (by rw [aroundText_single before]; exact single),Or.inl ⟨k,before,Or.inr rfl⟩⟩
    exact aroundText_other (d := 0) (by omega) (by omega)
  · have inside := turn_le (patternLen+2) before
    have next : k*(patternLen+2)+1+(patternLen+1) = (k+1)*(patternLen+2) := by
      rw [Nat.succ_mul]
      omega
    have leads : aroundText pPattern patternLen rounds other (k*(patternLen+2)+1+patternLen) = other := by
      rw [Nat.add_assoc]
      exact aroundText_other (by omega) (by omega)
    refine ⟨_,around_step fits (by omega) absent (by omega : patternLen+1 ≤ 255) (by omega)
      (aroundText_other (by omega) (by omega)) (by rw [leads]; exact whole),?_⟩
    rw [next]
    rcases (by omega : k+1 = rounds ∨ k+1 < rounds) with rfl | more
    · exact Or.inr ⟨0,Nat.zero_le _,by omega⟩
    · exact Or.inl ⟨k+1,more,Or.inl rfl⟩
  · rcases Nat.eq_or_lt_of_le within with rfl | more
    · have first : aroundText pPattern patternLen rounds other (0*(patternLen+2)+0) = other :=
        aroundText_other (by omega) (by omega)
      rw [Nat.zero_mul] at first
      exact ⟨1,around_back fits long short absent (fun u low => aroundText_behind (by omega)) first
        (by omega),Or.inl ⟨0,turns,Or.inr (by omega)⟩⟩
    · have inside := turn_le (patternLen+1) more
      have leads : aroundText pPattern patternLen rounds other
          (rounds*(patternLen+2)+t*(patternLen+1)+patternLen) = other := aroundText_behind (by omega)
      refine ⟨_,around_step fits (by omega) absent (by omega : patternLen+1 ≤ 255) (by omega)
        (aroundText_behind (by omega)) (by rw [leads]; exact whole),Or.inr ⟨t+1,more,?_⟩⟩
      rw [Nat.succ_mul]
      omega

theorem sunday_around (pPattern : Bytes) (fits : srcLen < 2^32) (long : 2^32 < srcLen+patternLen)
    (inside : patternLen ≤ srcLen) (short : patternLen ≤ 254) :
    ∃ pSrc, ∀ result, ¬ SearchSunday pSrc srcLen pPattern patternLen
      (sundayGenNextTable pPattern patternLen) result := by
  obtain ⟨other,absent⟩ := absent_byte pPattern (by omega : patternLen ≤ 255)
  obtain ⟨rounds,rest,turns,length⟩ := around_length short long
  have checked : checkLen srcLen patternLen = none := checkLen_none.mpr ⟨by omega,inside⟩
  have hangs : Hangs (sundayBody (aroundText pPattern patternLen rounds other) srcLen pPattern patternLen
      (sundayGenNextTable pPattern patternLen)) 0 :=
    hangs_of_closed (OnRound patternLen rounds rest)
      (fun i on => onRound_step fits long short absent turns length on) 0
      (Or.inl ⟨0,turns,Or.inl (by omega)⟩)
  refine ⟨aroundText pPattern patternLen rounds other,fun result => ?_⟩
  unfold SearchSunday
  rw [checked]
  exact hangs_not_returns hangs result

end Around

/-- What the three table searches owe a text: every pass that goes on moves on, and the
search returns. -/
def SearchesEnd (pSrc : Bytes) (srcLen : Nat) (pPattern : Bytes) (patternLen : Nat)
    (pNext : Bytes) (pBct : UInt8 → UInt8) (pGst : Bytes) (pSunday : UInt8 → UInt8) : Prop :=
  (checkLen srcLen patternLen = none →
    Advances (kmpBody pSrc srcLen pPattern patternLen pNext) ∧
      Advances (bmBody pSrc srcLen pPattern patternLen pBct pGst) ∧
      Advances (sundayBody pSrc srcLen pPattern patternLen pSunday)) ∧
  (∃ result, SearchKMP pSrc srcLen pPattern patternLen pNext result) ∧
  (∃ result, SearchBM pSrc srcLen pPattern patternLen pBct pGst result) ∧
  ∃ result, SearchSunday pSrc srcLen pPattern patternLen pSunday result

theorem searches_end {pSrc pPattern pNext pPmt pGst : Bytes} {srcLen patternLen : Nat}
    (fits : srcLen < 2^32)
    (tables : patternLen ≤ srcLen →
      KmpProgress pPattern patternLen ∧ (patternLen ≤ 2^31 → BmProgress pPattern patternLen))
    (sunday : patternLen < srcLen → SundayProgress pPattern patternLen ∧ LastWindowFits srcLen patternLen) :
    SearchesEnd pSrc srcLen pPattern patternLen (kmpGenNextArray pPmt pNext pPattern patternLen)
      (bmGenBCT pPattern patternLen) (bmGenGST pGst pPattern patternLen)
      (sundayGenNextTable pPattern patternLen) := by
  have moves (checked : checkLen srcLen patternLen = none) :
      Advances (kmpBody pSrc srcLen pPattern patternLen (kmpGenNextArray pPmt pNext pPattern patternLen)) ∧
        Advances (bmBody pSrc srcLen pPattern patternLen (bmGenBCT pPattern patternLen)
          (bmGenGST pGst pPattern patternLen)) ∧
        Advances (sundayBody pSrc srcLen pPattern patternLen (sundayGenNextTable pPattern patternLen)) := by
    have lengths := checkLen_none.mp checked
    obtain ⟨kmp,bm⟩ := tables lengths.2
    have window : LastWindowFits srcLen patternLen := by
      rcases Nat.eq_or_lt_of_le lengths.2 with rfl | longer
      · unfold LastWindowFits
        omega
      · exact (sunday longer).2
    exact ⟨kmp_advances fits checked kmp,bm_advances fits checked bm,
      sunday_advances fits checked (fun longer => (sunday longer).1) window⟩
  refine ⟨moves,search_ends fun checked => ?_,search_ends fun checked => ?_,search_ends fun checked => ?_⟩
  · exact returns_of_advances (moves checked).1 (fun i out => kmpBody_beyond out)
  · exact returns_of_advances (moves checked).2.1 (fun i out => bmBody_beyond out)
  · exact returns_of_advances (moves checked).2.2 (fun i out => sundayBody_beyond out)

/-- A pattern is searched for to the end of every text of a length exactly when none of
the shifts that a search can take is a multiple of 256 and the Sunday search cannot wrap. -/
theorem searches_end_iff (pPattern pNext pPmt pGst : Bytes) (srcLen patternLen : Nat)
    (positive : 0 < patternLen) (fits : srcLen < 2^32) :
    (∀ pSrc : Bytes,
      SearchesEnd pSrc srcLen pPattern patternLen (kmpGenNextArray pPmt pNext pPattern patternLen)
        (bmGenBCT pPattern patternLen) (bmGenGST pGst pPattern patternLen)
        (sundayGenNextTable pPattern patternLen)) ↔
    (patternLen ≤ srcLen →
      KmpProgress pPattern patternLen ∧ (patternLen ≤ 2^31 → BmProgress pPattern patternLen)) ∧
      (patternLen < srcLen → SundayProgress pPattern patternLen ∧ LastWindowFits srcLen patternLen) := by
  constructor
  · intro ends
    have progress (longer : patternLen < srcLen) : SundayProgress pPattern patternLen := by
      intro c s least multiple
      obtain ⟨result,ok⟩ := (ends _).2.2.2
      exact sunday_hangs positive fits longer least multiple result ok
    refine ⟨fun inside => ?_,fun longer => ⟨progress longer,?_⟩⟩
    · have checked : checkLen srcLen patternLen = none := checkLen_none.mpr ⟨positive,inside⟩
      refine ⟨fun j below s least multiple => ?_,fun short => ⟨fun c other s least multiple => ?_,
        fun i low below s least multiple => ?_⟩⟩
      · obtain ⟨result,ok⟩ := (ends _).2.1
        exact kmp_hangs fits checked below least multiple result ok
      · obtain ⟨result,ok⟩ := (ends _).2.2.1
        exact bm_hangs fits short checked (by omega : patternLen-1 < patternLen) other
          (by rw [if_pos rfl]; exact least) multiple result ok
      · have index : i-1+1 = i := by omega
        obtain ⟨result,ok⟩ := (ends _).2.2.1
        exact bm_hangs fits short checked (by omega : i-1 < patternLen) (next_byte_ne _).symm
          (by rw [if_neg (by omega),index]; exact least) multiple result ok
    · by_contra wraps
      unfold LastWindowFits at wraps
      obtain ⟨c,absent⟩ := absent_byte pPattern (by omega : patternLen ≤ 255)
      have notMultiple := progress longer c _ (charShift_absent absent)
      obtain ⟨pSrc,never⟩ := sunday_around pPattern fits (by omega) (Nat.le_of_lt longer)
        (by omega : patternLen ≤ 254)
      obtain ⟨result,ok⟩ := (ends pSrc).2.2.2
      exact never result ok
  · rintro ⟨tables,sunday⟩ pSrc
    exact searches_end fits tables sunday

theorem searches_end_iff_single :
    (∀ pSrc : Bytes,
      SearchesEnd pSrc 4 (fun _ => 97) 1 (kmpGenNextArray (fun _ => 0) (fun _ => 0) (fun _ => 97) 1)
        (bmGenBCT (fun _ => 97) 1) (bmGenGST (fun _ => 0) (fun _ => 97) 1)
        (sundayGenNextTable (fun _ => 97) 1)) ↔
    (1 ≤ 4 → KmpProgress (fun _ => 97) 1 ∧ (1 ≤ 2^31 → BmProgress (fun _ => 97) 1)) ∧
      (1 < 4 → SundayProgress (fun _ => 97) 1 ∧ LastWindowFits 4 1) :=
  searches_end_iff (fun _ => 97) (fun _ => 0) (fun _ => 0) (fun _ => 0) 4 1 (by decide) (by decide)

/-- 255 times `a` in 256 times `b`: the byte after the first window is not in the pattern,
its shift is 256, and the Sunday search never returns. -/
theorem searchSunday_stuck :
    ¬ ∃ result, SearchSunday (fun _ => 98) 256 (fun _ => 97) 255 (sundayGenNextTable (fun _ => 97) 255)
      result := by
  rintro ⟨result,ok⟩
  have entry : sundayGenNextTable (fun _ => 97) 255 98 = 0 :=
    fill_absent _ _ _ _ _ (fun j _ => by decide)
  have fixed : sundayBody (fun _ => 98) 256 (fun _ => 97) 255 (sundayGenNextTable (fun _ => 97) 255) 0 =
      .next 0 := by
    unfold sundayBody
    rw [if_pos (by decide),sundayMatch_broke (k := 0) (by decide) (by decide) (by decide) (Nat.le_refl _)
      (by decide) (by decide) (fun l _ lower => absurd lower (Nat.not_lt_zero l)),entry]
    rfl
  exact hangs_not_returns (hangs_of_fixed fixed) result ok

theorem stored_of_short {rule : Nat → Prop} {s : Nat} (least : LeastShift rule s) (short : s ≤ 255) :
    Stored rule := by
  intro t other multiple
  have same := least_unique other least
  have positive := least_pos least
  obtain ⟨k,rfl⟩ := multiple
  omega

theorem progress_of_short {pPattern : Bytes} {patternLen : Nat} (positive : 0 < patternLen)
    (short : patternLen ≤ 254) :
    KmpProgress pPattern patternLen ∧ BmProgress pPattern patternLen ∧
      SundayProgress pPattern patternLen := by
  refine ⟨fun j inside => ?_,⟨fun c other => ?_,fun i _ inside => ?_⟩,fun c => ?_⟩
  · have small := kmpShift_le pPattern inside
    exact stored_of_short (kmpShift_least pPattern j) (by omega)
  · obtain ⟨s,least,small,_⟩ := bmGenBCT_least positive other
    exact stored_of_short least (by omega)
  · obtain ⟨least,small⟩ := gstValue_least pPattern inside
    exact stored_of_short least (by omega)
  · obtain ⟨s,least,small,_⟩ := sundayGenNextTable_least pPattern patternLen c
    exact stored_of_short least (by omega)

end MoCodes.Utils.Search
