import MoCodes.Lib.Loop
import MoCodes.Lib.PowerMod
import Mathlib.Data.Nat.Prime.Infinite
import Mathlib.Data.Nat.Sqrt
import Mathlib.Tactic.Linarith

/-! The keys of rsaDemo.c: two primes found by trial division, and an exponent by the extended
Euclidean algorithm. -/
namespace MoCodes.Rsa
open Lib.Loop Lib.PowerMod

/-- A value that has to fit an `int`. -/
def inInt (value : Int) : Option Int := if -2^31 ≤ value ∧ value < 2^31 then some value else none

theorem inInt_some {value : Int} (low : -2^31 ≤ value) (high : value < 2^31) : inInt value = some value :=
  if_pos ⟨low,high⟩

def maxPrimeNum : Nat := 30

def isPrimeNumber (num : Int) : Int :=
  if num < 2 then 0
  else if num.tmod 2 = 0 then 0
  else
    -- the root of an `int` as a double, cut to an `int`
    let s := Nat.sqrt num.toNat+1
    if (List.range' 2 (s-2)).any fun i => num.tmod i = 0 then 0 else 1

/-- A pass of the search in `getRandPrimeNum`. -/
def searchPrime (ret : Int) : Outcome Int Int :=
  if isPrimeNumber ret = 0 then .next (ret+1) else .done ret

/-- Where the search begins, for what `rand` gives. -/
def firstCandidate (rand : Nat) : Int := (rand % maxPrimeNum+5 : Nat)

def GetRandPrimeNum (rand : Nat) (ret : Int) : Prop := Returns searchPrime (firstCandidate rand) ret

def getE : Int := 11

def extendEuclid (E L : Int) : Option (Int × Int × Int) :=
  if L = 0 then some (E,1,0)
  else do
    let (r,D,k) ← extendEuclid L (E.tmod L)
    let quotient ← inInt (E.tdiv L)
    let product ← inInt (quotient*k)
    let rest ← inInt (D-product)
    return (r,k,rest)
termination_by L.natAbs
decreasing_by
  rename_i more
  rw [Int.natAbs_tmod]
  exact Nat.mod_lt _ (Int.natAbs_pos.mpr more)

def getD (E L : Int) : Option Int := (extendEuclid E L).map fun found => found.2.1

structure Keys where
  E : Int
  D : Int
  N : Int

/-- `genKeys` after its two calls of `getRandPrimeNum`. -/
def genKeys (p q : Int) : Option Keys := do
  let L ← inInt ((p-1)*(q-1))
  let N ← inInt (p*q)
  let D ← getD getE L
  let D ← if D < 0 then inInt (D+L) else some D
  return ⟨getE,D,N⟩

section Primes

def OddPrime (num : Int) : Prop := ∃ p : Nat, p.Prime ∧ p ≠ 2 ∧ num = p

theorem tmod_dvd {num : Int} (pos : 0 ≤ num) (i : Nat) : num.tmod i = 0 ↔ i ∣ num.toNat := by
  obtain ⟨n,rfl⟩ := Int.eq_ofNat_of_zero_le pos
  rw [← Int.dvd_iff_tmod_eq_zero,Int.natCast_dvd_natCast,Int.toNat_natCast]

theorem isPrimeNumber_zero_or_one (num : Int) : isPrimeNumber num = 0 ∨ isPrimeNumber num = 1 := by
  simp only [isPrimeNumber]
  split_ifs <;> simp

theorem isPrimeNumber_iff (num : Int) : isPrimeNumber num = 1 ↔ OddPrime num := by
  rcases lt_or_ge num 2 with small | large
  · have none : ¬ OddPrime num := by
      rintro ⟨p,prime,_,rfl⟩
      have := prime.two_le
      omega
    simp [isPrimeNumber,small,none]
  obtain ⟨n,rfl⟩ := Int.eq_ofNat_of_zero_le (by omega : 0 ≤ num)
  have two : 2 ≤ n := by omega
  have odd : OddPrime n ↔ n.Prime ∧ n ≠ 2 :=
    ⟨fun ⟨_,prime,other,same⟩ => Int.natCast_inj.mp same ▸ ⟨prime,other⟩,fun ⟨prime,other⟩ => ⟨n,prime,other,rfl⟩⟩
  rw [odd,isPrimeNumber,if_neg (by omega)]
  by_cases even : (n : Int).tmod 2 = 0
  · have half : 2 ∣ n := by simpa using (@tmod_dvd n (by omega) 2).mp even
    have composite : ¬ (n.Prime ∧ n ≠ 2) := fun ⟨prime,other⟩ =>
      other ((Nat.prime_dvd_prime_iff_eq Nat.prime_two prime).mp half).symm
    simp [even,composite]
  have whole : ¬ 2 ∣ n := fun half => even ((@tmod_dvd n (by omega) 2).mpr (by simpa using half))
  have other : n ≠ 2 := fun same => whole (same ▸ dvd_rfl)
  have tried : ((List.range' 2 (Nat.sqrt n+1-2)).any fun i => decide ((n : Int).tmod i = 0)) = true ↔
      ∃ i, 2 ≤ i ∧ i ≤ Nat.sqrt n ∧ i ∣ n := by
    simp only [List.any_eq_true,List.mem_range'_1,decide_eq_true_eq]
    refine exists_congr fun i => ?_
    rw [tmod_dvd (by omega),Int.toNat_natCast]
    constructor
    · rintro ⟨⟨low,high⟩,divides⟩
      exact ⟨low,by omega,divides⟩
    · rintro ⟨low,high,divides⟩
      exact ⟨⟨low,by omega⟩,divides⟩
  rw [if_neg even,Nat.prime_def_le_sqrt]
  simp only [Int.toNat_natCast]
  split_ifs with divided
  · obtain ⟨i,low,high,divides⟩ := tried.mp divided
    simp only [false_iff,zero_ne_one]
    exact fun ⟨⟨_,prime⟩,_⟩ => prime i low high divides
  · simp only [true_iff]
    exact ⟨⟨two,fun i low high divides => divided (tried.mpr ⟨i,low,high,divides⟩)⟩,other⟩

/-- The search ends, at the first odd prime from where it begins. -/
theorem searchPrime_returns (start : Int) : ∃ ret, Returns searchPrime start ret ∧ OddPrime ret ∧ start ≤ ret ∧
    ∀ num, start ≤ num → num < ret → ¬ OddPrime num := by
  obtain ⟨P,above,prime⟩ := Nat.exists_infinite_primes (max start.toNat 3)
  have end_ : OddPrime P := ⟨P,prime,by omega,rfl⟩
  let Passed (state : Int) : Prop := start ≤ state ∧ state ≤ P ∧ ∀ num, start ≤ num → num < state → ¬ OddPrime num
  have passes : ∀ state after, Passed state → searchPrime state = .next after →
      Passed after ∧ (P-after).toNat < (P-state).toNat := by
    intro state after ⟨low,high,before⟩ moved
    rw [searchPrime] at moved
    split_ifs at moved with composite
    obtain rfl := Outcome.next.inj moved
    have here : ¬ OddPrime state := fun odd => by
      rw [(isPrimeNumber_iff state).mpr odd] at composite
      cases composite
    have apart : state ≠ P := fun same => here (same ▸ end_)
    refine ⟨⟨by omega,by omega,fun num from_ below => ?_⟩,by omega⟩
    rcases lt_or_eq_of_le (Int.lt_add_one_iff.mp below) with less | rfl
    · exact before num from_ less
    · exact here
  have initially : Passed start := ⟨le_rfl,by omega,fun num low high => absurd low (by omega)⟩
  obtain ⟨ret,returned⟩ := returns_of_measure Passed (fun state => (P-state).toNat) passes start initially
  have found := returns_invariant Passed (fun ret => OddPrime ret ∧ Passed ret)
    (fun state after passed moved => (passes state after passed moved).1) (fun state result passed left => ?_)
    initially returned
  · exact ⟨ret,returned,found.1,found.2.1,found.2.2.2⟩
  · rw [searchPrime] at left
    split_ifs at left with composite
    obtain rfl := Outcome.done.inj left
    exact ⟨(isPrimeNumber_iff state).mp ((isPrimeNumber_zero_or_one state).resolve_left composite),passed⟩

theorem least_le {rand : Nat} {ret : Int}
    (least : ∀ num, firstCandidate rand ≤ num → num < ret → ¬ OddPrime num) : ret ≤ 37 := by
  by_contra beyond
  have early : firstCandidate rand ≤ 37 := by
    simp only [firstCandidate,maxPrimeNum]
    omega
  exact least 37 early (by omega) ⟨37,by decide,by decide,rfl⟩

theorem getRandPrimeNum_prime {rand : Nat} {ret : Int} (drawn : GetRandPrimeNum rand ret) :
    OddPrime ret ∧ ret ≤ 37 ∧ 5 ≤ ret := by
  obtain ⟨found,returned,prime,above,least⟩ := searchPrime_returns (firstCandidate rand)
  obtain rfl := returns_unique drawn returned
  refine ⟨prime,least_le least,le_trans ?_ above⟩
  simp only [firstCandidate]
  omega

/-- For every value of `rand`, the first odd prime from `rand() % 30+5` on. -/
theorem getRandPrimeNum_least (rand : Nat) : ∃ ret, GetRandPrimeNum rand ret ∧ OddPrime ret ∧ ret ≤ 37 ∧
    firstCandidate rand ≤ ret ∧ ∀ num, firstCandidate rand ≤ num → num < ret → ¬ OddPrime num := by
  obtain ⟨ret,returned,prime,above,least⟩ := searchPrime_returns (firstCandidate rand)
  exact ⟨ret,returned,prime,least_le least,above,least⟩

end Primes

section Euclid

variable {E L : Int}

theorem extendEuclid_zero (E : Int) : extendEuclid E 0 = some (E,1,0) := by rw [extendEuclid,if_pos rfl]

theorem extendEuclid_step {r D k : Int} (more : L ≠ 0) (inner : extendEuclid L (E.tmod L) = some (r,D,k))
    (quotient : inInt (E.tdiv L) = some (E.tdiv L)) (product : inInt (E.tdiv L*k) = some (E.tdiv L*k))
    (rest : inInt (D-E.tdiv L*k) = some (D-E.tdiv L*k)) :
    extendEuclid E L = some (r,k,D-E.tdiv L*k) := by
  rw [extendEuclid,if_neg more,inner]
  simp [quotient,product,rest]

/-- No step overflows; what comes out are the greatest common divisor and factors that give it. -/
theorem extendEuclid_bezout (nonneg : 0 ≤ E ∧ 0 ≤ L) (range : E < 2^31 ∧ L < 2^31) :
    ∃ D k, extendEuclid E L = some ((Int.gcd E L : Int),D,k) ∧ E*D+L*k = Int.gcd E L ∧
      |D| ≤ max L 1 ∧ |k| ≤ max E 1 := by
  induction size : L.toNat using Nat.strong_induction_on generalizing E L with
  | _ n ih =>
    obtain ⟨posE,posL⟩ := nonneg
    rcases posL.eq_or_lt' with rfl | more
    · refine ⟨1,0,?_,by simp [abs_of_nonneg posE],by simp,by simp⟩
      rw [extendEuclid_zero,Int.gcd_zero_right,Int.natCast_natAbs,abs_of_nonneg posE]
    have division := Int.emod_add_mul_ediv E L
    have low := Int.emod_nonneg E more.ne'
    have high := Int.emod_lt_of_pos E more
    have quotient := Int.ediv_nonneg posE posL
    have toEdiv : E.tdiv L = E/L := Int.tdiv_eq_ediv_of_nonneg posE
    have toEmod : E.tmod L = E % L := Int.tmod_eq_emod_of_nonneg posE
    have whole : L*(E/L) ≤ E := by omega
    have least : E/L ≤ E := Int.ediv_le_self L posE
    have gcd : (Int.gcd L (E % L) : Int) = Int.gcd E L := by rw [Int.gcd_comm,Int.gcd_emod]
    obtain ⟨D,k,inner,bezout,boundD,boundk⟩ := ih (E % L).toNat (by omega) ⟨posL,low⟩ ⟨range.2,by omega⟩ rfl
    rw [gcd] at bezout
    rw [gcd,← toEmod] at inner
    rw [max_eq_left (by omega : 1 ≤ L)] at boundk
    have product : |E/L*k| ≤ L*(E/L) := by
      rw [abs_mul,abs_of_nonneg quotient,mul_comm]
      exact mul_le_mul_of_nonneg_right boundk quotient
    have rest : |D-E/L*k| ≤ max E 1 := by
      rcases low.eq_or_lt' with divides | remains
      · -- the inner call is the last one
        rw [toEmod,divides,extendEuclid_zero] at inner
        obtain ⟨_,rfl,rfl⟩ : _ ∧ 1 = D ∧ 0 = k := by simpa using inner
        simp
      · rw [max_eq_left (by omega)] at boundD
        calc
          |D-E/L*k| ≤ |D|+|E/L*k| := abs_sub D _
          _ ≤ E % L+L*(E/L) := add_le_add boundD product
          _ = E := division
          _ ≤ max E 1 := le_max_left ..
    have fits : ∀ {value bound : Int}, |value| ≤ bound → bound < 2^31 → inInt value = some value := by
      intro value bound small below
      have sides := abs_le.mp small
      exact inInt_some (by omega) (by omega)
    refine ⟨k,D-E/L*k,?_,bezout_back bezout,boundk.trans (le_max_left ..),rest⟩
    rw [← toEdiv] at product rest whole ⊢
    refine extendEuclid_step more.ne' inner ?_ (fits product (by omega)) (fits rest (by omega))
    rw [toEdiv]
    exact inInt_some (by omega) (by omega)

/-- What `genKeys` makes of two odd primes whose product is an `int`. -/
theorem genKeys_some {p q : Int} (first : OddPrime p) (second : OddPrime q) (small : p*q < 2^31) :
    ∃ D, genKeys p q = some ⟨11,D,p*q⟩ ∧ 0 ≤ D ∧ 11*D ≡ Int.gcd 11 ((p-1)*(q-1)) [ZMOD (p-1)*(q-1)] := by
  obtain ⟨P,primeP,otherP,rfl⟩ := first
  obtain ⟨Q,primeQ,otherQ,rfl⟩ := second
  have largeP := primeP.two_le
  have largeQ := primeQ.two_le
  have sizeP : (3 : Int) ≤ P := by omega
  have sizeQ : (3 : Int) ≤ Q := by omega
  have posL : 0 < ((P : Int)-1)*(Q-1) := mul_pos (by omega) (by omega)
  have below : ((P : Int)-1)*(Q-1) ≤ P*Q := mul_le_mul (by omega) (by omega) (by omega) (by omega)
  obtain ⟨D,k,found,bezout,boundD,_⟩ := extendEuclid_bezout (E := 11) ⟨by decide,posL.le⟩
    ⟨by decide,lt_of_le_of_lt below small⟩
  have L : inInt (((P : Int)-1)*(Q-1)) = some (((P : Int)-1)*(Q-1)) := inInt_some (by omega) (by omega)
  have N : inInt ((P : Int)*Q) = some ((P : Int)*Q) := inInt_some (by omega) small
  have exponent : 11*D ≡ Int.gcd 11 (((P : Int)-1)*(Q-1)) [ZMOD ((P : Int)-1)*(Q-1)] := by
    rw [← bezout]
    exact (Int.modEq_iff_dvd.mpr ⟨k,by ring⟩)
  rw [max_eq_left (by omega)] at boundD
  have sides := abs_le.mp boundD
  rcases lt_or_ge D 0 with negative | nonneg
  · refine ⟨D+((P : Int)-1)*(Q-1),?_,by omega,?_⟩
    · simp [genKeys,getD,getE,L,N,found,negative,@inInt_some (D+((P : Int)-1)*(Q-1)) (by omega) (by omega)]
    · refine Int.ModEq.trans ?_ exponent
      exact Int.modEq_iff_dvd.mpr ⟨-11,by ring⟩
  · refine ⟨D,?_,nonneg,exponent⟩
    simp [genKeys,getD,getE,L,N,found,not_lt.mpr nonneg]

end Euclid

end MoCodes.Rsa
