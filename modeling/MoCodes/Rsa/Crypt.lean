import MoCodes.Rsa.Keys
import Mathlib.Tactic.IntervalCases

/-! What rsaDemo.c encrypts and decrypts with the keys it has generated. -/
namespace MoCodes.Rsa
open Lib.PowerMod

/-- The loop of `rsaCrypt`, with the passes that are left. -/
def cryptLoop (N src : Int) : Nat → Int → Option Int
  | 0,modRet => some modRet
  | i+1,modRet => do
    let product ← inInt (src*modRet)
    if N = 0 then none else cryptLoop N src i (product.tmod N)

def rsaCrypt (ED N src : Int) : Option Int := cryptLoop N src ED.toNat 1

section Power

variable {N src : Int}

/-- The products of the loop stay in range where the largest remainder gives one that does. -/
theorem cryptLoop_power (pos : 0 < N) (nonneg : 0 ≤ src) (fits : src*(N-1) < 2^31) (i : Nat) {modRet : Int}
    (start : 0 ≤ modRet) (first : src*modRet < 2^31) :
    cryptLoop N src i modRet = some (if i = 0 then modRet else src^i*modRet % N) := by
  induction i generalizing modRet with
  | zero => rfl
  | succ i ih =>
    have product := mul_nonneg nonneg start
    have low := Int.emod_nonneg (src*modRet) pos.ne'
    have high := Int.emod_lt_of_pos (src*modRet) pos
    have next : src*(src*modRet % N) < 2^31 :=
      lt_of_le_of_lt (mul_le_mul_of_nonneg_left (by omega) nonneg) fits
    rw [cryptLoop,inInt_some (by omega) first,Option.bind_eq_bind,Option.bind_some,if_neg pos.ne',
      Int.tmod_eq_emod_of_nonneg product,ih low next,if_neg (Nat.succ_ne_zero i)]
    rcases eq_or_ne i 0 with rfl | more
    · simp
    · rw [if_neg more,pow_succ,mul_assoc]
      exact congrArg some ((Int.mod_modEq (src*modRet) N).mul_left (src^i))

theorem rsaCrypt_power {ED : Int} (large : 1 < N) (nonneg : 0 ≤ src) (fits : src*(N-1) < 2^31) (pos : 0 < ED) :
    rsaCrypt ED N src = some (src^ED.toNat % N) := by
  have least : src ≤ src*(N-1) := le_mul_of_one_le_right nonneg (by omega)
  rw [rsaCrypt,cryptLoop_power (by omega) nonneg fits _ (by decide) (by omega),if_neg (by omega),mul_one]

end Power

/-- What comes back, for an exponent above zero. -/
theorem crypt_twice {N src D : Int} (large : 1 < N) (square : (N-1)*(N-1) < 2^31) (pos : 0 < D)
    (nonneg : 0 ≤ src) (fits : src*(N-1) < 2^31) :
    ∃ enc, rsaCrypt 11 N src = some enc ∧ rsaCrypt D N enc = some (src^(11*D.toNat) % N) := by
  have low := Int.emod_nonneg (src^11) (by omega : N ≠ 0)
  have high := Int.emod_lt_of_pos (src^11) (by omega : 0 < N)
  have next : src^11 % N*(N-1) < 2^31 :=
    lt_of_le_of_lt (mul_le_mul_of_nonneg_right (by omega) (by omega)) square
  refine ⟨src^11 % N,rsaCrypt_power large nonneg fits (by decide),?_⟩
  rw [rsaCrypt_power large low next pos,pow_mul]
  exact congrArg some ((Int.mod_modEq (src^11) N).pow D.toNat)

/-- What is encrypted with the first exponent and decrypted with the second is the message modulo N,
whatever message the loops can take. -/
def Keys.Recovers (keys : Keys) : Prop :=
  ∀ src, 0 ≤ src → src*(keys.N-1) < 2^31 → ∃ enc, rsaCrypt keys.E keys.N src = some enc ∧
    rsaCrypt keys.D keys.N enc = some (src % keys.N)

section Recovers

variable {P Q : Nat} {D : Int}

/-- Two primes of the size that `getRandPrimeNum` gives. -/
structure Drawn (P Q : Nat) : Prop where
  first : P.Prime
  second : Q.Prime
  odd : P ≠ 2 ∧ Q ≠ 2
  high : P ≤ 37 ∧ Q ≤ 37
  low : 5 ≤ P ∧ 5 ≤ Q

variable (drawn : Drawn P Q)
include drawn

theorem Drawn.modulus : (1 : Int) < P*Q ∧ ((P*Q : Int)-1)*(P*Q-1) < 2^31 := by
  obtain ⟨highP,highQ⟩ := drawn.high
  obtain ⟨lowP,lowQ⟩ := drawn.low
  have least : (5 : Int)*5 ≤ P*Q := mul_le_mul (by omega) (by omega) (by omega) (by omega)
  have most : (P*Q : Int) ≤ 37*37 := mul_le_mul (by omega) (by omega) (by omega) (by omega)
  refine ⟨by omega,lt_of_le_of_lt (mul_le_mul (by omega : (P*Q : Int)-1 ≤ 1368)
    (by omega : (P*Q : Int)-1 ≤ 1368) (by omega) (by omega)) (by norm_num)⟩

/-- 23 is the one prime of them whose predecessor 11 divides. -/
theorem Drawn.gcd_eq_one (plain : P ≠ 23 ∧ Q ≠ 23) : Int.gcd 11 (((P : Int)-1)*(Q-1)) = 1 := by
  have away : ∀ {p : Nat}, p.Prime → p ≠ 2 → p ≤ 37 → 5 ≤ p → p ≠ 23 → Int.gcd 11 ((p : Int)-1) = 1 := by
    intro p prime odd high low other
    interval_cases p <;> first | rfl | exact absurd prime (by decide) | exact absurd rfl other
  have first := away drawn.first drawn.odd.1 drawn.high.1 drawn.low.1 plain.1
  have second := away drawn.second drawn.odd.2 drawn.high.2 drawn.low.2 plain.2
  rw [← Int.isCoprime_iff_gcd_eq_one] at first second ⊢
  exact first.mul_right second

theorem Drawn.exponent_pos (nonneg : 0 ≤ D)
    (exponent : 11*D ≡ Int.gcd 11 (((P : Int)-1)*(Q-1)) [ZMOD ((P : Int)-1)*(Q-1)]) : 0 < D := by
  obtain ⟨lowP,lowQ⟩ := drawn.low
  have large : (4 : Int)*4 ≤ ((P : Int)-1)*(Q-1) := mul_le_mul (by omega) (by omega) (by omega) (by omega)
  have small : Int.gcd 11 (((P : Int)-1)*(Q-1)) ≤ 11 := Int.gcd_le_natAbs_left _ (by decide)
  have some_ : 0 < Int.gcd 11 (((P : Int)-1)*(Q-1)) := Int.gcd_pos_of_ne_zero_left _ (by decide)
  refine lt_of_le_of_ne nonneg fun zero => ?_
  rw [← zero,mul_zero] at exponent
  have divides := Int.le_of_dvd (by omega) (Int.modEq_zero_iff_dvd.mp exponent.symm)
  omega

theorem Drawn.recovers (apart : P ≠ Q) (plain : P ≠ 23 ∧ Q ≠ 23) (nonneg : 0 ≤ D)
    (exponent : 11*D ≡ Int.gcd 11 (((P : Int)-1)*(Q-1)) [ZMOD ((P : Int)-1)*(Q-1)]) :
    Keys.Recovers ⟨11,D,P*Q⟩ := by
  intro src low fits
  obtain ⟨large,square⟩ := drawn.modulus
  have pos := drawn.exponent_pos nonneg exponent
  obtain ⟨enc,encrypted,decrypted⟩ := crypt_twice large square pos low fits
  refine ⟨enc,encrypted,decrypted.trans (congrArg some ?_)⟩
  rw [drawn.gcd_eq_one plain,Nat.cast_one] at exponent
  obtain ⟨k,turns⟩ := Int.modEq_iff_dvd.mp exponent.symm
  obtain ⟨lowP,lowQ⟩ := drawn.low
  obtain ⟨n,rfl⟩ := Int.eq_ofNat_of_zero_le nonneg
  have posL : (0 : Int) < ((P : Int)-1)*(Q-1) := mul_pos (by omega) (by omega)
  have whole : 0 ≤ k := by
    by_contra negative
    have := mul_neg_of_pos_of_neg posL (not_le.mp negative)
    omega
  obtain ⟨m,rfl⟩ := Int.eq_ofNat_of_zero_le whole
  have same := pow_modEq_self_mul drawn.first drawn.second apart (e := 11*n) ⟨m,?_⟩ src
  · exact_mod_cast same
  · zify [(by omega : 1 ≤ P),(by omega : 1 ≤ Q)]
    linarith

/-- A prime that is drawn twice does not come back itself. -/
theorem Drawn.square_lost (same : P = Q) (nonneg : 0 ≤ D)
    (exponent : 11*D ≡ Int.gcd 11 (((P : Int)-1)*(Q-1)) [ZMOD ((P : Int)-1)*(Q-1)]) :
    ¬ Keys.Recovers ⟨11,D,P*Q⟩ := by
  intro recovers
  obtain ⟨large,square⟩ := drawn.modulus
  have pos := drawn.exponent_pos nonneg exponent
  subst same
  have wide : (P : Int)*1 < P*P := mul_lt_mul_of_pos_left (by have := drawn.low; omega) (by have := drawn.low; omega)
  have fits : (P : Int)*(P*P-1) < 2^31 :=
    lt_of_le_of_lt (mul_le_mul_of_nonneg_right (by omega) (by omega)) square
  obtain ⟨enc,encrypted,decrypted⟩ := recovers P (by omega) fits
  obtain ⟨enc',encrypted',lost⟩ := crypt_twice large square pos (by omega) fits
  obtain rfl := Option.some.inj (encrypted.symm.trans encrypted')
  have gone : (P : Int)^(11*D.toNat) % (P*P) = 0 := by
    rw [← pow_two]
    exact Int.emod_eq_zero_of_dvd (pow_dvd_pow _ (by omega))
  have back : (P : Int) % (P*P) = _ := Option.some.inj (decrypted.symm.trans lost)
  rw [gone,Int.emod_eq_of_lt (by omega) (by omega)] at back
  have := drawn.low
  omega

/-- 2 has order 11 modulo 23. -/
theorem Drawn.two_lost (factor : P = 23 ∨ Q = 23) (nonneg : 0 ≤ D)
    (exponent : 11*D ≡ Int.gcd 11 (((P : Int)-1)*(Q-1)) [ZMOD ((P : Int)-1)*(Q-1)]) :
    ¬ Keys.Recovers ⟨11,D,P*Q⟩ := by
  intro recovers
  obtain ⟨large,square⟩ := drawn.modulus
  have pos := drawn.exponent_pos nonneg exponent
  have factor : (23 : Int) ∣ P*Q := by
    rcases factor with rfl | rfl
    · exact dvd_mul_right ..
    · exact dvd_mul_left ..
  have wide := Int.le_of_dvd (by omega) factor
  have fits : (2 : Int)*(P*Q-1) < 2^31 :=
    lt_of_le_of_lt (mul_le_mul_of_nonneg_right (by omega) (by omega)) square
  obtain ⟨enc,encrypted,decrypted⟩ := recovers 2 (by decide) fits
  obtain ⟨enc',encrypted',lost⟩ := crypt_twice large square pos (by decide) fits
  obtain rfl := Option.some.inj (encrypted.symm.trans encrypted')
  have back : 2^(11*D.toNat) ≡ 2 [ZMOD P*Q] := Option.some.inj (lost.symm.trans decrypted)
  have one : 2^(11*D.toNat) ≡ 1 [ZMOD 23] := by
    rw [pow_mul]
    exact ((by decide : (2 : Int)^11 ≡ 1 [ZMOD 23]).pow D.toNat).trans (by rw [one_pow])
  exact absurd ((back.of_dvd factor).symm.trans one) (by decide)

end Recovers

/-- `genKeys` gives keys for all that `rand` can give. They recover every message exactly when the primes
differ and neither is 23. -/
theorem rsa_recovers_iff {rand other : Nat} {p q : Int} (first : GetRandPrimeNum rand p)
    (second : GetRandPrimeNum other q) :
    ∃ keys, genKeys p q = some keys ∧ (keys.Recovers ↔ p ≠ q ∧ p ≠ 23 ∧ q ≠ 23) := by
  obtain ⟨primeP,highP,lowP⟩ := getRandPrimeNum_prime first
  obtain ⟨primeQ,highQ,lowQ⟩ := getRandPrimeNum_prime second
  have most : p*q ≤ 37*37 := mul_le_mul highP highQ (by omega) (by omega)
  obtain ⟨D,generated,nonneg,exponent⟩ := genKeys_some primeP primeQ (lt_of_le_of_lt most (by norm_num))
  refine ⟨_,generated,?_⟩
  obtain ⟨P,isPrimeP,oddP,rfl⟩ := primeP
  obtain ⟨Q,isPrimeQ,oddQ,rfl⟩ := primeQ
  have drawn : Drawn P Q := ⟨isPrimeP,isPrimeQ,⟨oddP,oddQ⟩,⟨by omega,by omega⟩,by omega,by omega⟩
  constructor
  · intro recovers
    refine ⟨fun same => ?_,fun factor => ?_,fun factor => ?_⟩
    · exact drawn.square_lost (Int.natCast_inj.mp same) nonneg exponent recovers
    · exact drawn.two_lost (Or.inl (by omega)) nonneg exponent recovers
    · exact drawn.two_lost (Or.inr (by omega)) nonneg exponent recovers
  · rintro ⟨apart,plainP,plainQ⟩
    exact drawn.recovers (fun same => apart (congrArg _ same)) ⟨by omega,by omega⟩ nonneg exponent

theorem drawn_at {rand : Nat} {num : Int} (begin_ : firstCandidate rand = num) (prime : OddPrime num) :
    GetRandPrimeNum rand num := by
  rw [GetRandPrimeNum,begin_]
  apply Lib.Loop.returns_done
  rw [searchPrime,if_neg (by rw [(isPrimeNumber_iff num).mpr prime]; decide)]

theorem rsa_recovers_iff_five_seven : ∃ keys, genKeys 5 7 = some keys ∧
    (keys.Recovers ↔ (5 : Int) ≠ 7 ∧ (5 : Int) ≠ 23 ∧ (7 : Int) ≠ 23) :=
  rsa_recovers_iff (@drawn_at 0 _ rfl ⟨5,by decide,by decide,rfl⟩)
    (@drawn_at 2 _ rfl ⟨7,by decide,by decide,rfl⟩)

end MoCodes.Rsa
