import Mathlib.FieldTheory.Finite.Basic
import Mathlib.Data.Int.GCD

/-! Powers that leave a residue as it is: modulo a prime, and modulo the product of two. -/
namespace MoCodes.Lib.PowerMod

variable {p q e : Nat}

/-- An exponent that is one more than a multiple of `p-1`. -/
theorem pow_modEq_self (prime : p.Prime) (exponent : ∃ k, e = (p-1)*k+1) (m : Int) : m^e ≡ m [ZMOD p] := by
  obtain ⟨k,rfl⟩ := exponent
  have : Fact p.Prime := ⟨prime⟩
  apply (ZMod.intCast_eq_intCast_iff _ _ p).mp
  push_cast
  rw [pow_add,pow_mul,pow_one]
  rcases eq_or_ne ((m : Int) : ZMod p) 0 with zero | unit
  · rw [zero,mul_zero]
  · rw [ZMod.pow_card_sub_one_eq_one unit,one_pow,one_mul]

theorem pow_modEq_self_mul (first : p.Prime) (second : q.Prime) (apart : p ≠ q)
    (exponent : ∃ k, e = (p-1)*(q-1)*k+1) (m : Int) : m^e ≡ m [ZMOD (p*q : Nat)] := by
  obtain ⟨k,rfl⟩ := exponent
  have coprime : ((p : Int).natAbs).Coprime ((q : Int).natAbs) := (Nat.coprime_primes first second).mpr apart
  rw [Nat.cast_mul]
  apply (Int.modEq_and_modEq_iff_modEq_mul coprime).mp
  constructor
  · exact pow_modEq_self first ⟨(q-1)*k,by rw [Nat.mul_assoc]⟩ m
  · exact pow_modEq_self second ⟨(p-1)*k,by rw [Nat.mul_comm (p-1),Nat.mul_assoc]⟩ m

/-- One step back of the extended Euclidean algorithm. -/
theorem bezout_back {a b x y r : Int} (given : b*x+(a % b)*y = r) : a*y+b*(x-a/b*y) = r := by
  have division := Int.emod_add_mul_ediv a b
  calc
    a*y+b*(x-a/b*y) = b*x+(a-b*(a/b))*y := by ring
    _ = b*x+(a % b)*y := by rw [show a-b*(a/b) = a % b by omega]
    _ = r := given

end MoCodes.Lib.PowerMod
