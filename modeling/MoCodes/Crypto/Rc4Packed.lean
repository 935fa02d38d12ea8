import MoCodes.Crypto.Rc4Reference
import Mathlib.Data.Nat.Bitwise
import Mathlib.Data.List.FinRange
import Mathlib.Data.List.GetD

/-! A fast evaluation of the reference stream. The permutation is packed into one number,
byte `k` of it is the value at `k`, and a swap is two exclusive ors. -/
namespace MoCodes.Crypto.Rc4Packed
open MoCodes.Lib MoCodes.Crypto.Rc4Reference

/-- Evaluates a number before it goes on with it, so that no step is done twice. -/
def force {α : Type} (n : Nat) (next : Nat → α) : α :=
  match n with
  | 0 => next 0
  | m+1 => next (m+1)

@[simp] theorem force_eq {α : Type} (n : Nat) (next : Nat → α) : force n next = next n := by
  cases n with
  | zero => rfl
  | succ n => rfl

def byteAt (v k : Nat) : Nat := (v >>> (8*k))%256

def swapBytes (v i j a b : Nat) : Nat := (v ^^^ ((a ^^^ b) <<< (8*i))) ^^^ ((a ^^^ b) <<< (8*j))

def pack : List Nat → Nat
  | [] => 0
  | byte::bytes => byte+256*pack bytes

def shuffleFrom (key : List UInt8) : Nat → Nat → Nat → Nat → Nat
  | 0,_,v,_ => v
  | n+1,i,v,j => force (byteAt v i) fun a =>
    force ((j+a+(key.getD (i%key.length) 0).toNat)%256) fun j =>
    force (swapBytes v i j a (byteAt v j)) fun v =>
    force (i+1) fun i => shuffleFrom key n i v j

def packedStep {α : Type} (v i j : Nat) (next : Nat → Nat → Nat → Nat → α) : α :=
  force ((i+1)%256) fun i =>
  force (byteAt v i) fun a =>
  force ((j+a)%256) fun j =>
  force (byteAt v j) fun b =>
  force (swapBytes v i j a b) fun v => next v i j ((b+a)%256)

def symbolFrom : Nat → Nat → Nat → Nat → Nat
  | 0,v,i,j => packedStep v i j fun v _ _ t => byteAt v t
  | n+1,v,i,j => packedStep v i j fun v i j _ => symbolFrom n v i j

def packedSymbol (key : List UInt8) (n : Nat) : Nat :=
  force (shuffleFrom key 256 0 (pack (List.range 256)) 0) fun v => symbolFrom n v 0 0

def Packs (v : Nat) (S : Equiv.Perm (Fin 256)) : Prop := ∀ k : Fin 256, byteAt v k = (S k).val

theorem byteAt_lt (v k : Nat) : byteAt v k < 256 := by
  rw [byteAt]
  omega

theorem byteAt_testBit (v k : Nat) {n : Nat} (inside : n < 8) :
    (byteAt v k).testBit n = v.testBit (8*k+n) := by
  have power : 256 = 2^8 := rfl
  rw [byteAt,power,Nat.testBit_mod_two_pow,Nat.testBit_shiftRight]
  simp [inside]

theorem byte_ext {a b : Nat} (first : a < 256) (second : b < 256)
    (same : ∀ n, n < 8 → a.testBit n = b.testBit n) : a = b := by
  apply Nat.eq_of_testBit_eq
  intro n
  rcases Nat.lt_or_ge n 8 with inside | outside
  · exact same n inside
  · have power : 2^8 ≤ 2^n := Nat.pow_le_pow_right (by decide) outside
    rw [Nat.testBit_lt_two_pow (by omega),Nat.testBit_lt_two_pow (by omega)]

theorem byteAt_xor (v k i d : Nat) (small : d < 256) :
    byteAt (v ^^^ (d <<< (8*i))) k = byteAt v k ^^^ (if i = k then d else 0) := by
  have bound : (if i = k then d else 0) < 2^8 := by split <;> omega
  apply byte_ext (byteAt_lt _ _) (Nat.xor_lt_two_pow (byteAt_lt v k) bound)
  intro n inside
  rw [byteAt_testBit _ _ inside,Nat.testBit_xor,Nat.testBit_xor,byteAt_testBit _ _ inside,
    Nat.testBit_shiftLeft]
  congr 1
  rcases Nat.lt_trichotomy i k with below | rfl | above
  · have high : 2^8 ≤ 2^(8*k+n-8*i) := Nat.pow_le_pow_right (by decide) (by omega)
    rw [if_neg (by omega),Nat.testBit_lt_two_pow (by omega)]
    simp
  · simp
  · have low : ¬8*k+n ≥ 8*i := by omega
    simp [low,Nat.ne_of_gt above]

theorem swapBytes_packs {v : Nat} {S : Equiv.Perm (Fin 256)} (packs : Packs v S) (i j : Fin 256) :
    Packs (swapBytes v i j (byteAt v i) (byteAt v j)) (S * Equiv.swap i j) := by
  intro k
  have small : byteAt v i ^^^ byteAt v j < 256 :=
    Nat.xor_lt_two_pow (n := 8) (byteAt_lt v i) (byteAt_lt v j)
  rw [swapBytes,byteAt_xor _ _ _ _ small,byteAt_xor _ _ _ _ small,Equiv.Perm.mul_apply]
  rcases eq_or_ne i k with rfl | notI
  · rcases eq_or_ne j i with rfl | notJ
    · simpa using packs j
    · rw [if_pos rfl,if_neg (Fin.val_ne_of_ne notJ),Nat.xor_zero,← Nat.xor_assoc,Nat.xor_self,
        Nat.zero_xor,Equiv.swap_apply_left,packs j]
  · rw [if_neg (Fin.val_ne_of_ne notI),Nat.xor_zero]
    rcases eq_or_ne j k with rfl | notJ
    · rw [if_pos rfl,Nat.xor_comm (byteAt v i),← Nat.xor_assoc,Nat.xor_self,Nat.zero_xor,
        Equiv.swap_apply_right,packs i]
    · rw [if_neg (Fin.val_ne_of_ne notJ),Nat.xor_zero,
        Equiv.swap_apply_of_ne_of_ne notI.symm notJ.symm,packs k]

theorem byteAt_pack (bytes : List Nat) (small : ∀ byte ∈ bytes, byte < 256) (k : Nat) :
    byteAt (pack bytes) k = bytes.getD k 0 := by
  induction bytes generalizing k with
  | nil => simp [byteAt,pack]
  | cons byte bytes ih =>
    have head := small byte List.mem_cons_self
    cases k with
    | zero =>
      simp only [byteAt,pack,Nat.mul_zero,Nat.shiftRight_zero,List.getD_cons_zero]
      omega
    | succ k =>
      have shifted : (byte+256*pack bytes) >>> (8*(k+1)) = pack bytes >>> (8*k) := by
        rw [Nat.mul_succ,Nat.add_comm (8*k),Nat.shiftRight_add,Nat.shiftRight_eq_div_pow _ 8]
        congr 1
        omega
      have rest := ih (fun other inside => small other (List.mem_cons_of_mem _ inside)) k
      simpa only [byteAt,pack,shifted,List.getD_cons_succ] using rest

theorem pack_range : Packs (pack (List.range 256)) 1 := by
  intro k
  rw [byteAt_pack _ (fun byte inside => List.mem_range.mp inside)]
  simp

theorem shuffleFrom_packs (key : List UInt8) (n i : Nat) (whole : i+n = 256) {v : Nat}
    {S : Equiv.Perm (Fin 256)} (packs : Packs v S) (j : Fin 256) :
    Packs (shuffleFrom key n i v j) (((List.finRange 256).drop i).foldl (shuffle key) (S,j)).1 := by
  induction n generalizing i v S j with
  | zero =>
    have none : (List.finRange 256).drop i = [] := List.drop_eq_nil_of_le (by simp; omega)
    simpa [shuffleFrom,none] using packs
  | succ n ih =>
    have inside : i < 256 := by omega
    have next : (List.finRange 256).drop i = ⟨i,inside⟩::(List.finRange 256).drop (i+1) := by
      rw [List.drop_eq_getElem_cons (by simpa using inside)]
      simp
    have index : (j.val+byteAt v i+(key.getD (i%key.length) 0).toNat)%256 =
        (j+S ⟨i,inside⟩+keyValue key ⟨i,inside⟩).val := by
      rw [packs ⟨i,inside⟩,Fin.val_add,Fin.val_add]
      simp [keyValue]
    have swapped := swapBytes_packs packs ⟨i,inside⟩ (j+S ⟨i,inside⟩+keyValue key ⟨i,inside⟩)
    simp only [shuffleFrom,force_eq,next,List.foldl_cons,index]
    exact ih (i+1) (by omega) swapped _

theorem packedStep_packs {α : Type} {v : Nat} {state : State} (packs : Packs v state.S)
    (next : Nat → Nat → Nat → Nat → α) :
    ∃ v', Packs v' (step state).2.S ∧
      packedStep v state.i state.j next =
        next v' (step state).2.i (step state).2.j
          ((step state).2.S (step state).2.i+(step state).2.S (step state).2.j).val := by
  have i : (state.i.val+1)%256 = (step state).2.i.val := by
    rw [step,Fin.val_add]
    rfl
  have j : (state.j.val+byteAt v (step state).2.i)%256 = (step state).2.j.val := by
    rw [packs,step,Fin.val_add]
  have swapped := swapBytes_packs packs (step state).2.i (step state).2.j
  refine ⟨_,swapped,?_⟩
  have sum : (byteAt v (step state).2.j+byteAt v (step state).2.i)%256 =
      ((step state).2.S (step state).2.i+(step state).2.S (step state).2.j).val := by
    rw [packs,packs,← Fin.val_add]
    simp [step]
  simp only [packedStep,force_eq,i,j,sum]

theorem symbolFrom_packs (n : Nat) {v : Nat} {state : State} (packs : Packs v state.S) :
    symbolFrom n v state.i state.j = (KeyStream.symbol step state n).toNat := by
  induction n generalizing v state with
  | zero =>
    obtain ⟨v',after,same⟩ := packedStep_packs packs fun v _ _ t => byteAt v t
    rw [symbolFrom,same,after,KeyStream.symbol_zero,step]
    simp
  | succ n ih =>
    obtain ⟨v',after,same⟩ := packedStep_packs packs fun v i j _ => symbolFrom n v i j
    rw [symbolFrom,same,ih after,KeyStream.symbol_succ]

theorem packedSymbol_eq (key : List UInt8) (n : Nat) :
    packedSymbol key n = (cipherStream key n).toNat := by
  have shuffled := shuffleFrom_packs key 256 0 rfl pack_range 0
  rw [List.drop_zero,← schedule] at shuffled
  have symbols := @symbolFrom_packs n _ ⟨schedule key,0,0⟩ shuffled
  rw [packedSymbol,force_eq,cipherStream,start,← symbols]
  rfl

end MoCodes.Crypto.Rc4Packed
