import MoCodes.Crypto.Rc4

/-! The state vector of moCrypt_RC4.c while it is shuffled and while bytes of the key stream are made. -/
namespace MoCodes.Crypto.Rc4Vector
open MoCodes.Lib.KeyStream MoCodes.Crypto.Rc4

/-- 0..255. -/
def byteValues : List UInt8 := (List.range vectorLen).map UInt8.ofNat

/-- What `genCipherStream` leaves in `vectorS` and in its two indices. -/
def cursorAfter (txtLen : Nat) (start : Cursor) : Cursor := (fun state => (genCipherStep state).2)^[txtLen] start

/-- The vector of a key, with the bytes of the stream that have been made. -/
def vectorAfter (key : List UInt8) (txtLen : Nat) : List UInt8 := (cursorAfter txtLen ⟨keyedVector key key.length,0,0⟩).vectorS

/-- The stream goes on from there. -/
theorem genCipherStream_add (made more : Nat) (vectorS : List UInt8) :
    genCipherStream (made+more) vectorS =
      genCipherStream made vectorS ++ stream genCipherStep more (cursorAfter made ⟨vectorS,0,0⟩) := by
  rw [genCipherStream,genCipherStream]
  generalize Cursor.mk vectorS 0 0 = start
  induction made generalizing start with
  | zero =>
    rw [Nat.zero_add]
    rfl
  | succ made ih =>
    rw [Nat.succ_add,stream,stream,ih]
    rfl

theorem mod_inside {vectorS : List UInt8} (values : vectorS.Perm byteValues) (n : Nat) : n%vectorLen < vectorS.length := by
  rw [values.length_eq,byteValues,List.length_map,List.length_range]
  exact Nat.mod_lt n (by decide)

theorem swap_perm {vectorS : List UInt8} {i j : Nat} (first : i < vectorS.length) (second : j < vectorS.length) :
    (swap vectorS i j).Perm vectorS := by
  rw [swap,List.getD_eq_getElem _ 0 first,List.getD_eq_getElem _ 0 second]
  exact List.set_set_perm first second

theorem rangeStep_perm {vectorT vectorS : List UInt8} {j i : Nat} (values : vectorS.Perm byteValues) (inside : i < vectorLen) :
    (rangeStep vectorT (vectorS,j) i).1.Perm byteValues := by
  have first := mod_inside values i
  rw [Nat.mod_eq_of_lt inside] at first
  exact (swap_perm first (mod_inside values _)).trans values

/-- All through the shuffling, whatever is in the key vector. -/
theorem rangeFold_perm {vectorT vectorS : List UInt8} {j : Nat} {indices : List Nat} (values : vectorS.Perm byteValues)
    (inside : ∀ i ∈ indices, i < vectorLen) : (indices.foldl (rangeStep vectorT) (vectorS,j)).1.Perm byteValues := by
  induction indices generalizing vectorS j with
  | nil => exact values
  | cons i indices ih =>
    obtain ⟨head,rest⟩ := List.forall_mem_cons.mp inside
    exact ih (rangeStep_perm values head) rest

theorem keyedVector_perm (key : List UInt8) (keylen : Nat) : (keyedVector key keylen).Perm byteValues := by
  apply rangeFold_perm
  · exact List.Perm.refl _
  · exact fun i among => List.mem_range.mp among

theorem genCipherStep_perm {state : Cursor} (values : state.vectorS.Perm byteValues) :
    (genCipherStep state).2.vectorS.Perm byteValues :=
  (swap_perm (mod_inside values _) (mod_inside values _)).trans values

theorem cursorAfter_perm (txtLen : Nat) {start : Cursor} (values : start.vectorS.Perm byteValues) :
    (cursorAfter txtLen start).vectorS.Perm byteValues := by
  induction txtLen generalizing start with
  | zero => exact values
  | succ txtLen ih => exact ih (genCipherStep_perm values)

theorem vectorAfter_permutation (key : List UInt8) (txtLen : Nat) : (vectorAfter key txtLen).Perm byteValues := by
  have scheduled := keyedVector_perm key key.length
  rw [vectorAfter]
  generalize keyedVector key key.length = vectorS at *
  exact cursorAfter_perm txtLen scheduled

end MoCodes.Crypto.Rc4Vector
