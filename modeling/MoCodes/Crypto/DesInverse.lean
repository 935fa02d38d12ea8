import MoCodes.Crypto.DesStandard

/-! The two single-block routines undo each other, whatever the S-boxes hold: they run the
same network with the sub-keys in opposite order. -/
namespace MoCodes.Crypto.Des
open MoCodes.Lib.Bits MoCodes.Lib

theorem initial_inverse {bits : List Bool} (size : bits.length = 64) :
    select Fips46.initialPermutation (select Fips46.inversePermutation bits) = bits :=
  select_select rfl (by decide) size

theorem inverse_initial {bits : List Bool} (size : bits.length = 64) :
    select Fips46.inversePermutation (select Fips46.initialPermutation bits) = bits :=
  select_select rfl (by decide) size

section Network

variable {boxes : List (List Nat)} {keys reversed : Nat → List Bool} {block : List Bool}

theorem crypt_reverse (boxes : List (List Nat)) (reverse : ∀ i < 16, reversed i = keys (15-i))
    (size : block.length = 64) :
    Fips46.crypt boxes reversed (Fips46.crypt boxes keys block) = block := by
  obtain ⟨left,right⟩ := halves_lengths keys block boxes
  have whole : ((Fips46.halves boxes keys 16 block).2 ++ (Fips46.halves boxes keys 16 block).1).length = 64 := by
    rw [List.length_append,left,right]
  have network := Feistel.rounds_reverse (cipher_half keys boxes) (n := 16)
    (g := fun i => Fips46.cipher boxes (reversed i))
    (fun i bound => by rw [reverse i bound]) (halves_start block)
  have back : Fips46.halves boxes reversed 16 (Fips46.crypt boxes keys block) =
      ((select Fips46.initialPermutation block).drop 32,(select Fips46.initialPermutation block).take 32) := by
    rw [Fips46.halves,Fips46.crypt,initial_inverse whole,List.take_left' right,List.drop_left' right]
    exact network
  rw [Fips46.crypt,back,List.take_append_drop,inverse_initial size]

end Network

section Units

variable {keyAt reversedAt : Nat → List UInt8} {keys reversed : Nat → List Bool} {block : List UInt8}

theorem unitCrypt_length (keyAt : Nat → List UInt8) (block : List UInt8) :
    (unitCrypt keyAt block).length = 8 :=
  bitConv_length _ _ _

theorem unitCrypt_reverse (sizes : ∀ i < 16, (keyAt i).length = 6)
    (same : ∀ i < 16, bitsOf (keyAt i) = keys i) (reversedSizes : ∀ i < 16, (reversedAt i).length = 6)
    (reversedSame : ∀ i < 16, bitsOf (reversedAt i) = reversed i)
    (reverse : ∀ i < 16, reversed i = keys (15-i)) (size : block.length = 8) :
    unitCrypt reversedAt (unitCrypt keyAt block) = block := by
  apply bitsOf_injective
  rw [unitCrypt_bits reversedSizes reversedSame,unitCrypt_bits sizes same]
  exact crypt_reverse gRoundSboxTable reverse (by rw [bitsOf_length,size])

variable (pKey : List UInt8)

theorem unitDecrypt_unitEncrypt (size : block.length = 8) :
    unitDecrypt (unitEncrypt block (keyExpand pKey)) (keyExpand pKey) = block :=
  unitCrypt_reverse (encryptKeyAt_length pKey) (encryptKeyAt_bits pKey) (decryptKeyAt_length pKey)
    (decryptKeyAt_bits pKey) (fun _ _ => rfl) size

theorem unitEncrypt_unitDecrypt (size : block.length = 8) :
    unitEncrypt (unitDecrypt block (keyExpand pKey)) (keyExpand pKey) = block := by
  refine unitCrypt_reverse (decryptKeyAt_length pKey) (decryptKeyAt_bits pKey)
    (encryptKeyAt_length pKey) (encryptKeyAt_bits pKey) ?_ size
  intro i bound
  have order : 15-(15-i) = i := by omega
  rw [Fips46.encryptKeys,Fips46.decryptKeys,order]

end Units

end MoCodes.Crypto.Des
