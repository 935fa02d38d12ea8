import MoCodes.Crypto.DesBits

/-! The single-block routines against FIPS 46-3. Every permutation and the key schedule
are the standard's; two S-box entries are not. A run that never reads one of them is
the standard's run, and one single read of them spoils the unit. -/
namespace MoCodes.Crypto.Des
open MoCodes.Lib.Bits MoCodes.Lib

section Boxes

/-- The inputs on which the tables differ: row 1, column 6 of S6 (0 for 9) and row 1,
column 5 of S7 (0 for 9). -/
def WrongEntry (bits : List Bool) : Prop :=
  (Fips46.row (Fips46.group bits 5) = 1 ∧ Fips46.column (Fips46.group bits 5) = 6) ∨
    (Fips46.row (Fips46.group bits 6) = 1 ∧ Fips46.column (Fips46.group bits 6) = 5)

instance (bits : List Bool) : Decidable (WrongEntry bits) :=
  inferInstanceAs (Decidable ((_ ∧ _) ∨ (_ ∧ _)))

theorem bitValue_bound (bits : List Bool) (i : Nat) : Fips46.bitValue bits i ≤ 1 :=
  Bool.toNat_le _

theorem row_bound (six : List Bool) : Fips46.row six < 4 := by
  have first := bitValue_bound six 0
  have last := bitValue_bound six 5
  unfold Fips46.row
  omega

theorem column_bound (six : List Bool) : Fips46.column six < 16 := by
  have b1 := bitValue_bound six 1
  have b2 := bitValue_bound six 2
  have b3 := bitValue_bound six 3
  have b4 := bitValue_bound six 4
  unfold Fips46.column
  omega

theorem tables_differ : ∀ i < 8, ∀ index < 64,
    (Fips46.substitutionBoxes.getD i []).getD index 0 = (gRoundSboxTable.getD i []).getD index 0 ↔
      (i,index) ≠ (5,22) ∧ (i,index) ≠ (6,21) := by
  decide +kernel

theorem entries_agree (bits : List Bool) :
    (∀ i < 8, Fips46.entry Fips46.substitutionBoxes i (Fips46.group bits i) =
      Fips46.entry gRoundSboxTable i (Fips46.group bits i)) ↔ ¬ WrongEntry bits := by
  have rows := fun i => row_bound (Fips46.group bits i)
  have columns := fun i => column_bound (Fips46.group bits i)
  have each := fun i bound => tables_differ i bound
    (16*Fips46.row (Fips46.group bits i)+Fips46.column (Fips46.group bits i))
    (by have := rows i; have := columns i; omega)
  constructor
  · intro same wrong
    cases wrong with
    | inl sixth =>
      have differ := ((each 5 (by decide)).mp (same 5 (by decide))).1
      exact differ (by rw [sixth.1,sixth.2])
    | inr seventh =>
      have differ := ((each 6 (by decide)).mp (same 6 (by decide))).2
      exact differ (by rw [seventh.1,seventh.2])
  · intro right i bound
    apply (each i bound).mpr
    constructor
    · intro wrong
      obtain ⟨rfl,index⟩ := Prod.mk.inj wrong
      have column := columns 5
      exact right (.inl ⟨by omega,by omega⟩)
    · intro wrong
      obtain ⟨rfl,index⟩ := Prod.mk.inj wrong
      have column := columns 6
      exact right (.inr ⟨by omega,by omega⟩)

theorem nibble_injective : ∀ first < 16, ∀ second < 16,
    Fips46.nibble first = Fips46.nibble second → first = second := by
  decide +kernel

theorem flatMap_pieces {items : List Nat} {first second : Nat → List Bool}
    (length : ∀ i, (first i).length = (second i).length) :
    items.flatMap first = items.flatMap second ↔ ∀ i ∈ items, first i = second i := by
  induction items with
  | nil => simp
  | cons i items ih =>
    rw [List.flatMap_cons,List.flatMap_cons,List.forall_mem_cons,← ih]
    constructor
    · intro same
      exact List.append_inj same (length i)
    · rintro ⟨head,tail⟩
      rw [head,tail]

theorem substitute_length (boxes : List (List Nat)) (bits : List Bool) :
    (Fips46.substitute boxes bits).length = 32 := by
  simp [Fips46.substitute,Fips46.nibble,List.range_succ]

theorem boxes_small : ∀ box ∈ Fips46.substitutionBoxes, ∀ value ∈ box, value < 16 := by
  decide +kernel

theorem substitute_agree (bits : List Bool) : Fips46.substitute Fips46.substitutionBoxes bits =
    Fips46.substitute gRoundSboxTable bits ↔ ¬ WrongEntry bits := by
  have nibbles : ∀ first second, (Fips46.nibble first).length = (Fips46.nibble second).length :=
    fun _ _ => rfl
  rw [← entries_agree,Fips46.substitute,Fips46.substitute,flatMap_pieces fun i => nibbles _ _]
  constructor
  · intro same i bound
    exact nibble_injective _ (entry_bound boxes_small i _) _ (entry_bound sboxTable_small i _)
      (same i (List.mem_range.mpr bound))
  · intro same i member
    rw [same i (List.mem_range.mp member)]

theorem permutation_onto : ∀ pos < 32, pos+1 ∈ Fips46.permutation := by decide

theorem inversePermutation_onto : ∀ pos < 64, pos+1 ∈ Fips46.inversePermutation := by decide

theorem cipher_agree (key right : List Bool) : Fips46.cipher Fips46.substitutionBoxes key right =
    Fips46.cipher gRoundSboxTable key right ↔ ¬ WrongEntry (Fips46.boxInput key right) := by
  rw [← substitute_agree]
  constructor
  · intro same
    exact select_injective permutation_onto (substitute_length _ _) (substitute_length _ _) same
  · intro same
    rw [Fips46.cipher,same,Fips46.cipher]

end Boxes

section Network

def WrongRound (keys : Nat → List Bool) (block : List Bool) (i : Nat) : Prop :=
  WrongEntry (Fips46.boxInput (keys i) (Fips46.halves Fips46.substitutionBoxes keys i block).2)

instance (keys : Nat → List Bool) (block : List Bool) (i : Nat) : Decidable (WrongRound keys block i) :=
  inferInstanceAs (Decidable (WrongEntry _))

variable (keys : Nat → List Bool) (block : List Bool)

theorem cipher_half (boxes : List (List Nat)) (i : Nat) (right : List Bool) :
    Fips46.xorMixer.Half right → Fips46.xorMixer.Half (Fips46.cipher boxes (keys i) right) := by
  intro _
  exact select_length _ _

theorem halves_start : Feistel.Block Fips46.xorMixer
    ((select Fips46.initialPermutation block).take 32,(select Fips46.initialPermutation block).drop 32) := by
  constructor <;> simp [Fips46.xorMixer,Fips46.initialPermutation]

theorem halves_agree : (∀ i ≤ 16, Fips46.halves Fips46.substitutionBoxes keys i block =
    Fips46.halves gRoundSboxTable keys i block) ↔ ∀ i < 16, ¬ WrongRound keys block i := by
  have network := Feistel.rounds_agree (cipher_half keys Fips46.substitutionBoxes)
    (cipher_half keys gRoundSboxTable) (halves_start block) 16
  apply network.trans
  apply forall₂_congr
  intro i _
  exact cipher_agree _ _

theorem halves_single {k : Nat} (inside : k < 16) (wrong : WrongRound keys block k)
    (only : ∀ i < 16, WrongRound keys block i → i = k) :
    Fips46.halves Fips46.substitutionBoxes keys 16 block ≠ Fips46.halves gRoundSboxTable keys 16 block := by
  apply Feistel.rounds_single (cipher_half keys _) (cipher_half keys _) (halves_start block) inside
  · exact fun agree => (cipher_agree _ _).mp agree wrong
  · intro i bound other
    exact (cipher_agree _ _).mpr fun hit => other (only i bound hit)

theorem halves_lengths (boxes : List (List Nat)) :
    (Fips46.halves boxes keys 16 block).1.length = 32 ∧ (Fips46.halves boxes keys 16 block).2.length = 32 :=
  Feistel.rounds_block (cipher_half keys boxes) (halves_start block) 16

theorem crypt_injective {first second : List (List Nat)}
    (same : Fips46.crypt first keys block = Fips46.crypt second keys block) :
    Fips46.halves first keys 16 block = Fips46.halves second keys 16 block := by
  obtain ⟨left,right⟩ := halves_lengths keys block first
  obtain ⟨left',right'⟩ := halves_lengths keys block second
  have joined := select_injective inversePermutation_onto (by simp [left,right]) (by simp [left',right']) same
  obtain ⟨second,first⟩ := List.append_inj joined (right.trans right'.symm)
  exact Prod.ext first second

end Network

section Routines

variable (key block : List UInt8)

theorem encryptKeyAt_length : ∀ i < 16, (encryptKeyAt (keyExpand key) i).length = 6 :=
  fun _ bound => keyExpand_length key bound

theorem encryptKeyAt_bits : ∀ i < 16,
    bitsOf (encryptKeyAt (keyExpand key) i) = Fips46.encryptKeys (bitsOf key) i :=
  fun _ bound => keyExpand_bits key bound

theorem decryptKeyAt_length : ∀ i < 16, (decryptKeyAt (keyExpand key) i).length = 6 :=
  fun i _ => keyExpand_length key (show 16-i-1 < 16 by omega)

theorem decryptKeyAt_bits : ∀ i < 16,
    bitsOf (decryptKeyAt (keyExpand key) i) = Fips46.decryptKeys (bitsOf key) i := by
  intro i bound
  have order : 16-i-1 = 15-i := by omega
  rw [decryptKeyAt,order]
  exact keyExpand_bits key (by omega)

/-- The routine is the standard's computation: in the halves after every round and in
the unit it leaves. -/
structure AsStandard (keyAt : Nat → List UInt8) (keys : Nat → List Bool) (pDstUnit : List UInt8) :
    Prop where
  rounds : ∀ loopCnt ≤ 16, halvesBits (cryptRounds keyAt loopCnt block) =
    Fips46.halves Fips46.substitutionBoxes keys loopCnt (bitsOf block)
  unit : bitsOf pDstUnit = Fips46.crypt Fips46.substitutionBoxes keys (bitsOf block)

variable {keyAt : Nat → List UInt8} {keys : Nat → List Bool}
  (sizes : ∀ i < 16, (keyAt i).length = 6) (same : ∀ i < 16, bitsOf (keyAt i) = keys i)
include sizes same

theorem unitCrypt_standard : AsStandard block keyAt keys (unitCrypt keyAt block) ↔
    ∀ i < 16, ¬ WrongRound keys (bitsOf block) i := by
  constructor
  · intro standard
    apply (halves_agree keys (bitsOf block)).mp
    intro i bound
    rw [← standard.rounds i bound,cryptRounds_bits _ sizes same bound]
  · intro right
    have agree := (halves_agree keys (bitsOf block)).mpr right
    constructor
    · intro loopCnt bound
      rw [cryptRounds_bits _ sizes same bound,agree loopCnt bound]
    · rw [unitCrypt_bits sizes same,Fips46.crypt,Fips46.crypt,agree 16 (le_refl 16)]

theorem unitCrypt_spoiled (once : ∃! i, i < 16 ∧ WrongRound keys (bitsOf block) i) :
    bitsOf (unitCrypt keyAt block) ≠ Fips46.crypt Fips46.substitutionBoxes keys (bitsOf block) := by
  obtain ⟨k,⟨inside,wrong⟩,only⟩ := once
  rw [unitCrypt_bits sizes same]
  intro equal
  exact halves_single keys _ inside wrong (fun i bound hit => only i ⟨bound,hit⟩)
    (crypt_injective keys _ equal).symm

end Routines

/-- Encryption and decryption are FIPS 46-3 on exactly the units whose standard run
reads no wrong entry; with one such read the unit left is not the standard's. -/
theorem unit_standard_iff (key block : List UInt8) :
    (AsStandard block (encryptKeyAt (keyExpand key)) (Fips46.encryptKeys (bitsOf key))
        (unitEncrypt block (keyExpand key)) ↔
      ∀ i < 16, ¬ WrongRound (Fips46.encryptKeys (bitsOf key)) (bitsOf block) i) ∧
    (AsStandard block (decryptKeyAt (keyExpand key)) (Fips46.decryptKeys (bitsOf key))
        (unitDecrypt block (keyExpand key)) ↔
      ∀ i < 16, ¬ WrongRound (Fips46.decryptKeys (bitsOf key)) (bitsOf block) i) ∧
    ((∃! i, i < 16 ∧ WrongRound (Fips46.encryptKeys (bitsOf key)) (bitsOf block) i) →
      bitsOf (unitEncrypt block (keyExpand key)) ≠ Fips46.encrypt (bitsOf key) (bitsOf block)) ∧
    ((∃! i, i < 16 ∧ WrongRound (Fips46.decryptKeys (bitsOf key)) (bitsOf block) i) →
      bitsOf (unitDecrypt block (keyExpand key)) ≠ Fips46.decrypt (bitsOf key) (bitsOf block)) := by
  refine ⟨?_,?_,?_,?_⟩
  · exact unitCrypt_standard block (encryptKeyAt_length key) (encryptKeyAt_bits key)
  · exact unitCrypt_standard block (decryptKeyAt_length key) (decryptKeyAt_bits key)
  · exact unitCrypt_spoiled block (encryptKeyAt_length key) (encryptKeyAt_bits key)
  · exact unitCrypt_spoiled block (decryptKeyAt_length key) (decryptKeyAt_bits key)

theorem halves_differ : Fips46.halves gRoundSboxTable (Fips46.encryptKeys (bitsOf [1,1,1,1,1,1,1,1])) 16
    (bitsOf [0,0,0,0,0,0,0,4]) ≠ Fips46.halves Fips46.substitutionBoxes
      (Fips46.encryptKeys (bitsOf [1,1,1,1,1,1,1,1])) 16 (bitsOf [0,0,0,0,0,0,0,4]) := by
  decide +kernel

/-- The standard gives D2FD8867D50D2DFE here, the code D2FD886795092DFE. -/
theorem unitEncrypt_differs :
    bitsOf (unitEncrypt [0,0,0,0,0,0,0,4] (keyExpand [1,1,1,1,1,1,1,1])) ≠
      Fips46.encrypt (bitsOf [1,1,1,1,1,1,1,1]) (bitsOf [0,0,0,0,0,0,0,4]) := by
  have bits : bitsOf (unitEncrypt [0,0,0,0,0,0,0,4] (keyExpand [1,1,1,1,1,1,1,1])) = _ :=
    unitCrypt_bits (encryptKeyAt_length _) (encryptKeyAt_bits _)
  rw [bits]
  exact fun same => halves_differ (crypt_injective _ _ same)

end MoCodes.Crypto.Des
