import MoCodes.MoCloud.Server.SendFile
import Mathlib.Data.List.TakeWhile

/-! Numbers as `snprintf` writes them, and as `atoi` reads them. -/
namespace MoCodes.MoCloud
open Server Server.SendFile

/-- `%d`. -/
def printInt (value : Int) : Text :=
  (if value < 0 then [45] else []) ++ (Nat.toDigits 10 value.natAbs).map fun digit => UInt8.ofNat digit.toNat

theorem text_toString (value : Int) : text (toString value) = printInt value := by
  cases value with
  | ofNat n =>
    have nonneg : ¬ Int.ofNat n < 0 := by simp
    rw [printInt,if_neg nonneg,text]
    change (Nat.repr n).toList.map _ = _
    simp [Nat.repr_eq_ofList_toDigits]
  | negSucc n =>
    have negative : Int.negSucc n < 0 := Int.negSucc_lt_zero n
    rw [printInt,if_pos negative,text]
    change ("-" ++ Nat.repr (n+1)).toList.map _ = _
    simp [Nat.repr_eq_ofList_toDigits]

def digitText (value : Nat) : Text := (Nat.toDigits 10 value).map fun digit => UInt8.ofNat digit.toNat

theorem digit_bounds {value : Nat} {digit : Char} (member : digit ∈ Nat.toDigits 10 value) :
    48 ≤ digit.toNat ∧ digit.toNat ≤ 57 := by
  have isDigit := Nat.isDigit_of_mem_toDigits (by decide) (by decide) member
  simpa [Char.isDigit,UInt32.le_iff_toNat_le] using isDigit

theorem digit_toNat {value : Nat} {digit : Char} (member : digit ∈ Nat.toDigits 10 value) :
    (UInt8.ofNat digit.toNat).toNat = digit.toNat := by
  rw [UInt8.toNat_ofNat']
  exact Nat.mod_eq_of_lt (Nat.lt_of_le_of_lt (digit_bounds member).2 (by decide))

theorem digitText_digits {value : Nat} {char : UInt8} (member : char ∈ digitText value) :
    48 ≤ char.toNat ∧ char.toNat ≤ 57 := by
  obtain ⟨digit,among,rfl⟩ := List.mem_map.mp member
  rw [digit_toNat among]
  exact digit_bounds among

theorem decimal_digitText (value : Nat) : decimal (digitText value) = value := by
  have same : ∀ (digits : List Char) (front : Nat), (∀ digit ∈ digits, digit ∈ Nat.toDigits 10 value) →
      (digits.map fun digit => UInt8.ofNat digit.toNat).foldl (fun value digit => value*10+(digit.toNat-48)) front =
        Nat.ofDigitChars 10 digits front := by
    intro digits
    induction digits with
    | nil => intro front _; rfl
    | cons digit digits ih =>
      intro front all
      rw [List.map_cons,List.foldl_cons,ih _ fun other among => all other (List.mem_cons_of_mem _ among),
        digit_toNat (all digit List.mem_cons_self),Nat.ofDigitChars_cons,Nat.mul_comm]
      rfl
  rw [decimal,digitText,same _ 0 fun _ => id]
  exact Nat.ofDigitChars_ten_toDigits

theorem digitText_cons (value : Nat) : ∃ char rest, digitText value = char :: rest ∧ 48 ≤ char.toNat ∧ char.toNat ≤ 57 := by
  cases digits : digitText value with
  | nil => exact absurd (List.map_eq_nil_iff.mp digits) Nat.toDigits_ne_nil
  | cons char rest => exact ⟨char,rest,rfl,digitText_digits (digits ▸ List.mem_cons_self)⟩

/-- Digits begin with no sign. -/
theorem digitText_head (value : Nat) (rest : Text) {other : UInt8} (less : other.toNat < 48) :
    (digitText value ++ rest).head? ≠ some other := by
  obtain ⟨char,more,first,least,_⟩ := digitText_cons value
  rw [first]
  rintro ⟨⟩
  omega

/-- Digits begin with no blank. -/
theorem digitText_seen (value : Nat) (rest : Text) :
    (digitText value ++ rest).dropWhile isSpace = digitText value ++ rest := by
  obtain ⟨char,more,first,least,most⟩ := digitText_cons value
  have plain : char ≠ 32 := by
    rintro rfl
    exact absurd least (by decide)
  have visible : isSpace char = false := by
    simp [isSpace,UInt8.le_iff_toNat_le,plain]
    omega
  rw [first,List.cons_append,List.dropWhile_cons_of_neg (by simp [visible])]

/-- No digit follows. -/
def NoDigit (rest : Text) : Prop := ∀ char ∈ rest.head?, isDigit char = false

theorem takeWhile_digits {value : Nat} {rest : Text} (ends : NoDigit rest) :
    (digitText value ++ rest).takeWhile isDigit = digitText value := by
  have all : ∀ char ∈ digitText value, isDigit char = true := by
    intro char member
    obtain ⟨low,high⟩ := digitText_digits member
    simp [isDigit,UInt8.le_iff_toNat_le,low,high]
  rw [List.takeWhile_append_of_pos all]
  cases rest with
  | nil => rw [List.takeWhile_nil,List.append_nil]
  | cons char rest => rw [List.takeWhile_cons_of_neg (by simp [ends char rfl]),List.append_nil]

theorem atoi_minus {string digits : Text} (seen : string.dropWhile isSpace = 45 :: digits) :
    atoi string = toInt (max (-2^63) (-(decimal (digits.takeWhile isDigit) : Int))) := by
  rw [atoi,seen]
  rfl

theorem atoi_plus {string digits : Text} (seen : string.dropWhile isSpace = 43 :: digits) :
    atoi string = toInt (min (2^63-1) (decimal (digits.takeWhile isDigit) : Int)) := by
  rw [atoi,seen]
  rfl

theorem atoi_unsigned {string : Text} (minus : (string.dropWhile isSpace).head? ≠ some 45)
    (plus : (string.dropWhile isSpace).head? ≠ some 43) :
    atoi string = toInt (min (2^63-1) (decimal ((string.dropWhile isSpace).takeWhile isDigit) : Int)) := by
  rw [atoi]
  split
  rename_i sign
  split at sign
  · rename_i same
    exact absurd (congrArg List.head? same) minus
  · rename_i same
    exact absurd (congrArg List.head? same) plus
  · obtain ⟨rfl,rfl⟩ := Prod.mk.inj sign
    rfl

/-- A comma ends the number, and is none itself. -/
theorem atoi_comma (front rest : Text) : atoi (front ++ 44 :: rest) = atoi front := by
  have stops : ∀ digits : Text, (digits ++ 44 :: rest).takeWhile isDigit = digits.takeWhile isDigit := by
    intro digits
    have comma : (44 :: rest).takeWhile isDigit = [] := List.takeWhile_cons_of_neg (by decide)
    rw [List.takeWhile_append,comma,List.append_nil]
    split
    · rename_i all
      exact ((List.takeWhile_prefix isDigit).eq_of_length all).symm
    · rfl
  have skipped : (front ++ 44 :: rest).dropWhile isSpace = front.dropWhile isSpace ++ 44 :: rest := by
    have kept : (44 :: rest).dropWhile isSpace = 44 :: rest := List.dropWhile_cons_of_neg (by decide)
    rw [List.dropWhile_append,kept]
    split
    · rename_i all
      rw [List.isEmpty_iff.mp all]
      rfl
    · rfl
  cases seen : front.dropWhile isSpace with
  | nil =>
    rw [seen] at skipped
    have others : some (44 : UInt8) ≠ some 45 ∧ some (44 : UInt8) ≠ some 43 := by decide
    rw [atoi_unsigned (by rw [skipped]; exact others.1) (by rw [skipped]; exact others.2),
      atoi_unsigned (by rw [seen]; decide) (by rw [seen]; decide),skipped,seen,stops]
  | cons char digits =>
    rw [seen] at skipped
    by_cases minus : char = 45
    · subst minus
      rw [List.cons_append] at skipped
      rw [atoi_minus skipped,atoi_minus seen,stops]
    by_cases plus : char = 43
    · subst plus
      rw [List.cons_append] at skipped
      rw [atoi_plus skipped,atoi_plus seen,stops]
    · have others : some char ≠ some 45 ∧ some char ≠ some 43 :=
        ⟨fun same => minus (Option.some.inj same),fun same => plus (Option.some.inj same)⟩
      rw [atoi_unsigned (by rw [skipped]; exact others.1) (by rw [skipped]; exact others.2),
        atoi_unsigned (by rw [seen]; exact others.1) (by rw [seen]; exact others.2),skipped,seen,stops]

theorem atoi_printInt {value : Int} {rest : Text} (isInt : IsInt value) (ends : NoDigit rest) :
    atoi (printInt value ++ rest) = value := by
  obtain ⟨low,high⟩ := isInt
  have inside : toInt value = value := by
    rw [toInt,Int.bmod_eq_of_le] <;> omega
  rcases lt_or_ge value 0 with negative | nonneg
  · have printed : printInt value ++ rest = 45 :: (digitText value.natAbs ++ rest) := by
      rw [printInt,if_pos negative]
      rfl
    have seen : (45 :: (digitText value.natAbs ++ rest)).dropWhile isSpace = 45 :: (digitText value.natAbs ++ rest) :=
      List.dropWhile_cons_of_neg (by decide)
    rw [printed,atoi_minus seen,takeWhile_digits ends,decimal_digitText]
    have size : max (-2^63) (-(value.natAbs : Int)) = value := by omega
    rw [size,inside]
  · have printed : printInt value ++ rest = digitText value.natAbs ++ rest := by
      rw [printInt,if_neg (not_lt.mpr nonneg)]
      rfl
    have size : min (2^63-1) (value.natAbs : Int) = value := by omega
    have seen := digitText_seen value.natAbs rest
    have unsigned : ∀ other : UInt8, other.toNat < 48 →
        ((digitText value.natAbs ++ rest).dropWhile isSpace).head? ≠ some other := by
      intro other less
      rw [seen]
      exact digitText_head value.natAbs rest less
    rw [printed,atoi_unsigned (unsigned 45 (by decide)) (unsigned 43 (by decide)),seen,takeWhile_digits ends,
      decimal_digitText,size,inside]

theorem printInt_chars {value : Int} {char : UInt8} (member : char ∈ printInt value) :
    char = 45 ∨ 48 ≤ char.toNat ∧ char.toNat ≤ 57 := by
  rcases List.mem_append.mp member with sign | digits
  · split_ifs at sign
    · exact Or.inl (List.mem_singleton.mp sign)
    · cases sign
  · exact Or.inr (digitText_digits digits)

theorem printInt_plain {value : Int} {char : UInt8} (other : char.toNat < 48) (minus : char ≠ 45) :
    char ∉ printInt value := by
  intro member
  rcases printInt_chars member with same | digit
  · exact minus same
  · omega

theorem toInt_isInt (value : Int) : IsInt (toInt value) := by
  have low := Int.le_bmod (x := value) (m := 2^32) (by decide)
  have high := Int.bmod_lt (x := value) (m := 2^32) (by decide)
  constructor
  · rw [toInt]; omega
  · rw [toInt]; omega

theorem printInt_length_le {value : Int} {digits : Nat} (positive : 0 < digits)
    (small : value.natAbs < 10^digits) : (printInt value).length ≤ digits+1 := by
  have written : (Nat.toDigits 10 value.natAbs).length ≤ digits :=
    (Nat.length_toDigits_le_iff (by decide) positive).mpr small
  rw [printInt,List.length_append,List.length_map]
  split <;> simp <;> omega

theorem printInt_length {value : Int} (isInt : IsInt value) : (printInt value).length ≤ 11 := by
  obtain ⟨low,high⟩ := isInt
  exact printInt_length_le (by decide) (by omega)

theorem printInt_injective : Function.Injective printInt := by
  intro value other same
  have unsigned : ∀ value : Int, ¬ value < 0 → printInt value = digitText value.natAbs := by
    intro value nonneg
    rw [printInt,if_neg nonneg]
    rfl
  have signed : ∀ value : Int, value < 0 → printInt value = 45 :: digitText value.natAbs := by
    intro value negative
    rw [printInt,if_pos negative]
    rfl
  have size : ∀ {m n : Nat}, digitText m = digitText n → m = n := by
    intro m n same
    rw [← decimal_digitText m,same,decimal_digitText]
  have plain : ∀ m n : Nat, digitText m ≠ 45 :: digitText n := by
    intro m n same
    exact absurd (digitText_digits (same ▸ List.mem_cons_self : (45 : UInt8) ∈ digitText m)).1 (by decide)
  rcases lt_or_ge value 0 with negative | nonneg <;> rcases lt_or_ge other 0 with negative' | nonneg'
  · rw [signed value negative,signed other negative'] at same
    have equal := size (List.cons.inj same).2
    omega
  · rw [signed value negative,unsigned other (not_lt.mpr nonneg')] at same
    exact absurd same.symm (plain _ _)
  · rw [unsigned value (not_lt.mpr nonneg),signed other negative'] at same
    exact absurd same (plain _ _)
  · rw [unsigned value (not_lt.mpr nonneg),unsigned other (not_lt.mpr nonneg')] at same
    have equal := size same
    omega

end MoCodes.MoCloud
