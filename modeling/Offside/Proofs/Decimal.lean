import Mathlib.Data.List.Basic
import Mathlib.Data.Nat.Basic
import Offside.Decimal
import Offside.Proofs.Lexeme.Shape

/-!
# Integer literals are numerals

The digits of an integer literal are those with which its value is written: reading a numeral gives
the number (`ofDigits_toDigits`), every numeral is an integer literal (`isValid_toDigits`), and
every integer literal is the numeral of its value (`toDigits_ofDigits`).  The last two need that
neither begins with a zero, except the numeral of zero itself.
-/

namespace Offside

namespace Decimal

/-- A digit is written for its own value. -/
theorem digitChar_of_isDigit {c : Char} (h : CharClass.digit.has c) :
    Nat.digitChar (c.toNat - '0'.toNat) = c ∧ c.toNat - '0'.toNat < 10 := by
  have hrange : 48 ≤ c.toNat ∧ c.toNat ≤ 57 := by
    simpa [CharClass.has, Char.isDigit, UInt32.le_iff_toNat_le] using h
  have hall : ∀ value < 10,
      Nat.digitChar ((Char.ofNat (48 + value)).toNat - '0'.toNat) = Char.ofNat (48 + value) := by
    decide
  have hchar := hall (c.toNat - 48) (by omega)
  rw [Nat.add_sub_cancel' hrange.1, Char.ofNat_toNat] at hchar
  have hzero : '0'.toNat = 48 := rfl
  exact ⟨hchar, by omega⟩

/-- Reading the numeral of a number gives the number. -/
theorem ofDigits_toDigits (n : ℕ) : ofDigits (Nat.toDigits 10 n) = n :=
  Nat.ofDigitChars_ten_toDigits

/-- More digits behind a number other than zero are written behind its numeral. -/
theorem toDigits_foldl {digits : List Char} (h : ∀ c ∈ digits, CharClass.digit.has c) {n : ℕ}
    (positive : 0 < n) :
    Nat.toDigits 10 (digits.foldl (fun total c => 10 * total + (c.toNat - '0'.toNat)) n) =
      Nat.toDigits 10 n ++ digits := by
  induction digits generalizing n with
  | nil => rw [List.foldl_nil, List.append_nil]
  | cons c digits ih =>
      obtain ⟨hc, hdigits⟩ := List.forall_mem_cons.mp h
      obtain ⟨hchar, hten⟩ := digitChar_of_isDigit hc
      have hlast : Nat.toDigits 10 (c.toNat - '0'.toNat) = [c] := by
        rw [Nat.toDigits_of_lt_base hten, hchar]
      rw [List.foldl_cons, ih hdigits (by omega), ← Nat.toDigits_append_toDigits (by decide)
        positive hten, hlast, List.append_assoc, List.singleton_append]

end Decimal

namespace Lexeme.Shape

/-- The first digit of a number other than zero is not a zero. -/
theorem exists_toDigits_eq_cons {n : ℕ} (positive : 0 < n) :
    ∃ c rest, Nat.toDigits 10 n = c :: rest ∧ c ≠ '0' := by
  induction n using Nat.strong_induction_on with
  | h n ih =>
      by_cases hten : n < 10
      · refine ⟨n.digitChar, [], Nat.toDigits_of_lt_base hten, ?_⟩
        rw [ne_eq, Nat.digitChar_eq_zero]
        omega
      · obtain ⟨c, rest, hfront, hc⟩ := ih (n / 10) (by omega) (by omega)
        refine ⟨c, rest ++ [(n % 10).digitChar], ?_, hc⟩
        rw [Nat.toDigits_of_base_le (by decide) (by omega), hfront, List.cons_append]

/-- The numeral of a number is an integer literal. -/
theorem isValid_toDigits (n : ℕ) : (Shape.integer (Nat.toDigits 10 n)).IsValid := by
  have hdigits : ∀ c ∈ Nat.toDigits 10 n, CharClass.digit.has c := fun c hc =>
    Nat.isDigit_of_mem_toDigits (by decide) (by decide) hc
  rcases Nat.eq_zero_or_pos n with rfl | positive
  · exact Or.inl (Nat.toDigits_zero 10)
  · obtain ⟨c, rest, hsplit, hc⟩ := exists_toDigits_eq_cons positive
    rw [hsplit, List.forall_mem_cons] at hdigits
    exact Or.inr ⟨c, rest, hsplit, hc, hdigits⟩

/-- An integer literal is the numeral of its value. -/
theorem toDigits_ofDigits {digits : List Char} (valid : (Shape.integer digits).IsValid) :
    Nat.toDigits 10 (Decimal.ofDigits digits) = digits := by
  rcases valid with rfl | ⟨c, rest, rfl, hc, hdigit, hrest⟩
  · rfl
  · obtain ⟨hchar, hten⟩ := Decimal.digitChar_of_isDigit hdigit
    have positive : 0 < c.toNat - '0'.toNat := by
      rcases Nat.eq_zero_or_pos (c.toNat - '0'.toNat) with hzero | positive
      · rw [hzero] at hchar
        exact absurd hchar.symm hc
      · exact positive
    have hfirst : Nat.toDigits 10 (c.toNat - '0'.toNat) = [c] := by
      rw [Nat.toDigits_of_lt_base hten, hchar]
    have hbehind := Decimal.toDigits_foldl hrest positive
    rw [hfirst, List.singleton_append] at hbehind
    rw [Decimal.ofDigits, List.foldl_cons, Nat.mul_zero, Nat.zero_add, hbehind]

end Lexeme.Shape

end Offside
