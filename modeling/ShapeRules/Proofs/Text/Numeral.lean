import Mathlib.Data.List.Basic

/-!
Decimal numerals. A text of digits without leading zeros is the one that its number is written as.
-/

namespace ShapeRules.Text

/-- Decimal digits without a sign and without leading zeros. -/
structure IsNumeral (digits : List Char) : Prop where
  nonempty : digits ≠ []
  digit : ∀ c ∈ digits, c.isDigit = true
  noLeadingZero : digits = ['0'] ∨ digits.head? ≠ some '0'

theorem digitChar_of_isDigit {c : Char} (h : c.isDigit = true) :
    c.toNat - '0'.toNat < 10 ∧ (c.toNat - '0'.toNat).digitChar = c := by
  obtain ⟨hlow, hhigh⟩ := Char.isDigit_iff_toNat.mp h
  change 48 ≤ c.toNat at hlow
  change c.toNat ≤ 57 at hhigh
  change c.toNat - 48 < 10 ∧ (c.toNat - 48).digitChar = c
  have hlt : c.toNat - 48 < 10 := by omega
  refine ⟨hlt, Char.toNat_inj.mp ?_⟩
  rw [Nat.toNat_digitChar_of_lt_ten hlt]
  omega

theorem head?_toDigits {n : Nat} (h : 0 < n) : (Nat.toDigits 10 n).head? ≠ some '0' := by
  induction n using Nat.base_induction 10 (by decide) with
  | single n hn =>
    rw [Nat.toDigits_of_lt_base hn]
    simpa using Nat.ne_of_gt h
  | digit n d hd hn ih =>
    rw [← Nat.toDigits_append_toDigits (by decide) hn hd,
      List.head?_append_of_ne_nil _ Nat.toDigits_ne_nil]
    exact ih hn

theorem isNumeral_toDigits (n : Nat) : IsNumeral (Nat.toDigits 10 n) where
  nonempty := Nat.toDigits_ne_nil
  digit _ hc := Nat.isDigit_of_mem_toDigits (by decide) (by decide) hc
  noLeadingZero := by
    rcases Nat.eq_zero_or_pos n with rfl | hn
    · exact .inl (Nat.toDigits_zero 10)
    · exact .inr (head?_toDigits hn)

/-- Digits behind a numeral that does not begin with a zero go on with it. -/
theorem toDigits_append {n : Nat} (hn : 0 < n) {digits : List Char}
    (hdigits : ∀ c ∈ digits, c.isDigit = true) :
    Nat.toDigits 10 n ++ digits = Nat.toDigits 10 (Nat.ofDigitChars 10 digits n) := by
  induction digits generalizing n with
  | nil => rw [List.append_nil, Nat.ofDigitChars_nil]
  | cons c digits ih =>
    obtain ⟨hc, hothers⟩ := List.forall_mem_cons.mp hdigits
    obtain ⟨hlt, hchar⟩ := digitChar_of_isDigit hc
    have hnext : 0 < 10 * n + (c.toNat - '0'.toNat) := by omega
    rw [Nat.ofDigitChars_cons, ← ih hnext hothers,
      ← Nat.toDigits_append_toDigits (by decide) hn hlt, Nat.toDigits_of_lt_base hlt, hchar,
      List.append_assoc, List.singleton_append]

/-- The number of a numeral is written as the numeral. -/
theorem IsNumeral.toDigits_eq {digits : List Char} (h : IsNumeral digits) :
    Nat.toDigits 10 (Nat.ofDigitChars 10 digits 0) = digits := by
  obtain ⟨hne, hdigits, hzero⟩ := h
  obtain ⟨c, others, rfl⟩ := List.exists_cons_of_ne_nil hne
  obtain ⟨hc, hothers⟩ := List.forall_mem_cons.mp hdigits
  obtain ⟨hlt, hchar⟩ := digitChar_of_isDigit hc
  rw [Nat.ofDigitChars_cons, Nat.mul_zero, Nat.zero_add]
  rcases Nat.eq_zero_or_pos (c.toNat - '0'.toNat) with hnone | hpos
  · rw [hnone] at hchar
    obtain rfl : '0' = c := hchar
    obtain rfl : others = [] := by simpa using hzero
    rw [Nat.ofDigitChars_nil]
    exact Nat.toDigits_zero 10
  · rw [← toDigits_append hpos hothers, Nat.toDigits_of_lt_base hlt, hchar, List.singleton_append]

end ShapeRules.Text
