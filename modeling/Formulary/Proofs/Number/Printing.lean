import Formulary.Proofs.Number.Literal
import Formulary.Proofs.Number.Signed
import Formulary.Proofs.Number.Text

/-!
# Printed numbers are read back

* `IsNumeral`, `isNumeral_arrange` : what is laid out for a decimal is a numeral of its value;
* `Binary.captures_shortest` : the shortest digits of a double round to it;
* `exists_numeral_write`, `exists_numeral_text` : a finite number is printed as a numeral that has
  its magnitude as its value, behind a minus if it is negative.
-/

namespace Formulary.Number

variable {d : Decimal} {digits : List Char} {b : Binary} {x : Float}

/-! ## Digits -/

theorem isDigit_zeros (k : Nat) : ∀ c ∈ zeros k, c.isDigit = true := by
  intro c hc
  rw [List.eq_of_mem_replicate hc]
  decide

@[simp] theorem length_zeros (k : Nat) : (zeros k).length = k :=
  List.length_replicate

@[simp] theorem decimalNumber_zeros (k : Nat) : decimalNumber (zeros k) = 0 := by
  rw [← natOfDigits_eq_decimalNumber (isDigit_zeros k), ← List.nil_append (zeros k),
    natOfDigits_append_zeros]
  exact Nat.zero_mul _

theorem decimalNumber_zeros_append (k : Nat) (digits : List Char) :
    decimalNumber (zeros k ++ digits) = decimalNumber digits := by
  rw [decimalNumber_append, decimalNumber_zeros, Nat.zero_mul, Nat.zero_add]

theorem decimalNumber_digitChars (k : Nat) : decimalNumber (digitChars k) = k := by
  rw [← natOfDigits_eq_decimalNumber isDigit_digitChars, natOfDigits_digitChars]

/-! ## Layouts -/

/-- Whether a text is a numeral that writes a number. -/
def IsNumeral (text : List Char) (v : ℚ) : Prop :=
  ∃ n : Numeral, n.chars = text ∧ n.Written ∧ n.hasDigit = true ∧ n.number = v

/-- Digits alone are a numeral. -/
theorem isNumeral_digits (nonempty : digits ≠ []) (isDigit : ∀ c ∈ digits, c.isDigit = true) :
    IsNumeral digits (decimalNumber digits) := by
  refine ⟨⟨digits, none, none⟩, ?_, ⟨isDigit, nofun, nofun⟩, ?_, ?_⟩
  · simp [Numeral.chars]
  · simp [Numeral.hasDigit, nonempty]
  · rw [Numeral.number_eq]
    simp [Numeral.tens]

/-- So are digits before a point and behind it, which count for as many tenths as there are. -/
theorem isNumeral_point (whole fraction : List Char) (nonempty : whole ≠ [])
    (isDigit : ∀ c ∈ whole ++ fraction, c.isDigit = true) :
    IsNumeral (whole ++ '.' :: fraction)
      (decimalNumber (whole ++ fraction) * 10 ^ (-(fraction.length : Int))) := by
  obtain ⟨hwhole, hfraction⟩ := List.forall_mem_append.mp isDigit
  refine ⟨⟨whole, some fraction, none⟩, ?_, ⟨hwhole, ?_, nofun⟩, ?_, ?_⟩
  · simp [Numeral.chars]
  · rintro _ ⟨⟩
    exact hfraction
  · simp [Numeral.hasDigit, nonempty]
  · rw [Numeral.number_eq]
    simp [Numeral.tens]

section Layouts

variable (nonempty : digits ≠ []) (isDigit : ∀ c ∈ digits, c.isDigit = true)
include nonempty isDigit

/-- Digits with a point among them, or zeros between. -/
theorem isNumeral_placePoint (point : Int) :
    IsNumeral (placePoint false digits point)
      (decimalNumber digits * 10 ^ (point - digits.length)) := by
  unfold placePoint
  split
  · next hpoint =>
    have hdigits : ∀ c ∈ zeros ((-point).toNat + 1) ++ digits, c.isDigit = true :=
      List.forall_mem_append.mpr ⟨isDigit_zeros _, isDigit⟩
    have hnumeral := isNumeral_point ['0'] (zeros (-point).toNat ++ digits) (by simp) hdigits
    rw [show ['0'] ++ (zeros (-point).toNat ++ digits) = zeros ((-point).toNat + 1) ++ digits
      from rfl, decimalNumber_zeros_append] at hnumeral
    have hexponent : point - digits.length = -((zeros (-point).toNat ++ digits).length : Int) := by
      rw [List.length_append, length_zeros]
      omega
    rw [hexponent]
    exact hnumeral
  · next hpoint =>
    split
    · next hlength =>
      have hdigits : ∀ c ∈ digits ++ zeros (point.toNat - digits.length), c.isDigit = true :=
        List.forall_mem_append.mpr ⟨isDigit, isDigit_zeros _⟩
      have hnumeral := isNumeral_digits (by simp [nonempty]) hdigits
      have hexponent : point - digits.length = (point.toNat - digits.length : Nat) := by
        omega
      rw [decimalNumber_append, decimalNumber_zeros, length_zeros] at hnumeral
      rw [hexponent, zpow_natCast]
      simpa using hnumeral
    · next hlength =>
      have htake : digits.take point.toNat ≠ [] := by
        simp only [ne_eq, List.take_eq_nil_iff, nonempty, or_false]
        omega
      have hnumeral := isNumeral_point _ (digits.drop point.toNat) htake
        (by rwa [List.take_append_drop])
      have hexponent : point - digits.length = -((digits.drop point.toNat).length : Int) := by
        rw [List.length_drop]
        omega
      rw [List.take_append_drop, ← hexponent] at hnumeral
      simpa using hnumeral

/-- Digits with a point behind the first one and an exponent. -/
theorem isNumeral_withExponent (e : Int) :
    IsNumeral (withExponent digits e) (decimalNumber digits * 10 ^ (e + 1 - digits.length)) := by
  obtain ⟨first, rest, rfl⟩ := List.exists_cons_of_ne_nil nonempty
  obtain ⟨hfirst, hrest⟩ := List.forall_mem_cons.mp isDigit
  let mark : List Char := ['e', if e < 0 then '-' else '+']
  have hmark : IsMark mark := by
    refine ⟨'e', .inl rfl, .inr ?_⟩
    unfold mark
    split
    · exact .inr rfl
    · exact .inl rfl
  have hexponent : ∀ parts ∈ some (mark, digitChars e.natAbs), IsMark parts.1 ∧ parts.2 ≠ [] ∧
      ∀ c ∈ parts.2, c.isDigit = true := by
    rintro _ ⟨⟩
    exact ⟨hmark, digitChars_ne_nil, isDigit_digitChars⟩
  have htens (whole : List Char) (fraction : Option (List Char)) :
      Numeral.tens ⟨whole, fraction, some (mark, digitChars e.natAbs)⟩ = e := by
    unfold Numeral.tens mark
    dsimp only
    rw [decimalNumber_digitChars]
    by_cases h : e < 0
    · rw [if_pos h, if_pos (by decide)]
      omega
    · rw [if_neg h, if_neg (by decide)]
      omega
  cases rest with
  | nil =>
    refine ⟨⟨[first], none, some (mark, digitChars e.natAbs)⟩, ?_, ⟨isDigit, nofun, hexponent⟩,
      rfl, ?_⟩
    · simp [Numeral.chars, withExponent, mark]
    · rw [Numeral.number_eq, htens]
      simp
  | cons second rest =>
    refine ⟨⟨[first], some (second :: rest), some (mark, digitChars e.natAbs)⟩, ?_,
      ⟨?_, ?_, hexponent⟩, rfl, ?_⟩
    · simp [Numeral.chars, withExponent, mark]
    · simpa using hfirst
    · rintro _ ⟨⟩
      exact hrest
    · rw [Numeral.number_eq, htens]
      simp only [Option.getD_some, List.singleton_append, List.length_cons]
      congr 2
      push_cast
      omega

end Layouts

/-- **What is laid out for a decimal is a numeral that writes its value.** -/
theorem isNumeral_arrange (d : Decimal) : IsNumeral (scriptLayout.arrange d) d.value := by
  have hvalue : d.value = decimalNumber (digitChars d.digits) *
      10 ^ (((digitChars d.digits).length : Int) - 1 + d.exponent + 1
        - (digitChars d.digits).length) := by
    rw [decimalNumber_digitChars, Decimal.value]
    congr 2
    omega
  rw [hvalue]
  unfold Layout.arrange
  dsimp only
  split
  · exact isNumeral_placePoint digitChars_ne_nil isDigit_digitChars _
  · exact isNumeral_withExponent digitChars_ne_nil isDigit_digitChars _

/-! ## Doubles -/

namespace Binary

theorem quarters_eq (pos : 0 < b.significand) :
    (b.low : ℚ) * 2 ^ (b.exponent - 2) = b.value - b.gapBelow / 2 ∧
      (b.high : ℚ) * 2 ^ (b.exponent - 2) = b.value + b.unit / 2 := by
  have hunit : b.unit = 4 * 2 ^ (b.exponent - 2) := by
    rw [unit, zpow_sub₀ (by norm_num)]
    ring
  have hgap : b.gapBelow = if b.narrowBelow then b.unit / 2 else b.unit := rfl
  rw [hgap, b.value_eq, hunit, low, high]
  generalize (2 : ℚ) ^ (b.exponent - 2) = quarter
  constructor
  · split
    · rw [Nat.cast_sub (by omega)]
      push_cast
      ring
    · rw [Nat.cast_sub (by omega)]
      push_cast
      ring
  · push_cast
    ring

/-- **A decimal that reads back rounds to the parts.** -/
theorem captures_of_readsBack (pos : 0 < b.significand) (h : b.readsBack d = true) :
    b.Captures d.value := by
  obtain ⟨hlow, hhigh⟩ := quarters_eq pos
  have hnear := near_of_readsBack h
  refine ⟨hlow ▸ hnear.low, hhigh ▸ hnear.high, fun htie => ?_⟩
  rw [← hlow, ← hhigh] at htie
  obtain ⟨-, heqLow, hgtLow⟩ := compareScaled_spec d.digits b.low d.exponent (b.exponent - 2)
  obtain ⟨hltHigh, heqHigh, -⟩ := compareScaled_spec d.digits b.high d.exponent (b.exponent - 2)
  rw [readsBack_eq] at h
  simp only [Bool.and_eq_true, Bool.or_eq_true, beq_iff_eq] at h
  rcases htie with htie | htie
  · exact (h.1.resolve_left fun hgt => (hgtLow.mp hgt).ne' htie).1
  · exact (h.2.resolve_left fun hlt => (hltHigh.mp hlt).ne htie).1

/-- **The shortest digits round to the parts.** -/
theorem captures_shortest (pos : 0 < b.significand) (tie : Tie) :
    b.Captures (shortest tie b).value := by
  obtain ⟨d, hback, hvalue⟩ := exists_readsBack pos tie
  rw [hvalue]
  exact captures_of_readsBack pos hback

end Binary

/-- A negated number is negated back. -/
theorem neg_neg_of_isFinite (finite : x.isFinite = true) : -(-x) = x := by
  obtain ⟨hfinite, hparts⟩ := ofFloat_neg finite
  obtain ⟨hfinite', hparts'⟩ := ofFloat_neg hfinite
  apply eq_of_ofFloat hfinite' finite
  rw [hparts', hparts, Binary.negate, Binary.negate, Bool.not_not]

/-- The magnitude of a finite number has the same digits. -/
theorem rounds_signed {v : ℚ} (finite : x.isFinite = true) (h : (Binary.ofFloat x).Captures v) :
    Rounds v (signed (Binary.ofFloat x).negative x) := by
  cases hnegative : (Binary.ofFloat x).negative with
  | false => exact .finite finite hnegative h
  | true =>
    obtain ⟨hfinite, hparts⟩ := ofFloat_neg finite
    refine .finite hfinite ?_ ?_
    · show (Binary.ofFloat (-x)).negative = false
      rw [hparts, Binary.negate, hnegative]
      rfl
    · show (Binary.ofFloat (-x)).Captures v
      rw [hparts]
      exact ⟨h.low, h.high, h.tie⟩

theorem significand_pos (finite : x.isFinite = true) (nonzero : (x == 0) = false) :
    0 < (Binary.ofFloat x).significand := by
  rw [Nat.pos_iff_ne_zero]
  intro h
  rw [(beq_zero_iff_parts finite).mpr h] at nonzero
  cases nonzero

/-- **A finite number that is not zero is printed as a numeral, behind a minus if it is negative.**
It is the value of the numeral with that sign. -/
theorem exists_numeral_write (finite : x.isFinite = true) (nonzero : (x == 0) = false) :
    ∃ n : Numeral, n.Written ∧ n.hasDigit = true ∧
      (text x).toList = (if (Binary.ofFloat x).negative then ['-'] else []) ++ n.chars ∧
      signed (Binary.ofFloat x).negative n.value = x := by
  have pos := significand_pos finite nonzero
  obtain ⟨n, hchars, written, hasDigit, hnumber⟩ :=
    isNumeral_arrange (shortest scriptLayout.tie (Binary.ofFloat x))
  have hvalue : n.value = signed (Binary.ofFloat x).negative x := by
    apply written.rounds_value.eq_of_nearest
    rw [hnumber]
    exact (rounds_signed finite (Binary.captures_shortest pos _)).nearest
  refine ⟨n, written, hasDigit, ?_, ?_⟩
  · rw [text_of_isFinite finite nonzero, String.toList_ofList, hchars]
    rfl
  · rw [hvalue]
    cases (Binary.ofFloat x).negative with
    | false => rfl
    | true => exact neg_neg_of_isFinite finite

/-- **A finite number without a sign is printed as a numeral that has it as its value.** -/
theorem exists_numeral_text (finite : x.isFinite = true)
    (positive : (Binary.ofFloat x).negative = false) :
    ∃ n, Numeral.ofText? (text x).toList = some n ∧ n.value = x := by
  cases hzero : x == 0 with
  | true =>
    obtain ⟨hnan, hinf⟩ := isFinite_iff.mp finite
    have htext : text x = "0" := by
      unfold text
      rw [hnan, hinf, hzero]
      rfl
    have hx : x = 0 := by
      rw [Float.beq_iff_ne_nan_and_eq] at hzero
      rcases hzero.2.2 with rfl | ⟨rfl, -⟩ | ⟨rfl, -⟩
      · rfl
      · rfl
      · exact absurd positive (by decide)
    rw [htext, hx]
    exact ⟨⟨['0'], none, none⟩, by decide, by decide +kernel⟩
  | false =>
    obtain ⟨n, written, hasDigit, htext, hvalue⟩ := exists_numeral_write finite hzero
    rw [positive] at htext hvalue
    exact ⟨n, Numeral.ofText?_eq_some_iff.mpr ⟨htext, written, hasDigit⟩, hvalue⟩

end Formulary.Number
