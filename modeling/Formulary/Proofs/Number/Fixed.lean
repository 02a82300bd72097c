import Formulary.Proofs.Number.Printing
import Formulary.Proofs.Number.Scaled
import Formulary.Proofs.Number.Trimming

/-!
# Numbers with a fixed count of places

* `IsNearestInt`, `Binary.units_nearest` : a magnitude in units of the last place;
* `isNumeral_withPlaces`, `fixed_of_isFinite` : a finite number is written as a numeral of its units;
* `ofText_fixed_of_isFinite` : the double that is read back.
-/

namespace Formulary.Number

variable {x : Float} {q : ℚ} {n : Int} {negative : Bool}

/-! ## Units of the last place -/

/-- Whether an integer is the nearest one to a number, the even one of two. -/
structure IsNearestInt (q : ℚ) (n : Int) : Prop where
  near : |n - q| ≤ 1 / 2
  tie : |n - q| = 1 / 2 → n % 2 = 0

theorem IsNearestInt.neg (h : IsNearestInt q n) : IsNearestInt (-q) (-n) := by
  have habs : |((-n : Int) : ℚ) - -q| = |n - q| := by
    rw [Int.cast_neg, neg_sub_neg, abs_sub_comm]
  constructor
  · rw [habs]
    exact h.near
  · intro heq
    have := h.tie (habs.symm.trans heq)
    omega

namespace Binary

variable (b : Binary) (places : Nat)

/-- A magnitude in units of the last of so many decimal places. -/
def units : Nat :=
  divideToEven (b.significand * Nat.pow 2 b.exponent.toNat * Nat.pow 10 places)
    (Nat.pow 2 (-b.exponent).toNat)

theorem units_nearest : IsNearestInt (b.value * 10 ^ places) (b.units places) := by
  have hden : 0 < Nat.pow 2 (-b.exponent).toNat := Nat.pow_pos (by decide)
  have hquotient :
      ((b.significand * Nat.pow 2 b.exponent.toNat * Nat.pow 10 places : Nat) : ℚ) /
        (Nat.pow 2 (-b.exponent).toNat : Nat) = b.value * 10 ^ places := by
    rw [div_eq_iff (by exact_mod_cast hden.ne'), value]
    simp only [Nat.pow_eq]
    push_cast
    rw [← zpow_mul_pow_toNat (show (2 : ℚ) ≠ 0 by norm_num) b.exponent]
    ring
  rw [← hquotient]
  refine ⟨divideToEven_near _ hden, fun h => ?_⟩
  exact_mod_cast divideToEven_tie _ hden h

/-- No finite double is so near to where rounding to infinity begins that its units reach it. -/
theorem units_lt_overflow (h : b.significand < 2 ^ 53) (h' : b.exponent ≤ 971) :
    (b.units places : ℚ) / 10 ^ places < overflow := by
  have hpow : (1 : ℚ) ≤ 10 ^ places := one_le_pow₀ (by norm_num)
  have hunits : (b.units places : ℚ) ≤ b.value * 10 ^ places + 1 / 2 := by
    have := (abs_le.mp (b.units_nearest places).near).2
    push_cast at this
    linarith
  have hsignificand : (b.significand : ℚ) ≤ 2 ^ 53 - 1 := by
    have : (b.significand + 1 : ℚ) ≤ 2 ^ 53 := by exact_mod_cast h
    linarith
  have hunit : b.unit ≤ 2 ^ (971 : Int) := zpow_le_zpow_right₀ (by norm_num) h'
  have hlarge : (1 : ℚ) < 2 ^ (971 : Int) := one_lt_zpow₀ (by norm_num) (by norm_num)
  have hvalue : b.value ≤ (2 ^ 53 - 1) * 2 ^ (971 : Int) :=
    mul_le_mul hsignificand hunit b.unit_pos.le (by norm_num)
  rw [div_lt_iff₀ (by positivity), overflow]
  generalize (2 : ℚ) ^ (971 : Int) = greatest at *
  calc (b.units places : ℚ) ≤ b.value * 10 ^ places + 1 / 2 := hunits
    _ ≤ b.value * 10 ^ places + 1 / 2 * 10 ^ places := by linarith
    _ = (b.value + 1 / 2) * 10 ^ places := by ring
    _ < (2 ^ 53 - 1 / 2) * greatest * 10 ^ places :=
      mul_lt_mul_of_pos_right (by linarith) (by positivity)

end Binary

/-! ## Writing -/

/-- A number of units with a point before so many last digits; zeros fill the places that the
digits do not reach, and there is a digit before the point. -/
def withPlaces (places units : Nat) : List Char :=
  let digits := zeros (places + 1 - (digitChars units).length) ++ digitChars units
  digits.take (digits.length - places) ++
    (if places = 0 then [] else '.' :: digits.drop (digits.length - places))

theorem isNumeral_withPlaces (places units : Nat) :
    IsNumeral (withPlaces places units) (units / 10 ^ places) := by
  unfold withPlaces
  generalize hdigits : zeros (places + 1 - (digitChars units).length) ++ digitChars units = digits
  have hisDigit : ∀ c ∈ digits, c.isDigit = true := by
    rw [← hdigits]
    exact List.forall_mem_append.mpr ⟨isDigit_zeros _, isDigit_digitChars⟩
  have hnumber : decimalNumber digits = units := by
    rw [← hdigits, decimalNumber_zeros_append, decimalNumber_digitChars]
  have hlength : places + 1 ≤ digits.length := by
    rw [← hdigits, List.length_append, length_zeros]
    omega
  dsimp only
  split
  · next hplaces =>
    have hnumeral := isNumeral_digits (List.ne_nil_of_length_pos (by omega)) hisDigit
    simpa [hplaces, hnumber] using hnumeral
  · next hplaces =>
    have htake : digits.take (digits.length - places) ≠ [] := by
      refine List.ne_nil_of_length_pos ?_
      rw [List.length_take]
      omega
    have hnumeral := isNumeral_point _ (digits.drop (digits.length - places)) htake
      (by rwa [List.take_append_drop])
    rwa [List.take_append_drop, hnumber, List.length_drop, Nat.sub_sub_self (by omega), zpow_neg,
      zpow_natCast, ← div_eq_mul_inv] at hnumeral

theorem fixed_of_isFinite (finite : x.isFinite = true) (places : Nat) :
    (fixed places x).toList = (if (Binary.ofFloat x).negative then ['-'] else []) ++
      withPlaces places ((Binary.ofFloat x).units places) := by
  obtain ⟨hnan, hinf⟩ := isFinite_iff.mp finite
  unfold fixed
  rw [hnan, hinf, if_neg Bool.false_ne_true, if_neg Bool.false_ne_true, String.toList_ofList,
    List.append_assoc]
  rfl

/-! ## Reading back -/

/-- **A finite number with so many places is read back as the double nearest to its decimal,** which
is the nearest one with these places, and with the sign of the number. -/
theorem ofText_fixed_of_isFinite (finite : x.isFinite = true) (places : Nat) :
    ∃ units : Int, IsNearestInt ((Binary.ofFloat x).number * 10 ^ places) units ∧
      NearestTo (units / 10 ^ places) (ofText (fixed places x).toList) ∧
      (Binary.ofFloat (ofText (fixed places x).toList)).negative = (Binary.ofFloat x).negative := by
  have hunits := (Binary.ofFloat x).units_nearest places
  have hsmall := (Binary.ofFloat x).units_lt_overflow places (canonical_ofFloat x).significand_lt
    (exponent_le_of_isFinite finite)
  obtain ⟨n, hchars, written, hasDigit, hnumber⟩ :=
    isNumeral_withPlaces places ((Binary.ofFloat x).units places)
  have htext : ofText (fixed places x).toList = signed (Binary.ofFloat x).negative n.value := by
    have sign := signs_minus (Binary.ofFloat x).negative
    refine ofText_numeral sign written hasDigit ?_
    rw [fixed_of_isFinite finite, ← hchars]
    exact Text.trim_of_not_isBlank (not_isBlank_chars written sign)
  have hrounds : Rounds ((Binary.ofFloat x).units places / 10 ^ places) n.value :=
    hnumber ▸ written.rounds_value
  have hnearest := hrounds.nearestTo (by positivity) hsmall
  have hpositive := (hrounds.nearest.finite hsmall).2
  rw [htext, Binary.number]
  generalize (Binary.ofFloat x).units places = units at *
  cases (Binary.ofFloat x).negative with
  | false => exact ⟨units, hunits, hnearest, hpositive⟩
  | true =>
    refine ⟨-units, ?_, ?_, ?_⟩
    · rw [if_pos rfl, neg_mul]
      exact hunits.neg
    · rw [Int.cast_neg, neg_div]
      exact hnearest.neg
    · show (Binary.ofFloat (-n.value)).negative = true
      rw [(ofFloat_neg hnearest.finite).2, Binary.negate, hpositive]
      rfl

end Formulary.Number
