import Formulary.Proofs.Number.Rounding

/-!
# Dropping the fraction

* `Binary.number` : the number that parts stand for, with its sign;
* `Binary.wholePart_eq_floor`, `truncate_eq` : the integer part is that number rounded toward zero;
* `lt_zero_iff` : a finite double is below zero when its number is.
-/

namespace Formulary.Number

open Float.Model (UnpackedFloat)

/-- The number that parts stand for. -/
def Binary.number (b : Binary) : ℚ :=
  if b.negative then -b.value else b.value

/-- A number without its fraction. -/
def towardZero (q : ℚ) : Int :=
  if 0 ≤ q then ⌊q⌋ else ⌈q⌉

namespace Binary

variable (b : Binary)

theorem value_nonneg : 0 ≤ b.value := by
  unfold value
  positivity

/-- **The whole part is the greatest natural number that is not above the magnitude.** -/
theorem wholePart_eq_floor : b.wholePart = ⌊b.value⌋₊ := by
  unfold wholePart value
  split
  · next h =>
    obtain ⟨k, hk⟩ := Int.eq_ofNat_of_zero_le h
    rw [hk, Int.toNat_natCast, zpow_natCast]
    exact_mod_cast (Nat.floor_natCast (R := ℚ) (b.significand * 2 ^ k)).symm
  · next h =>
    have hexponent : b.exponent = -((-b.exponent).toNat : Int) := by omega
    rw [hexponent, zpow_neg, zpow_natCast, neg_neg, Int.toNat_natCast, ← div_eq_mul_inv]
    exact_mod_cast (Nat.floor_div_eq_div (K := ℚ) b.significand (2 ^ (-b.exponent).toNat)).symm

theorem value_pos_iff : 0 < b.value ↔ b.significand ≠ 0 := by
  unfold value
  rw [mul_pos_iff_of_pos_right (by positivity), Nat.cast_pos, Nat.pos_iff_ne_zero]

theorem number_neg_iff : b.number < 0 ↔ b.negative = true ∧ b.significand ≠ 0 := by
  have hvalue := b.value_nonneg
  rw [← value_pos_iff]
  unfold number
  cases b.negative with
  | false => simp [hvalue]
  | true => simp

end Binary

section Doubles

variable {x : Float}

/-- **The integer part of a finite double is its number without the fraction.** -/
theorem truncate_eq (finite : x.isFinite = true) :
    truncate x = towardZero (Binary.ofFloat x).number := by
  have hvalue := (Binary.ofFloat x).value_nonneg
  have hfloor : ((Binary.ofFloat x).wholePart : Int) = ⌊(Binary.ofFloat x).value⌋ := by
    rw [Binary.wholePart_eq_floor, Int.natCast_floor_eq_floor hvalue]
  rw [truncate_of_isFinite finite, hfloor]
  unfold Binary.number towardZero
  cases (Binary.ofFloat x).negative with
  | false => simp [hvalue]
  | true =>
    simp only [if_true, Int.ceil_neg]
    split
    · next h =>
      have hzero : (Binary.ofFloat x).value = 0 := by linarith
      simp [hzero]
    · rfl

theorem lt_zero_iff (finite : x.isFinite = true) : x < 0 ↔ (Binary.ofFloat x).number < 0 := by
  change decide (x.toModel.unpack.lt (0 : Float).toModel.unpack = true) = true ↔ _
  rw [decide_eq_true_iff, unpack_zero, unpack_ofFloat finite, UnpackedFloat.lt,
    Binary.number_neg_iff]
  unfold Binary.unpacked Binary.sign
  by_cases h : (Binary.ofFloat x).significand = 0
  · simp [h, UnpackedFloat.compare]
  · cases hs : (Binary.ofFloat x).negative <;> simp [h, UnpackedFloat.compare]

end Doubles

end Formulary.Number
