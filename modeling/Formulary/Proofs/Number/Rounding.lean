import Formulary.Number.Shortest
import Formulary.Proofs.Number.Whole

/-!
# What the shortest digits are near to

* `Binary.value`, `Decimal.value` : binary and decimal fractions as rational numbers;
* `compareScaled_spec` : a decimal and a binary fraction are compared as rational numbers;
* `Binary.Near`, `Binary.near_of_readsBack` : a decimal that reads back lies within half a unit of
  the last place;
* `Binary.exists_readsBack`, `Binary.near_shortest` : so do the shortest digits;
* `Binary.standsFor_of_near`, `Binary.le_of_near` : what that leaves for an integer below and beyond
  `2 ^ 53`.
-/

namespace Formulary.Number

/-- The magnitude of parts. -/
def Binary.value (b : Binary) : ℚ :=
  b.significand * 2 ^ b.exponent

/-- The number that a decimal stands for. -/
def Decimal.value (d : Decimal) : ℚ :=
  d.digits * 10 ^ d.exponent

/-! ## Comparisons -/

section Comparing

variable (a n : Nat) (i j : Int)

/-- What both sides of a comparison are multiplied by, so that they become natural numbers. -/
def scale (i j : Int) : ℚ :=
  10 ^ (-i).toNat * 2 ^ (-j).toNat

theorem scale_pos : 0 < scale i j := by
  unfold scale
  positivity

theorem zpow_mul_pow_toNat {x : ℚ} (hx : x ≠ 0) (i : Int) :
    x ^ i * x ^ (-i).toNat = x ^ i.toNat := by
  rw [← zpow_natCast, ← zpow_natCast, ← zpow_add₀ hx]
  congr 1
  omega

theorem decimal_mul_scale :
    (a : ℚ) * 10 ^ i * scale i j = ((a * 10 ^ i.toNat * 2 ^ (-j).toNat : Nat) : ℚ) := by
  have h := zpow_mul_pow_toNat (show (10 : ℚ) ≠ 0 by norm_num) i
  rw [scale]
  push_cast
  rw [← h]
  ring

theorem binary_mul_scale :
    (n : ℚ) * 2 ^ j * scale i j = ((n * 2 ^ j.toNat * 10 ^ (-i).toNat : Nat) : ℚ) := by
  have h := zpow_mul_pow_toNat (show (2 : ℚ) ≠ 0 by norm_num) j
  rw [scale]
  push_cast
  rw [← h]
  ring

/-- **A decimal and a binary fraction are compared as rational numbers.** -/
theorem compareScaled_spec :
    (compareScaled a i n j = .lt ↔ (a : ℚ) * 10 ^ i < n * 2 ^ j) ∧
      (compareScaled a i n j = .eq ↔ (a : ℚ) * 10 ^ i = n * 2 ^ j) ∧
      (compareScaled a i n j = .gt ↔ (n : ℚ) * 2 ^ j < a * 10 ^ i) := by
  have hpos := scale_pos i j
  have ha := decimal_mul_scale a i j
  have hn := binary_mul_scale n i j
  have hcompare : compareScaled a i n j =
      compare (a * 10 ^ i.toNat * 2 ^ (-j).toNat) (n * 2 ^ j.toNat * 10 ^ (-i).toNat) := rfl
  rw [hcompare, Nat.compare_eq_lt, Nat.compare_eq_eq, Nat.compare_eq_gt]
  refine ⟨?_, ?_, ?_⟩
  · rw [← mul_lt_mul_iff_of_pos_right hpos, ha, hn, Nat.cast_lt]
  · rw [← mul_left_inj' hpos.ne', ha, hn, Nat.cast_inj]
  · rw [← mul_lt_mul_iff_of_pos_right hpos, ha, hn, Nat.cast_lt]

end Comparing

/-! ## Decimals that read back -/

namespace Binary

/-- The lower end of what rounds to parts, in quarters of a unit of the last place. -/
def low (b : Binary) : Nat :=
  if b.narrowBelow then 4 * b.significand - 1 else 4 * b.significand - 2

/-- The upper end of what rounds to parts, in quarters of a unit of the last place. -/
def high (b : Binary) : Nat :=
  4 * b.significand + 2

/-- Whether a number lies between the ends of what rounds to parts, the ends included. -/
structure Near (b : Binary) (v : ℚ) : Prop where
  low : (b.low : ℚ) * 2 ^ (b.exponent - 2) ≤ v
  high : v ≤ (b.high : ℚ) * 2 ^ (b.exponent - 2)

variable {b : Binary} {d : Decimal} {tie : Tie} {N : Nat}

theorem readsBack_eq (b : Binary) (d : Decimal) :
    b.readsBack d =
      ((compareScaled d.digits d.exponent b.low (b.exponent - 2) == .gt ||
          (b.significand % 2 == 0 &&
            compareScaled d.digits d.exponent b.low (b.exponent - 2) == .eq)) &&
        (compareScaled d.digits d.exponent b.high (b.exponent - 2) == .lt ||
          (b.significand % 2 == 0 &&
            compareScaled d.digits d.exponent b.high (b.exponent - 2) == .eq))) := rfl

/-- **A decimal that reads back lies within half a unit of the last place.** -/
theorem near_of_readsBack (h : b.readsBack d = true) : b.Near d.value := by
  obtain ⟨-, heqLow, hgtLow⟩ := compareScaled_spec d.digits b.low d.exponent (b.exponent - 2)
  obtain ⟨hltHigh, heqHigh, -⟩ := compareScaled_spec d.digits b.high d.exponent (b.exponent - 2)
  rw [readsBack_eq] at h
  simp only [Bool.and_eq_true, Bool.or_eq_true, beq_iff_eq] at h
  obtain ⟨hlow, hhigh⟩ := h
  constructor
  · rcases hlow with h | ⟨-, h⟩
    · exact (hgtLow.mp h).le
    · exact (heqLow.mp h).ge
  · rcases hhigh with h | ⟨-, h⟩
    · exact (hltHigh.mp h).le
    · exact (heqHigh.mp h).le

/-- The magnitude in quarters of a unit of the last place. -/
theorem value_eq_quarters (b : Binary) :
    b.value = ((4 * b.significand : Nat) : ℚ) * 2 ^ (b.exponent - 2) := by
  rw [value, zpow_sub₀ (by norm_num)]
  push_cast
  ring

/-- A decimal between the ends of what rounds to parts reads back. -/
theorem readsBack_of_between (hlow : b.low * 2 ^ (b.exponent - 2) < d.value)
    (hhigh : d.value < b.high * 2 ^ (b.exponent - 2)) : b.readsBack d = true := by
  obtain ⟨-, -, hgt⟩ := compareScaled_spec d.digits b.low d.exponent (b.exponent - 2)
  obtain ⟨hlt, -, -⟩ := compareScaled_spec d.digits b.high d.exponent (b.exponent - 2)
  rw [readsBack_eq, hgt.mpr hlow, hlt.mpr hhigh]
  rfl

/-- The magnitude itself reads back. -/
theorem readsBack_of_value (pos : 0 < b.significand) (h : d.value = b.value) :
    b.readsBack d = true := by
  have hunit : (0 : ℚ) < 2 ^ (b.exponent - 2) := by positivity
  have hlow : b.low < 4 * b.significand := by
    unfold low
    split <;> omega
  have hhigh : 4 * b.significand < b.high := by
    unfold high
    omega
  apply readsBack_of_between
  · rw [h, value_eq_quarters, mul_lt_mul_iff_of_pos_right hunit, Nat.cast_lt]
    exact hlow
  · rw [h, value_eq_quarters, mul_lt_mul_iff_of_pos_right hunit, Nat.cast_lt]
    exact hhigh

end Binary

/-! ## The shortest digits -/

section Shortest

variable {b : Binary} {d : Decimal} {tie : Tie} {k : Int}

/-- A neighbour on a grid has the exponent of the grid, and reads back. -/
theorem readsBack_of_neighbour (h : neighbour? tie b k = some d) :
    d.exponent = k ∧ b.readsBack d = true := by
  unfold neighbour? at h
  dsimp only at h
  split at h
  · cases h
  · next hlow _ =>
    cases h
    exact ⟨rfl, hlow⟩
  · next _ hhigh =>
    cases h
    exact ⟨rfl, hhigh⟩
  · next hlow hhigh =>
    split at h
    · cases h
      exact ⟨rfl, hlow⟩
    · cases h
      exact ⟨rfl, hhigh⟩
    · cases h
      exact ⟨rfl, hhigh⟩
    · split at h
      · cases h
        exact ⟨rfl, hlow⟩
      · cases h
        exact ⟨rfl, hhigh⟩

/-- The digits of the decimal below a magnitude on the grid `10 ^ k`. -/
def Binary.digitsBelow (b : Binary) (k : Int) : Nat :=
  b.significand * Nat.pow 2 b.exponent.toNat * Nat.pow 10 (-k).toNat /
    (Nat.pow 2 (-b.exponent).toNat * Nat.pow 10 k.toNat)

/-- There is a neighbour on every grid where the decimal below or the one above reads back. -/
theorem isSome_neighbour
    (h : b.readsBack ⟨b.digitsBelow k, k⟩ = true ∨ b.readsBack ⟨b.digitsBelow k + 1, k⟩ = true) :
    (neighbour? tie b k).isSome = true := by
  unfold Binary.digitsBelow at h
  unfold neighbour?
  dsimp only
  split
  · next hlow hhigh =>
    rw [hlow, hhigh] at h
    cases h <;> contradiction
  · rfl
  · rfl
  · split
    · rfl
    · rfl
    · rfl
    · split <;> rfl

theorem value_stripZeros (fuel : Nat) (d : Decimal) :
    (stripZeros fuel d).value = d.value ∧ d.exponent ≤ (stripZeros fuel d).exponent := by
  induction fuel generalizing d with
  | zero => exact ⟨rfl, le_refl _⟩
  | succ fuel ih =>
    unfold stripZeros
    split
    · next h =>
      obtain ⟨hvalue, hexponent⟩ := ih ⟨d.digits / 10, d.exponent + 1⟩
      refine ⟨?_, by simp only at hexponent; omega⟩
      have hdigits : d.digits = d.digits / 10 * 10 := by omega
      rw [hvalue, Decimal.value, Decimal.value, zpow_add_one₀ (by norm_num)]
      conv_rhs => rw [hdigits]
      push_cast
      ring
    · exact ⟨rfl, le_refl _⟩

theorem value_exact (b : Binary) : b.exact.value = b.value := by
  have h2 := zpow_mul_pow_toNat (show (2 : ℚ) ≠ 0 by norm_num) b.exponent
  rw [Decimal.value, Binary.value, Binary.exact]
  simp only [Nat.pow_eq]
  push_cast
  rw [← h2]
  by_cases h : 0 ≤ b.exponent
  · rw [min_eq_right h, show (-b.exponent).toNat = 0 by omega]
    simp
  · have hneg : min b.exponent 0 = -((-b.exponent).toNat : Int) := by omega
    have h10 : (10 : ℚ) ^ (-b.exponent).toNat
        = 2 ^ (-b.exponent).toNat * 5 ^ (-b.exponent).toNat := by
      rw [← mul_pow]
      norm_num
    rw [hneg, zpow_neg, zpow_natCast, h10]
    field_simp

/-- **The shortest digits write a number that reads back.** -/
theorem Binary.exists_readsBack (pos : 0 < b.significand) (tie : Tie) :
    ∃ d, b.readsBack d = true ∧ (shortest tie b).value = d.value := by
  unfold shortest
  dsimp only
  rw [(value_stripZeros _ _).1]
  cases hfound : (List.range 17).findSome? fun (n : Nat) =>
      neighbour? tie b (b.magnitude - (n + 1 : Nat)) with
  | none => exact ⟨_, readsBack_of_value pos (value_exact b), rfl⟩
  | some d =>
    obtain ⟨n, -, hn⟩ := List.exists_of_findSome?_eq_some hfound
    exact ⟨_, (readsBack_of_neighbour hn).2, rfl⟩

/-- **The shortest digits lie within half a unit of the last place.** -/
theorem Binary.near_shortest (pos : 0 < b.significand) (tie : Tie) :
    b.Near (shortest tie b).value := by
  obtain ⟨d, hback, hvalue⟩ := Binary.exists_readsBack pos tie
  rw [hvalue]
  exact near_of_readsBack hback

end Shortest

/-! ## Integers nearby -/

namespace Binary

variable {b : Binary} {n : Nat}

/-- The ends of what rounds to parts, without fractions. -/
theorem Near.bounds (near : b.Near n) (j k : Nat) (h : (j : Int) - k = b.exponent - 2) :
    b.low * 2 ^ j ≤ n * 2 ^ k ∧ n * 2 ^ k ≤ b.high * 2 ^ j := by
  have hpos : (0 : ℚ) < 2 ^ k := by positivity
  have hunit : (2 : ℚ) ^ (b.exponent - 2) * 2 ^ k = 2 ^ j := by
    rw [← h, ← zpow_natCast, ← zpow_natCast, ← zpow_add₀ (by norm_num)]
    congr 1
    omega
  constructor
  · have hlow := mul_le_mul_of_nonneg_right near.low hpos.le
    rw [mul_assoc, hunit] at hlow
    exact_mod_cast hlow
  · have hhigh := mul_le_mul_of_nonneg_right near.high hpos.le
    rw [mul_assoc, hunit] at hhigh
    exact_mod_cast hhigh

/-- **Where the places are those of fractions, an integer nearby is the number itself.** -/
theorem standsFor_of_near (near : b.Near n) (fraction : b.exponent ≤ 0) : b.StandsFor n := by
  obtain ⟨hlow, hhigh⟩ := near.bounds 0 ((-b.exponent).toNat + 2) (by omega)
  have hlowest : 4 * b.significand - 2 ≤ b.low := by
    unfold low
    split <;> omega
  unfold high at hhigh
  rw [pow_add, ← mul_assoc] at hlow hhigh
  exact ⟨fraction, by omega⟩

/-- **Where the places are those of even numbers, integers nearby are beyond `2 ^ 53`.** -/
theorem le_of_near (canonical : b.Canonical) (near : b.Near n) (even : 0 < b.exponent) :
    2 ^ 53 ≤ n := by
  obtain ⟨hlow, -⟩ := near.bounds (b.exponent - 1).toNat 1 (by omega)
  have hfull : 2 ^ 52 ≤ b.significand := canonical.full.resolve_right (by omega)
  have hleast : 2 ^ 54 - 1 ≤ b.low := by
    by_cases h : b.significand = 2 ^ 52
    · have hnarrow : b.narrowBelow = true := by
        simp only [narrowBelow, implicitBit, h, Bool.and_eq_true, bne_iff_ne]
        exact ⟨rfl, by omega⟩
      rw [low, if_pos hnarrow]
      omega
    · unfold low
      split <;> omega
  have hpow : b.low ≤ b.low * 2 ^ (b.exponent - 1).toNat :=
    Nat.le_mul_of_pos_right _ (by positivity)
  omega

end Binary

end Formulary.Number
