import Formulary.Proofs.Number.Arithmetic

/-!
# Decimals are read as the nearest double

* `overflow_le_decimal`, `decimal_le_half_least` : decimals beyond all doubles, and below all;
* `unpack_powerOfTen` : powers of ten that are doubles;
* `rounds_ofScientific`, `rounds_ofDecimal` : decimals of every size are read as the nearest double.
-/

namespace Formulary.Number

open Float.Model (UnpackedFloat Format)
open Float.Model.UnpackedFloat

variable {m : Nat} {e : Int} {v : ℚ} {x : Float}

/-! ## Zero and sizes beyond the doubles -/

/-- The parts of zero. -/
def zeroParts : Binary :=
  ⟨false, 0, -1074⟩

/-- What is at most half of the least magnitude rounds to zero. -/
theorem rounds_zero (nonneg : 0 ≤ v) (small : v ≤ 2 ^ (-1075 : Int))
    (h : x.toModel = Float.Model.pack (.zero .positive)) : Rounds v x := by
  have hvalue : zeroParts.value = 0 := by simp [Binary.value, zeroParts]
  have hunit : zeroParts.unit / 2 = 2 ^ (-1075 : Int) := by
    rw [Binary.unit, div_eq_iff (by norm_num), ← zpow_add_one₀ (by norm_num)]
    rfl
  have hgap : zeroParts.gapBelow = zeroParts.unit := if_neg (by decide)
  refine rounds_of_pack (b := zeroParts) ⟨by decide, by decide, .inr rfl⟩ rfl ?_ h
  refine ⟨?_, ?_, fun _ => rfl⟩ <;> rw [hvalue]
  · have := zeroParts.unit_pos
    rw [hgap]
    linarith
  · rwa [zero_add, hunit]

theorem two_pow_le_ten_pow : (2 : ℚ) ^ (1203 : Int) ≤ 10 ^ (401 : Int) :=
  calc (2 : ℚ) ^ (1203 : Int) = (2 ^ (3 : Int)) ^ (401 : Int) := zpow_mul 2 3 401
    _ ≤ 10 ^ (401 : Int) := zpow_le_zpow_left₀ (by norm_num) (by norm_num) (by norm_num)

theorem overflow_le_decimal (pos : 0 < m) (h : 400 < e) : overflow ≤ m * 10 ^ e := by
  have hpos : (0 : ℚ) < 2 ^ (971 : Int) := zpow_pos (by norm_num) _
  have hm : (1 : ℚ) ≤ m := by exact_mod_cast pos
  calc overflow ≤ 2 ^ (53 : Int) * 2 ^ (971 : Int) :=
        mul_le_mul_of_nonneg_right (by norm_num) hpos.le
    _ = 2 ^ (1024 : Int) := (zpow_add₀ (by norm_num) _ _).symm
    _ ≤ 2 ^ (1203 : Int) := zpow_le_zpow_right₀ (by norm_num) (by norm_num)
    _ ≤ 10 ^ (401 : Int) := two_pow_le_ten_pow
    _ ≤ 10 ^ e := zpow_le_zpow_right₀ (by norm_num) (by omega)
    _ ≤ m * 10 ^ e := le_mul_of_one_le_left (zpow_nonneg (by norm_num) e) hm

theorem decimal_le_half_least (h : e + m.log2 + 1 < -400) :
    (m : ℚ) * 10 ^ e ≤ 2 ^ (-1075 : Int) := by
  have hlength : (m : ℚ) ≤ 10 ^ ((m.log2 + 1 : Nat) : Int) := by
    rw [zpow_natCast]
    calc (m : ℚ) ≤ 2 ^ (m.log2 + 1) := by exact_mod_cast Nat.lt_log2_self.le
      _ ≤ 10 ^ (m.log2 + 1) := pow_le_pow_left₀ (by norm_num) (by norm_num) _
  calc (m : ℚ) * 10 ^ e ≤ 10 ^ ((m.log2 + 1 : Nat) : Int) * 10 ^ e :=
        mul_le_mul_of_nonneg_right hlength (zpow_nonneg (by norm_num) e)
    _ = 10 ^ (((m.log2 + 1 : Nat) : Int) + e) := (zpow_add₀ (by norm_num) _ _).symm
    _ ≤ 10 ^ (-401 : Int) := zpow_le_zpow_right₀ (by norm_num) (by push_cast; omega)
    _ = (10 ^ (401 : Int))⁻¹ := zpow_neg _ _
    _ ≤ (2 ^ (1203 : Int))⁻¹ :=
        inv_anti₀ (zpow_pos (by norm_num) _) two_pow_le_ten_pow
    _ = 2 ^ (-1203 : Int) := (zpow_neg _ _).symm
    _ ≤ 2 ^ (-1075 : Int) := zpow_le_zpow_right₀ (by norm_num) (by norm_num)

/-! ## Powers of ten -/

theorem parts_powerOfTen : ∀ i : Fin Float.exactlyRepresentablePowersOfTen.size,
    (Float.exactlyRepresentablePowersOfTen[i]).isFinite = true ∧
      (Binary.ofFloat Float.exactlyRepresentablePowersOfTen[i]).negative = false ∧
      (Binary.ofFloat Float.exactlyRepresentablePowersOfTen[i]).significand ≠ 0 ∧
      (Binary.ofFloat Float.exactlyRepresentablePowersOfTen[i]).significand *
          2 ^ (Binary.ofFloat Float.exactlyRepresentablePowersOfTen[i]).exponent.toNat =
        10 ^ i.val *
          2 ^ (-(Binary.ofFloat Float.exactlyRepresentablePowersOfTen[i]).exponent).toNat := by
  decide

/-- The table of powers of ten holds powers of ten. -/
theorem unpack_powerOfTen {e : Nat} (h : e < Float.exactlyRepresentablePowersOfTen.size) :
    ∃ p k, ∃ pos : 0 < p,
      Float.exactlyRepresentablePowersOfTen[e].toModel.unpack = .finite .positive p k pos ∧
        (p * 2 ^ k : ℚ) = 10 ^ e := by
  obtain ⟨hfinite, hnegative, hne, heq⟩ := parts_powerOfTen ⟨e, h⟩
  simp only [Fin.getElem_fin] at hfinite hnegative hne heq
  generalize Float.exactlyRepresentablePowersOfTen[e] = x at *
  refine ⟨(Binary.ofFloat x).significand, (Binary.ofFloat x).exponent, Nat.pos_of_ne_zero hne,
    ?_, ?_⟩
  · rw [unpack_ofFloat hfinite, Binary.unpacked, dif_neg hne,
      Binary.sign_eq_positive_iff.mpr hnegative]
  · have hscale := zpow_mul_pow_toNat (show (2 : ℚ) ≠ 0 by norm_num) (Binary.ofFloat x).exponent
    have hpos : (0 : ℚ) < 2 ^ (-(Binary.ofFloat x).exponent).toNat := by positivity
    rw [← mul_left_inj' hpos.ne', mul_assoc, hscale]
    exact_mod_cast heq

/-! ## Decimals -/

theorem value_drawnOut (hm : m < 2 ^ 53) :
    (drawnOut m * 2 ^ ((m.log2 : Int) - 52) : ℚ) = m := by
  have hlog := log2_le_of_lt hm
  rw [drawnOut]
  push_cast
  rw [mul_assoc, ← zpow_natCast, ← zpow_add₀ (by norm_num),
    show ((52 - m.log2 : Nat) : Int) + ((m.log2 : Int) - 52) = 0 by omega, zpow_zero, mul_one]

/-- Numbers below `2 ^ 53` and the powers of ten of the table are doubles, and are multiplied or
divided as such. -/
theorem rounds_ofScientific_fast (pos : 0 < m) (hm : m < 2 ^ 53) {e : Nat}
    (he : e < Float.exactlyRepresentablePowersOfTen.size) :
    Rounds (m * 10 ^ (e : Int)) (m.toUInt64.toFloat * Float.exactlyRepresentablePowersOfTen[e]) ∧
      Rounds (m * 10 ^ (-(e : Int)))
        (m.toUInt64.toFloat / Float.exactlyRepresentablePowersOfTen[e]) := by
  have hunpack := unpack_toFloat pos hm
  obtain ⟨p, k, hp, hpower, hvalue⟩ := unpack_powerOfTen he
  have hlog := log2_drawnOut pos hm
  constructor
  · have hlong : 52 ≤ (drawnOut m * p).log2 := by
      have hle := (Nat.log2_eq_iff (pos_of_log2 hlog).ne').mp hlog
      exact (Nat.le_log2 (Nat.mul_pos (pos_of_log2 hlog) hp).ne').mpr
        (hle.1.trans (Nat.le_mul_of_pos_right _ hp))
    rw [← value_drawnOut hm, zpow_natCast, ← hvalue]
    refine rounds_mul (pos_of_log2 hlog) hp hlong ?_
    rw [← hunpack, ← hpower]
    rfl
  · rw [zpow_neg, ← div_eq_mul_inv, ← value_drawnOut hm, zpow_natCast, ← hvalue]
    refine rounds_div (pos_of_log2 hlog) hp ?_
    rw [← hunpack, ← hpower]
    rfl

/-- Other numbers are multiplied by or divided by powers of ten that are not rounded before. -/
theorem rounds_ofScientific_slow (pos : 0 < m) (e : Int)
    (h : x.toModel = Float.Model.ofScientific m e) : Rounds (m * 10 ^ e) x := by
  rw [Float.Model.ofScientific, UnpackedFloat.ofScientific, dif_neg pos.ne'] at h
  have hm : (m : ℚ) = (m <<< Format.binary64.mantissaBits : Nat) *
      2 ^ (-(Format.binary64.mantissaBits : Int)) := by
    rw [Nat.shiftLeft_eq]
    push_cast
    rw [zpow_neg, zpow_natCast, mul_assoc, mul_inv_cancel₀ (by positivity), mul_one]
  split at h
  · next hlarge =>
    have he : 2 ^ 11 < e := hlarge
    exact .infinite (overflow_le_decimal pos (by omega)) (congrArg Float.ofModel h)
  · split at h
    · next hsmall =>
      have he : e < -(2 ^ 11 + (m.log2 : Int)) := hsmall
      exact rounds_zero (by positivity) (decimal_le_half_least (by omega)) h
    · split at h
      · next hnonneg =>
        have hvalue : (m : ℚ) * 10 ^ e = (m <<< Format.binary64.mantissaBits : Nat) *
            2 ^ (-(Format.binary64.mantissaBits : Int)) *
              ((10 ^ e.toNat : Nat) * 2 ^ (0 : Int)) := by
          rw [← hm, zpow_zero, mul_one]
          push_cast
          rw [← zpow_natCast, Int.toNat_of_nonneg hnonneg]
        rw [hvalue]
        have hle : 2 ^ 52 ≤ (m <<< Format.binary64.mantissaBits) * 10 ^ e.toNat :=
          calc 2 ^ 52 ≤ 1 * 2 ^ 53 := by norm_num
            _ ≤ m * 2 ^ 53 := Nat.mul_le_mul_right _ pos
            _ = m <<< Format.binary64.mantissaBits := (Nat.shiftLeft_eq m 53).symm
            _ ≤ _ := Nat.le_mul_of_pos_right _ (Nat.pow_pos (by decide))
        exact rounds_mul _ _ ((Nat.le_log2 (by omega)).mpr hle) h
      · next hneg =>
        have hvalue : (m : ℚ) * 10 ^ e =
            m * 2 ^ (0 : Int) / ((10 ^ (-e).toNat : Nat) * 2 ^ (0 : Int)) := by
          rw [zpow_zero, mul_one, mul_one]
          push_cast
          rw [← zpow_natCast, Int.toNat_of_nonneg (by omega), zpow_neg, div_inv_eq_mul]
        rw [hvalue]
        exact rounds_div _ _ h

theorem rounds_ofScientific (pos : 0 < m) (s : Bool) (e : Nat) :
    Rounds (m * 10 ^ (if s then -(e : Int) else e)) (Float.ofScientific m s e) := by
  rw [Float.ofScientific]
  by_cases h : m < 2 ^ 53 ∧ e ≤ 22
  · obtain ⟨hmul, hdiv⟩ := rounds_ofScientific_fast pos h.1 (show e < 23 by omega)
    rw [dif_pos h]
    cases s
    · exact hmul
    · exact hdiv
  · rw [dif_neg h]
    cases s
    · exact rounds_ofScientific_slow pos e rfl
    · exact rounds_ofScientific_slow pos (-e) (by cases e <;> rfl)

/-- The double of a natural number is the nearest to it. -/
theorem rounds_ofNat (n : Nat) : Rounds n (Float.ofNat n) := by
  obtain rfl | pos := Nat.eq_zero_or_pos n
  · exact rounds_zero (by simp) (by simp) rfl
  · have h := rounds_ofScientific pos false 0
    rwa [if_neg Bool.false_ne_true, Nat.cast_zero, zpow_zero, mul_one] at h

/-- **A decimal is read as the nearest double.** -/
theorem rounds_ofDecimal (m : Nat) (e : Int) : Rounds (m * 10 ^ e) (ofDecimal m e) := by
  unfold ofDecimal
  split
  · next hzero =>
    rw [hzero, Nat.cast_zero, zero_mul]
    exact rounds_zero le_rfl (by positivity) rfl
  · next hne =>
    have pos := Nat.pos_of_ne_zero hne
    split
    · next hlarge => exact .infinite (overflow_le_decimal pos hlarge) rfl
    · split
      · next hsmall => exact rounds_zero (by positivity) (decimal_le_half_least hsmall) rfl
      · have h := rounds_ofScientific pos (decide (e < 0)) e.natAbs
        have he : (if decide (e < 0) then -(e.natAbs : Int) else e.natAbs) = e := by
          by_cases hneg : e < 0
          · rw [if_pos (decide_eq_true hneg)]
            omega
          · rw [if_neg (by simpa using hneg)]
            omega
        rwa [he] at h

end Formulary.Number
