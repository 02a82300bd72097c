import Formulary.Proofs.Number.Nearest
import Formulary.Proofs.Number.Signed
import Formulary.Proofs.Number.Text

/-!
# The order of doubles

* `Binary.Canonical.compare_value` : magnitudes are in the order of exponents and significands;
* `Binary.compare_unpacked` : parts are compared as the numbers that they stand for;
* `Extended`, `lt_iff_extended` : doubles are compared as numbers, with the infinities at both ends;
* `not_lt_of_isNaN` : what is not a number is not compared.
-/

namespace Formulary.Number

open Float.Model (UnpackedFloat)

/-! ## Parts -/

namespace Binary

variable {b c : Binary}

/-- **Magnitudes are in the order of their exponents,** and of their significands where these are
the same. -/
theorem Canonical.compare_value (hb : b.Canonical) (hc : c.Canonical) :
    (compare b.exponent c.exponent).then (compare b.significand c.significand) =
      compare b.value c.value := by
  obtain hlt | heq | hgt := lt_trichotomy b.exponent c.exponent
  · rw [compare_lt_iff_lt.mpr hlt, Ordering.lt_then, eq_comm, compare_lt_iff_lt]
    by_contra hle
    exact absurd (hb.exponent_le hc (not_lt.mp hle)) (by omega)
  · rw [compare_eq_iff_eq.mpr heq, Ordering.eq_then, value_eq, value_eq]
    have hunit : c.unit = b.unit := by rw [unit, unit, heq]
    have hpos := b.unit_pos
    rw [hunit]
    obtain hlt | heq | hgt := lt_trichotomy b.significand c.significand
    · rw [compare_lt_iff_lt.mpr hlt, eq_comm, compare_lt_iff_lt]
      exact mul_lt_mul_of_pos_right (by exact_mod_cast hlt) hpos
    · rw [heq, compare_eq_iff_eq.mpr rfl, compare_eq_iff_eq.mpr rfl]
    · rw [compare_gt_iff_gt.mpr hgt, eq_comm, compare_gt_iff_gt]
      exact mul_lt_mul_of_pos_right (by exact_mod_cast hgt) hpos
  · rw [compare_gt_iff_gt.mpr hgt, Ordering.gt_then, eq_comm, compare_gt_iff_gt]
    by_contra hle
    exact absurd (hc.exponent_le hb (not_lt.mp hle)) (by omega)

theorem unpacked_of_significand (h : b.significand = 0) : b.unpacked = .zero b.sign :=
  dif_pos h

theorem unpacked_of_ne (h : b.significand ≠ 0) :
    b.unpacked = .finite b.sign b.significand b.exponent (Nat.pos_of_ne_zero h) :=
  dif_neg h

theorem number_of_sign_positive (h : b.sign = .positive) : b.number = b.value := by
  rw [number, sign_eq_positive_iff.mp h, if_neg Bool.false_ne_true]

theorem number_of_sign_negative (h : b.sign = .negative) : b.number = -b.value := by
  rw [number, sign_eq_negative_iff.mp h, if_pos rfl]

theorem compare_neg_neg (v w : ℚ) : compare (-v) (-w) = (compare v w).swap := by
  obtain hlt | rfl | hgt := lt_trichotomy v w
  · rw [compare_lt_iff_lt.mpr hlt, compare_gt_iff_gt.mpr (neg_lt_neg hlt)]
    rfl
  · rw [compare_eq_iff_eq.mpr rfl, compare_eq_iff_eq.mpr rfl]
    rfl
  · rw [compare_gt_iff_gt.mpr hgt, compare_lt_iff_lt.mpr (neg_lt_neg hgt)]
    rfl

theorem compare_zero_finite (s : UnpackedFloat.Sign) (h : b.significand ≠ 0) :
    UnpackedFloat.compare (.zero s) b.unpacked = some (compare 0 b.number) ∧
      UnpackedFloat.compare b.unpacked (.zero s) = some (compare b.number 0) := by
  have hpos := b.value_pos_iff.mpr h
  have hneg := neg_lt_zero.mpr hpos
  rw [unpacked_of_ne h]
  cases hsign : b.sign with
  | positive =>
    rw [number_of_sign_positive hsign, compare_lt_iff_lt.mpr hpos, compare_gt_iff_gt.mpr hpos]
    exact ⟨rfl, rfl⟩
  | negative =>
    rw [number_of_sign_negative hsign, compare_gt_iff_gt.mpr hneg, compare_lt_iff_lt.mpr hneg]
    exact ⟨rfl, rfl⟩

theorem compare_finite (hb : b.Canonical) (hc : c.Canonical) (hbne : b.significand ≠ 0)
    (hcne : c.significand ≠ 0) :
    b.unpacked.compare c.unpacked = some (compare b.number c.number) := by
  have hcompare := hb.compare_value hc
  have hpos := b.value_pos_iff.mpr hbne
  have hpos' := c.value_pos_iff.mpr hcne
  rw [unpacked_of_ne hbne, unpacked_of_ne hcne]
  cases hsign : b.sign with
  | positive =>
    rw [number_of_sign_positive hsign]
    cases hsign' : c.sign with
    | positive =>
      rw [number_of_sign_positive hsign', ← hcompare]
      rfl
    | negative =>
      rw [number_of_sign_negative hsign', compare_gt_iff_gt.mpr (by linarith)]
      rfl
  | negative =>
    rw [number_of_sign_negative hsign]
    cases hsign' : c.sign with
    | positive =>
      rw [number_of_sign_positive hsign', compare_lt_iff_lt.mpr (by linarith)]
      rfl
    | negative =>
      rw [number_of_sign_negative hsign', compare_neg_neg, ← hcompare]
      rfl

/-- **Parts are compared as the numbers that they stand for.** -/
theorem compare_unpacked (hb : b.Canonical) (hc : c.Canonical) :
    b.unpacked.compare c.unpacked = some (compare b.number c.number) := by
  by_cases hbzero : b.significand = 0
  · rw [unpacked_of_significand hbzero, number_of_significand hbzero]
    by_cases hczero : c.significand = 0
    · rw [unpacked_of_significand hczero, number_of_significand hczero, compare_eq_iff_eq.mpr rfl]
      rfl
    · exact (compare_zero_finite _ hczero).1
  · by_cases hczero : c.significand = 0
    · rw [unpacked_of_significand hczero, number_of_significand hczero]
      exact (compare_zero_finite _ hbzero).2
    · exact compare_finite hb hc hbzero hczero

theorem compare_infinity (b : Binary) :
    b.unpacked.compare (.infinity .positive) = some .lt ∧
      b.unpacked.compare (.infinity .negative) = some .gt ∧
      UnpackedFloat.compare (.infinity .positive) b.unpacked = some .gt ∧
      UnpackedFloat.compare (.infinity .negative) b.unpacked = some .lt := by
  unfold unpacked
  split <;> exact ⟨rfl, rfl, rfl, rfl⟩

end Binary

/-! ## Doubles -/

section Doubles

variable {x y : Float}

/-- Numbers with the infinities below and above them. -/
abbrev Extended : Type :=
  WithBot (WithTop ℚ)

/-- The number that a double stands for. -/
def extended (x : Float) : Extended :=
  if x.isInf then (if x < 0 then ⊥ else ⊤) else (((Binary.ofFloat x).number : WithTop ℚ))

theorem lt_iff_compare :
    x < y ↔ x.toModel.unpack.compare y.toModel.unpack = some .lt := by
  change decide (x.toModel.unpack.lt y.toModel.unpack = true) = true ↔ _
  rw [decide_eq_true_iff, UnpackedFloat.lt, beq_iff_eq]

theorem not_lt_of_isNaN (h : x.isNaN = true ∨ y.isNaN = true) : ¬ x < y := by
  rw [lt_iff_compare]
  obtain h | h := h
  · change x.toModel.unpack.isNaN = true at h
    cases hx : x.toModel.unpack <;> rw [hx] at h <;> cases h
    simp [UnpackedFloat.compare]
  · change y.toModel.unpack.isNaN = true at h
    cases hy : y.toModel.unpack <;> rw [hy] at h <;> cases h
    cases x.toModel.unpack <;> simp [UnpackedFloat.compare]

/-- The forms of numbers in the arithmetic of doubles, with the numbers they stand for. -/
inductive Form : UnpackedFloat → Extended → Prop
  | finite {b : Binary} (canonical : b.Canonical) : Form b.unpacked (b.number : WithTop ℚ)
  | above : Form (.infinity .positive) ⊤
  | below : Form (.infinity .negative) ⊥

theorem Form.lt_iff {u u' : UnpackedFloat} {v v' : Extended} (h : Form u v) (h' : Form u' v') :
    u.compare u' = some .lt ↔ v < v' := by
  cases h with
  | @finite b hb =>
    obtain ⟨habove, hbelow, -⟩ := b.compare_infinity
    cases h' with
    | finite hc =>
      rw [Binary.compare_unpacked hb hc, Option.some_inj, compare_lt_iff_lt, WithBot.coe_lt_coe,
        WithTop.coe_lt_coe]
    | above => exact iff_of_true habove (WithBot.coe_lt_coe.mpr (WithTop.coe_lt_top _))
    | below => simp [hbelow]
  | above =>
    refine iff_of_false ?_ not_top_lt
    cases h' with
    | @finite c _ => simp [c.compare_infinity.2.2.1]
    | above => simp [UnpackedFloat.compare]
    | below => simp [UnpackedFloat.compare]
  | below =>
    cases h' with
    | @finite c _ => exact iff_of_true c.compare_infinity.2.2.2 (WithBot.bot_lt_coe _)
    | above => exact iff_of_true rfl bot_lt_top
    | below => simp [UnpackedFloat.compare]

theorem form_unpack (h : x.isNaN = false) : Form x.toModel.unpack (extended x) := by
  cases hinf : x.isInf with
  | false =>
    have hfinite := isFinite_iff.mpr ⟨h, hinf⟩
    rw [extended, hinf, if_neg Bool.false_ne_true, unpack_ofFloat hfinite]
    exact .finite (canonical_ofFloat x)
  | true =>
    have hlt := lt_iff_compare (x := x) (y := 0)
    rw [unpack_zero] at hlt
    rw [extended, hinf, if_pos rfl]
    change x.toModel.unpack.isInf = true at hinf
    cases hx : x.toModel.unpack with
    | infinity s =>
      rw [hx] at hlt
      cases s with
      | positive =>
        rw [if_neg (by rw [hlt]; simp [UnpackedFloat.compare])]
        exact .above
      | negative =>
        rw [if_pos (by rw [hlt]; rfl)]
        exact .below
    | _ =>
      rw [hx] at hinf
      cases hinf

/-- **Doubles are compared as the numbers that they stand for.** -/
theorem lt_iff_extended (hx : x.isNaN = false) (hy : y.isNaN = false) :
    x < y ↔ extended x < extended y := by
  rw [lt_iff_compare]
  exact (form_unpack hx).lt_iff (form_unpack hy)

end Doubles

end Formulary.Number
