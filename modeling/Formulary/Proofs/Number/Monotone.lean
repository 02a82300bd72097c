import Formulary.Proofs.Number.Ordering
import Formulary.Proofs.Number.Signed

/-!
# Rounding keeps the order

* `Binary.Captures.value_le` : of two numbers the smaller one rounds to the smaller magnitude;
* `le_iff_number` : finite doubles are ordered as the numbers that they stand for;
* `RoundsTo`, `Binary.RoundsTo.number_le`, `RoundsTo.le` : what numbers of either sign round to, in
  their order;
* `roundsTo_signed` : a rounded magnitude with the sign of the number.
-/

namespace Formulary.Number

open Float.Model (UnpackedFloat)

variable {x y : Float} {q r v w : ℚ}

/-! ## Magnitudes -/

namespace Binary

variable {b c : Binary}

/-- **Of two numbers the smaller one rounds to the smaller magnitude.** -/
theorem Captures.value_le (h : b.Captures v) (h' : c.Captures w) (hb : b.Canonical)
    (hc : c.Canonical) (hle : v ≤ w) : b.value ≤ c.value := by
  by_contra hlt
  rw [not_le] at hlt
  -- both numbers are half way between the two magnitudes, of which only one is even
  have hnear : |b.value - v| ≤ |c.value - v| := by
    rcases h.nearest hb hc hlt.ne with hlt | ⟨heq, -⟩
    · exact hlt.le
    · exact heq.le
  have hnear' : |c.value - w| ≤ |b.value - w| := by
    rcases h'.nearest hc hb hlt.ne' with hlt | ⟨heq, -⟩
    · exact hlt.le
    · exact heq.le
  have hv : b.value + c.value ≤ 2 * v := by
    rw [← sq_le_sq] at hnear
    nlinarith
  have hw : 2 * w ≤ b.value + c.value := by
    rw [← sq_le_sq] at hnear'
    nlinarith
  obtain rfl : v = w := by linarith
  rcases h.nearest hb hc hlt.ne with hlt | ⟨-, -, hodd⟩
  · exact absurd hnear' (not_le.mpr hlt)
  · rcases h'.nearest hc hb hlt.ne' with hlt' | ⟨-, heven, -⟩
    · exact absurd hnear (not_le.mpr hlt')
    · omega

/-- What zero rounds to is zero. -/
theorem Captures.value_of_zero (h : b.Captures 0) (canonical : b.Canonical) : b.value = 0 := by
  have hle := h.le_zero canonical le_rfl
  rw [sub_zero, abs_nonpos_iff] at hle
  exact hle

end Binary

/-! ## The order of doubles -/

/-- **Finite doubles are ordered as the numbers that they stand for.** -/
theorem le_iff_number (hx : x.isFinite = true) (hy : y.isFinite = true) :
    x ≤ y ↔ (Binary.ofFloat x).number ≤ (Binary.ofFloat y).number := by
  change decide (x.toModel.unpack.le y.toModel.unpack = true) = true ↔ _
  rw [decide_eq_true_iff, UnpackedFloat.le, unpack_ofFloat hx, unpack_ofFloat hy,
    Binary.compare_unpacked (canonical_ofFloat x) (canonical_ofFloat y), Option.any_some,
    Ordering.isLE_iff_ne_gt, compare_gt_iff_gt, not_lt]

/-! ## Numbers of either sign -/

/-- Whether parts are what a number of either sign rounds to. -/
structure Binary.RoundsTo (q : ℚ) (b : Binary) : Prop where
  canonical : b.Canonical
  captures : b.Captures |q|
  sign : 0 ≤ q * b.number

namespace Binary.RoundsTo

variable {b c : Binary}

theorem negate (h : b.RoundsTo q) : b.negate.RoundsTo (-q) := by
  refine ⟨h.canonical.negate, ?_, ?_⟩
  · rw [abs_neg]
    exact ⟨h.captures.low, h.captures.high, h.captures.tie⟩
  · rw [number_negate, neg_mul_neg]
    exact h.sign

theorem number_of_nonneg (h : b.RoundsTo q) (nonneg : 0 ≤ q) : b.number = b.value := by
  obtain hpos | rfl := nonneg.lt_or_eq
  · exact Binary.number_of_nonneg ((mul_nonneg_iff_of_pos_left hpos).mp h.sign)
  · have hzero := h.captures
    rw [abs_zero] at hzero
    rw [number, hzero.value_of_zero h.canonical, neg_zero, ite_self]

theorem number_of_nonpos (h : b.RoundsTo q) (nonpos : q ≤ 0) : b.number = -b.value := by
  have hneg := h.negate.number_of_nonneg (neg_nonneg.mpr nonpos)
  rw [number_negate] at hneg
  exact neg_eq_iff_eq_neg.mp hneg

/-- **Of two numbers of either sign the smaller one rounds to the smaller number.** -/
theorem number_le (h : b.RoundsTo q) (h' : c.RoundsTo r) (hle : q ≤ r) : b.number ≤ c.number := by
  obtain hq | hq := le_total 0 q
  · rw [h.number_of_nonneg hq, h'.number_of_nonneg (hq.trans hle)]
    exact h.captures.value_le h'.captures h.canonical h'.canonical (abs_le_abs_of_nonneg hq hle)
  · obtain hr | hr := le_total 0 r
    · rw [h.number_of_nonpos hq, h'.number_of_nonneg hr]
      exact (neg_nonpos.mpr (value_nonneg _)).trans (value_nonneg _)
    · rw [h.number_of_nonpos hq, h'.number_of_nonpos hr]
      exact neg_le_neg (h'.captures.value_le h.captures h'.canonical h.canonical
        (abs_le_abs_of_nonpos hr hle))

end Binary.RoundsTo

/-- Whether a finite double is what a number of either sign rounds to. -/
structure RoundsTo (q : ℚ) (x : Float) : Prop where
  finite : x.isFinite = true
  parts : (Binary.ofFloat x).RoundsTo q

namespace RoundsTo

theorem neg (h : RoundsTo q x) : RoundsTo (-q) (-x) := by
  obtain ⟨hfinite, hparts⟩ := ofFloat_neg h.finite
  exact ⟨hfinite, hparts ▸ h.parts.negate⟩

theorem le (h : RoundsTo q x) (h' : RoundsTo r y) (hle : q ≤ r) : x ≤ y :=
  (le_iff_number h.finite h'.finite).mpr (h.parts.number_le h'.parts hle)

/-- What rounds to a finite double is not beyond all of them. -/
theorem lt_overflow (h : RoundsTo q x) : |q| < overflow :=
  lt_overflow_of_captures h.finite h.parts.captures

end RoundsTo

theorem Rounds.roundsTo (h : Rounds v x) (nonneg : 0 ≤ v) (small : v < overflow) :
    RoundsTo v x := by
  cases h with
  | infinite beyond _ => exact absurd small (not_lt.mpr beyond)
  | finite finite positive captures =>
    refine ⟨finite, canonical_ofFloat x, by rwa [abs_of_nonneg nonneg], mul_nonneg nonneg ?_⟩
    rw [Binary.number, positive, if_neg Bool.false_ne_true]
    exact Binary.value_nonneg _

/-- **A rounded magnitude with a sign is what the number with that sign rounds to.** -/
theorem roundsTo_signed (h : Rounds v x) (nonneg : 0 ≤ v) (small : v < overflow)
    (negative : Bool) : RoundsTo (if negative then -v else v) (signed negative x) := by
  have hrounds := h.roundsTo nonneg small
  cases negative with
  | false => exact hrounds
  | true => exact hrounds.neg

end Formulary.Number
