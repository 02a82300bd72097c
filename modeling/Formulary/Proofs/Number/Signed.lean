import Formulary.Proofs.Number.Scientific
import Formulary.Proofs.Number.Truncation

/-!
# The double nearest to an integer

* `ofFloat_neg`, `number_neg` : a negated double has the negated parts and the negated number;
* `NearestTo` : the nearest finite double to a number of either sign, which `NearestTo.neg` carries
  over to the other sign;
* `Rounds.nearestTo` : the double that a number rounds to is nearer than the negative ones, too;
* `nearestTo_ofInt` : the double of an integer is the nearest.
-/

namespace Formulary.Number

open Float.Model (UnpackedFloat)

variable {x : Float} {b : Binary} {q v : ℚ} {n : Int}

/-! ## Negation -/

namespace Binary

/-- The parts of the negated number. -/
def negate (b : Binary) : Binary :=
  { b with negative := !b.negative }

theorem number_negate (b : Binary) : b.negate.number = -b.number := by
  have hvalue : b.negate.value = b.value := rfl
  have hnegative : b.negate.negative = !b.negative := rfl
  rw [number, number, hvalue, hnegative]
  cases b.negative <;> simp

theorem Canonical.negate (h : b.Canonical) : b.negate.Canonical :=
  ⟨h.significand_lt, h.exponent_ge, h.full⟩

theorem neg_unpacked (b : Binary) : b.unpacked.neg = b.negate.unpacked := by
  have hsign : b.negate.sign = -b.sign := by
    unfold sign negate
    cases b.negative <;> rfl
  unfold unpacked
  rw [hsign]
  by_cases h : b.significand = 0
  · rw [dif_pos h, dif_pos (show b.negate.significand = 0 from h)]
    rfl
  · rw [dif_neg h, dif_neg (show ¬ b.negate.significand = 0 from h)]
    rfl

theorem number_of_nonneg (h : 0 ≤ b.number) : b.number = b.value := by
  have hvalue := b.value_nonneg
  unfold number at h ⊢
  split
  · next hnegative =>
    rw [if_pos hnegative] at h
    linarith
  · rfl

theorem number_of_significand (h : b.significand = 0) : b.number = 0 := by
  have hvalue : b.value = 0 := by simp [value, h]
  simp [number, hvalue]

end Binary

/-- **A negated double has the negated parts.** -/
theorem ofFloat_neg (finite : x.isFinite = true) :
    (-x).isFinite = true ∧ Binary.ofFloat (-x) = (Binary.ofFloat x).negate := by
  have hcanonical := (canonical_ofFloat x).negate
  have hunpack : (-x).toModel.unpack = (Binary.ofFloat x).negate.unpacked := by
    have hneg : (-x).toModel.unpack =
        (Float.Model.pack (UnpackedFloat.neg x.toModel.unpack)).unpack := rfl
    rw [hneg, unpack_ofFloat finite, Binary.neg_unpacked]
    exact unpack_pack hcanonical (exponent_le_of_isFinite finite)
  have hfinite : (-x).isFinite = true := by
    change (-x).toModel.unpack.isFinite = true
    rw [hunpack, Binary.unpacked]
    split <;> rfl
  rw [unpack_ofFloat hfinite] at hunpack
  exact ⟨hfinite, (canonical_ofFloat (-x)).eq_of_unpacked hcanonical hunpack⟩

theorem number_neg (finite : x.isFinite = true) :
    (Binary.ofFloat (-x)).number = -(Binary.ofFloat x).number := by
  rw [(ofFloat_neg finite).2, Binary.number_negate]

/-! ## The nearest double -/

/-- Whether a finite double is the nearest one to a number, the even one of two. -/
structure NearestTo (q : ℚ) (x : Float) : Prop where
  finite : x.isFinite = true
  closest : ∀ y : Float, y.isFinite = true →
    (Binary.ofFloat y).number ≠ (Binary.ofFloat x).number →
      |(Binary.ofFloat x).number - q| < |(Binary.ofFloat y).number - q| ∨
        |(Binary.ofFloat x).number - q| = |(Binary.ofFloat y).number - q| ∧
          (Binary.ofFloat x).significand % 2 = 0

theorem NearestTo.neg (h : NearestTo q x) : NearestTo (-q) (-x) := by
  obtain ⟨hfinite, hparts⟩ := ofFloat_neg h.finite
  have hnumber := number_neg h.finite
  have hsignificand : (Binary.ofFloat (-x)).significand = (Binary.ofFloat x).significand := by
    rw [hparts, Binary.negate]
  refine ⟨hfinite, fun y hy hne => ?_⟩
  have hnumber' := number_neg hy
  have hclosest := h.closest (-y) (ofFloat_neg hy).1 fun heq =>
    hne (by rw [hnumber, ← heq, hnumber', neg_neg])
  have hx : (Binary.ofFloat (-x)).number - -q = -((Binary.ofFloat x).number - q) := by
    rw [hnumber]
    ring
  have hy : (Binary.ofFloat (-y)).number - q = -((Binary.ofFloat y).number - -q) := by
    rw [hnumber']
    ring
  rw [hx, abs_neg, hsignificand]
  rwa [hy, abs_neg] at hclosest

/-- What rounds to a double without a sign is not nearer to zero. -/
theorem Binary.Captures.le_zero (h : b.Captures v) (canonical : b.Canonical) (nonneg : 0 ≤ v) :
    |b.value - v| ≤ v := by
  have hzero : zeroParts.value = 0 := by simp [Binary.value, zeroParts]
  have habs : |zeroParts.value - v| = v := by rw [hzero, zero_sub, abs_neg, abs_of_nonneg nonneg]
  by_cases heq : b.value = 0
  · rw [heq, ← hzero, habs]
  · have hnearest := h.nearest canonical (c := zeroParts) ⟨by decide, by decide, .inr rfl⟩
      (by rw [hzero]; exact Ne.symm heq)
    rw [habs] at hnearest
    obtain hlt | ⟨heq, -⟩ := hnearest
    · exact hlt.le
    · exact heq.le

/-- **The double that a number rounds to is the nearest,** negative doubles included. -/
theorem Rounds.nearestTo (h : Rounds v x) (nonneg : 0 ≤ v) (small : v < overflow) :
    NearestTo v x := by
  cases h with
  | infinite beyond _ => exact absurd small (not_lt.mpr beyond)
  | finite finite positive captures =>
    have hnumber : (Binary.ofFloat x).number = (Binary.ofFloat x).value := by
      rw [Binary.number, positive, if_neg Bool.false_ne_true]
    refine ⟨finite, fun y hy hne => ?_⟩
    rw [hnumber] at hne ⊢
    obtain hneg | hpos := lt_or_ge (Binary.ofFloat y).number 0
    · refine .inl ?_
      rw [abs_of_neg (show (Binary.ofFloat y).number - v < 0 by linarith)]
      have := captures.le_zero (canonical_ofFloat x) nonneg
      linarith
    · rw [Binary.number_of_nonneg hpos] at hne ⊢
      obtain hlt | ⟨heq, heven, -⟩ :=
        captures.nearest (canonical_ofFloat x) (canonical_ofFloat y) hne
      · exact .inl hlt
      · exact .inr ⟨heq, heven⟩

theorem lt_overflow (h : v ≤ 2 ^ 64) : v < overflow :=
  calc v ≤ 2 ^ 64 := h
    _ < (2 ^ 53 - 1 / 2) * 2 ^ (12 : Int) := by norm_num
    _ ≤ (2 ^ 53 - 1 / 2) * 2 ^ (971 : Int) :=
      mul_le_mul_of_nonneg_left (zpow_le_zpow_right₀ (by norm_num) (by norm_num)) (by norm_num)

/-- **The double of an integer is the nearest to it.** -/
theorem nearestTo_ofInt (h : n.natAbs ≤ 2 ^ 64) : NearestTo n (ofInt n) := by
  have hnatural (k : Nat) (hk : k ≤ 2 ^ 64) : NearestTo k (Float.ofNat k) :=
    (rounds_ofNat k).nearestTo (by positivity) (lt_overflow (by exact_mod_cast hk))
  cases n with
  | ofNat k => exact hnatural k h
  | negSucc k =>
    have hneg := (hnatural (k + 1) (by simpa using h)).neg
    rwa [show (-((k + 1 : Nat) : ℚ)) = ((Int.negSucc k : Int) : ℚ) by push_cast; ring] at hneg

end Formulary.Number
