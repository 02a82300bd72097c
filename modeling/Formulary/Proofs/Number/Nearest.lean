import Formulary.Number.Reading
import Formulary.Proofs.Number.Rounding

/-!
# The double nearest to a number

* `Binary.unit`, `Binary.gapBelow` : how far away the magnitudes above and below are;
* `Binary.Canonical.spacing_above`, `Binary.Canonical.spacing_below` : no magnitude lies in between;
* `Binary.Captures` : what rounds to parts, up to half the way on both sides;
* `Binary.Captures.nearest`, `Binary.Captures.unique` : no magnitude is nearer, and no other
  captures the same;
* `Nearest`, `Rounds.nearest` : the double nearest to a number.
-/

namespace Formulary.Number

open Float.Model (UnpackedFloat Format)
open Float.Model.UnpackedFloat

namespace Binary

variable {b c : Binary} {v : ℚ}

/-! ## Spacing -/

/-- The unit of the last place, which is the distance to the next magnitude above. -/
def unit (b : Binary) : ℚ :=
  2 ^ b.exponent

/-- The distance to the next magnitude below. -/
def gapBelow (b : Binary) : ℚ :=
  if b.narrowBelow then b.unit / 2 else b.unit

theorem unit_pos (b : Binary) : 0 < b.unit := by
  unfold unit
  positivity

theorem gapBelow_pos (b : Binary) : 0 < b.gapBelow := by
  have := b.unit_pos
  unfold gapBelow
  split <;> linarith

theorem value_eq (b : Binary) : b.value = b.significand * b.unit := rfl

theorem narrowBelow_iff :
    b.narrowBelow = true ↔ b.significand = 2 ^ 52 ∧ b.exponent ≠ -1074 := by
  simp [narrowBelow, implicitBit]

/-- A larger exponent has a unit of at least twice the size. -/
theorem two_mul_unit_le (h : b.exponent < c.exponent) : 2 * b.unit ≤ c.unit := by
  unfold unit
  rw [← zpow_one_add₀ (by norm_num)]
  exact zpow_le_zpow_right₀ (by norm_num) (by omega)

/-- The exponents of magnitudes are in their order. -/
theorem Canonical.exponent_le (hb : b.Canonical) (hc : c.Canonical) (h : c.value ≤ b.value) :
    c.exponent ≤ b.exponent := by
  by_contra hlt
  rw [not_le] at hlt
  have hunit := two_mul_unit_le hlt
  have hfull : 2 ^ 52 ≤ c.significand := hc.full.resolve_right (by have := hb.exponent_ge; omega)
  have hc52 : (2 ^ 52 : ℚ) ≤ c.significand := by exact_mod_cast hfull
  have hb53 : (b.significand : ℚ) < 2 ^ 53 := by exact_mod_cast hb.significand_lt
  have hpos := b.unit_pos
  rw [value_eq, value_eq] at h
  nlinarith

/-- **There is no magnitude within a unit of the last place above,** and of two that are a unit
apart one is odd. -/
theorem Canonical.spacing_above (hb : b.Canonical) (hc : c.Canonical) (h : b.value < c.value) :
    b.value + b.unit ≤ c.value ∧
      (b.value + b.unit = c.value → b.significand % 2 = 1 ∨ c.significand % 2 = 1) := by
  have hpos := b.unit_pos
  rw [value_eq, value_eq, ← add_one_mul] at *
  obtain heq | hlt := (hc.exponent_le hb h.le).eq_or_lt
  · have hunit : c.unit = b.unit := by rw [unit, unit, heq]
    rw [hunit] at h ⊢
    have hsucc : b.significand + 1 ≤ c.significand := by
      exact_mod_cast (mul_lt_mul_iff_of_pos_right hpos).mp h
    refine ⟨mul_le_mul_of_nonneg_right (by exact_mod_cast hsucc) hpos.le, fun heq => ?_⟩
    have : b.significand + 1 = c.significand := by exact_mod_cast mul_right_cancel₀ hpos.ne' heq
    omega
  · have hunit := two_mul_unit_le hlt
    have hfull : 2 ^ 52 ≤ c.significand := hc.full.resolve_right (by have := hb.exponent_ge; omega)
    have hc52 : (2 ^ 52 : ℚ) ≤ c.significand := by exact_mod_cast hfull
    have hlast : (2 ^ 53 : ℚ) * b.unit ≤ c.significand * c.unit := by nlinarith
    have hb53 : (b.significand + 1 : ℚ) ≤ 2 ^ 53 := by exact_mod_cast hb.significand_lt
    refine ⟨(mul_le_mul_of_nonneg_right hb53 hpos.le).trans hlast, fun heq => ?_⟩
    have hfar : (2 ^ 53 : ℚ) ≤ b.significand + 1 := by
      rw [← heq] at hlast
      exact le_of_mul_le_mul_right hlast hpos
    have : 2 ^ 53 ≤ b.significand + 1 := by exact_mod_cast hfar
    have := hb.significand_lt
    omega

/-- **There is no magnitude within the gap below,** and of two that it parts one is odd. -/
theorem Canonical.spacing_below (hb : b.Canonical) (hc : c.Canonical) (h : c.value < b.value) :
    c.value ≤ b.value - b.gapBelow ∧
      (c.value = b.value - b.gapBelow → b.significand % 2 = 1 ∨ c.significand % 2 = 1) := by
  obtain ⟨hle, hodd⟩ := hc.spacing_above hb h
  have hc53 : (c.significand : ℚ) ≤ 2 ^ 53 - 1 := by
    have : (c.significand + 1 : ℚ) ≤ 2 ^ 53 := by exact_mod_cast hc.significand_lt
    linarith
  have hcpos := c.unit_pos
  obtain heq | hlt := (hb.exponent_le hc h.le).eq_or_lt
  · have hunit : c.unit = b.unit := by rw [unit, unit, heq]
    have hwide : b.gapBelow = b.unit := by
      refine if_neg fun hnarrow => ?_
      obtain ⟨hleast, hexponent⟩ := narrowBelow_iff.mp hnarrow
      have hfull : 2 ^ 52 ≤ c.significand := hc.full.resolve_right (by omega)
      rw [value_eq, value_eq, hunit, mul_lt_mul_iff_of_pos_right b.unit_pos, Nat.cast_lt] at h
      omega
    rw [hwide, ← hunit]
    exact ⟨by linarith, fun heq => (hodd (by linarith)).symm⟩
  · have hexponent : b.exponent ≠ -1074 := by
      have := hc.exponent_ge
      omega
    have hunit := two_mul_unit_le hlt
    have hlast : c.value ≤ (2 ^ 53 - 1) * c.unit := mul_le_mul_of_nonneg_right hc53 hcpos.le
    by_cases hnarrow : b.narrowBelow = true
    · have hvalue : b.value = 2 ^ 52 * b.unit := by
        rw [value_eq, (narrowBelow_iff.mp hnarrow).1]
        norm_num
      rw [gapBelow, if_pos hnarrow, hvalue]
      refine ⟨by linarith, fun heq => .inr ?_⟩
      have hfar : (2 ^ 53 - 1 : ℚ) ≤ c.significand := by
        rw [value_eq] at heq
        exact le_of_mul_le_mul_right (by linarith) hcpos
      have : 2 ^ 53 ≤ c.significand + 1 := by
        have : (2 ^ 53 : ℚ) ≤ c.significand + 1 := by linarith
        exact_mod_cast this
      have := hc.significand_lt
      omega
    · have hsucc : 2 ^ 52 + 1 ≤ b.significand := by
        have hfull : 2 ^ 52 ≤ b.significand := hb.full.resolve_right hexponent
        have hne : b.significand ≠ 2 ^ 52 := fun h => hnarrow (narrowBelow_iff.mpr ⟨h, hexponent⟩)
        omega
      have hvalue : (2 ^ 52 + 1) * b.unit ≤ b.value :=
        mul_le_mul_of_nonneg_right (by exact_mod_cast hsucc) b.unit_pos.le
      rw [gapBelow, if_neg hnarrow]
      exact ⟨by linarith, fun heq => by linarith⟩

/-- Magnitudes that are equal have the same parts. -/
theorem Canonical.parts_eq (hb : b.Canonical) (hc : c.Canonical) (h : b.value = c.value) :
    b.significand = c.significand ∧ b.exponent = c.exponent := by
  have hexponent := le_antisymm (hc.exponent_le hb h.le) (hb.exponent_le hc h.ge)
  refine ⟨?_, hexponent⟩
  rw [value_eq, value_eq, unit, unit, hexponent] at h
  exact_mod_cast mul_right_cancel₀ (c.unit_pos.ne') h

/-! ## What rounds to parts -/

/-- Whether a number rounds to parts: it lies at most half the way to the magnitudes above and
below, and only at less than that unless the significand is even. -/
structure Captures (b : Binary) (v : ℚ) : Prop where
  low : b.value - b.gapBelow / 2 ≤ v
  high : v ≤ b.value + b.unit / 2
  tie : v = b.value - b.gapBelow / 2 ∨ v = b.value + b.unit / 2 → b.significand % 2 = 0

/-- **No other magnitude is nearer to what rounds to parts,** and one that is as near is odd, and
the significand of the parts is even. -/
theorem Captures.nearest (h : b.Captures v) (hb : b.Canonical) (hc : c.Canonical)
    (hne : c.value ≠ b.value) :
    |b.value - v| < |c.value - v| ∨
      |b.value - v| = |c.value - v| ∧ b.significand % 2 = 0 ∧ c.significand % 2 = 1 := by
  have hlow := h.low
  have hhigh := h.high
  have hunit := b.unit_pos
  have hgap := b.gapBelow_pos
  obtain hbelow | habove := lt_or_gt_of_ne hne
  · obtain ⟨hspace, hodd⟩ := hb.spacing_below hc hbelow
    rw [abs_sub_comm c.value, abs_of_pos (show 0 < v - c.value by linarith)]
    obtain hv | hv := le_or_gt b.value v
    · rw [abs_sub_comm, abs_of_nonneg (by linarith)]
      exact .inl (by linarith)
    · rw [abs_of_pos (by linarith)]
      obtain hlt | heq := (show b.value - v ≤ v - c.value by linarith).lt_or_eq
      · exact .inl hlt
      · have heven := h.tie (.inl (by linarith))
        exact .inr ⟨heq, heven, (hodd (by linarith)).resolve_left (by omega)⟩
  · obtain ⟨hspace, hodd⟩ := hb.spacing_above hc habove
    rw [abs_of_pos (show 0 < c.value - v by linarith)]
    obtain hv | hv := le_or_gt v b.value
    · rw [abs_of_nonneg (by linarith)]
      exact .inl (by linarith)
    · rw [abs_sub_comm, abs_of_pos (by linarith)]
      obtain hlt | heq := (show v - b.value ≤ c.value - v by linarith).lt_or_eq
      · exact .inl hlt
      · have heven := h.tie (.inr (by linarith))
        exact .inr ⟨heq, heven, (hodd (by linarith)).resolve_left (by omega)⟩

/-- **What rounds to some parts rounds to no others.** -/
theorem Captures.unique (h : b.Captures v) (h' : c.Captures v) (hb : b.Canonical)
    (hc : c.Canonical) : b.significand = c.significand ∧ b.exponent = c.exponent := by
  refine hb.parts_eq hc ?_
  by_contra hne
  obtain hlt | ⟨heq, heven, -⟩ := h.nearest hb hc (Ne.symm hne)
  · obtain hlt' | ⟨heq', -, -⟩ := h'.nearest hc hb hne
    · exact absurd hlt (not_lt.mpr hlt'.le)
    · exact absurd heq' hlt.ne'
  · obtain hlt' | ⟨-, -, hodd⟩ := h'.nearest hc hb hne
    · exact absurd heq hlt'.ne'
    · omega

end Binary

/-! ## Doubles -/

section Doubles

variable {x y : Float} {v : ℚ}

/-- Half a unit of the last place beyond the greatest double, where rounding to infinity begins. -/
def overflow : ℚ :=
  (2 ^ 53 - 1 / 2) * 2 ^ (971 : Int)

/-- Whether a double is the nearest one to a number that is not negative, the even one of two, and
infinity where the number is beyond all doubles by half a unit of the last place. -/
structure Nearest (v : ℚ) (x : Float) : Prop where
  infinite : overflow ≤ v → x = infinity
  finite : v < overflow → x.isFinite = true ∧ (Binary.ofFloat x).negative = false
  closest : v < overflow → ∀ y : Float, y.isFinite = true →
    (Binary.ofFloat y).value ≠ (Binary.ofFloat x).value →
      |(Binary.ofFloat x).value - v| < |(Binary.ofFloat y).value - v| ∨
        |(Binary.ofFloat x).value - v| = |(Binary.ofFloat y).value - v| ∧
          (Binary.ofFloat x).significand % 2 = 0

/-- Whether a number that is not negative rounds to a double. -/
inductive Rounds (v : ℚ) (x : Float) : Prop where
  | finite (finite : x.isFinite = true) (positive : (Binary.ofFloat x).negative = false)
    (captures : (Binary.ofFloat x).Captures v)
  | infinite (beyond : overflow ≤ v) (eq : x = infinity)

theorem exponent_le_of_isFinite (finite : x.isFinite = true) :
    (Binary.ofFloat x).exponent ≤ 971 := by
  have hfield : (@unpackExponent Format.binary64 x.toBits.toBitVec).toNat ≠ 2047 := by
    intro h
    have hvec : @unpackExponent Format.binary64 x.toBits.toBitVec = -1#_ := BitVec.toNat_inj.mp h
    change (UnpackedFloat.unpack Format.binary64 x.toBits.toBitVec).isFinite = true at finite
    unfold UnpackedFloat.unpack at finite
    dsimp only at finite
    rw [if_pos hvec] at finite
    split at finite <;> cases finite
  rw [toNat_unpackExponent] at hfield
  have hlt := toNat_exponentField x.toBits
  unfold Binary.ofFloat Binary.ofBits
  dsimp only
  split <;> dsimp only <;> omega

theorem eq_of_ofFloat (hx : x.isFinite = true) (hy : y.isFinite = true)
    (h : Binary.ofFloat x = Binary.ofFloat y) : x = y := by
  have hbeq : (x == y) = true := by
    rw [beq_iff_parts hx hy, h]
    tauto
  rw [Float.beq_iff_ne_nan_and_eq] at hbeq
  obtain heq | ⟨rfl, rfl⟩ | ⟨rfl, rfl⟩ := hbeq.2.2
  · exact heq
  · exact absurd h (by decide)
  · exact absurd h (by decide)

/-- What rounds to a finite double is not beyond all of them. -/
theorem lt_overflow_of_captures (finite : x.isFinite = true)
    (h : (Binary.ofFloat x).Captures v) : v < overflow := by
  by_contra hle
  rw [not_lt, overflow] at hle
  have hunit : (Binary.ofFloat x).unit ≤ 2 ^ (971 : Int) :=
    zpow_le_zpow_right₀ (by norm_num) (exponent_le_of_isFinite finite)
  have hpos : (0 : ℚ) < 2 ^ (971 : Int) := zpow_pos (by norm_num) _
  generalize (2 : ℚ) ^ (971 : Int) = greatest at *
  have hlt := (canonical_ofFloat x).significand_lt
  have hlast : ((Binary.ofFloat x).significand : ℚ) + 1 / 2 ≤ 2 ^ 53 - 1 / 2 := by
    have : ((Binary.ofFloat x).significand + 1 : ℚ) ≤ 2 ^ 53 := by exact_mod_cast hlt
    linarith
  have hsum : (Binary.ofFloat x).value + (Binary.ofFloat x).unit / 2
      = ((Binary.ofFloat x).significand + 1 / 2) * (Binary.ofFloat x).unit := by
    rw [Binary.value_eq]
    ring
  have hhigh := h.high
  rw [hsum] at hhigh
  have hreach := mul_le_mul_of_nonneg_left hunit
    (show (0 : ℚ) ≤ (Binary.ofFloat x).significand + 1 / 2 by positivity)
  have hcap := mul_le_mul_of_nonneg_right hlast hpos.le
  -- The number is half way above the greatest double, whose significand is odd.
  have heven := h.tie (.inr (by rw [hsum]; linarith))
  have hgreatest := le_of_mul_le_mul_right ((hle.trans hhigh).trans hreach) hpos
  have : 2 ^ 53 ≤ (Binary.ofFloat x).significand + 1 := by
    have : (2 ^ 53 : ℚ) ≤ (Binary.ofFloat x).significand + 1 := by linarith
    exact_mod_cast this
  omega

theorem Rounds.nearest (h : Rounds v x) : Nearest v x := by
  cases h with
  | finite finite positive captures =>
    have hlt := lt_overflow_of_captures finite captures
    refine ⟨fun hle => absurd hlt (not_lt.mpr hle), fun _ => ⟨finite, positive⟩,
      fun _ y _ hne => ?_⟩
    obtain hlt | ⟨heq, heven, -⟩ :=
      captures.nearest (canonical_ofFloat x) (canonical_ofFloat y) hne
    · exact .inl hlt
    · exact .inr ⟨heq, heven⟩
  | infinite beyond eq =>
    exact ⟨fun _ => eq, fun hlt => absurd hlt (not_lt.mpr beyond),
      fun hlt => absurd hlt (not_lt.mpr beyond)⟩

/-- **There is one double nearest to a number.** -/
theorem Rounds.eq_of_nearest (h : Rounds v x) (nearest : Nearest v y) : x = y := by
  cases h with
  | finite finite positive captures =>
    have hlt := lt_overflow_of_captures finite captures
    obtain ⟨hfinite, hpositive⟩ := nearest.finite hlt
    have hvalue : (Binary.ofFloat x).value = (Binary.ofFloat y).value := by
      by_contra hne
      have hcaptures :=
        captures.nearest (canonical_ofFloat x) (canonical_ofFloat y) (Ne.symm hne)
      have hclosest := nearest.closest hlt x finite hne
      rcases hcaptures with h | ⟨h, -, hodd⟩ <;> rcases hclosest with h' | ⟨h', heven⟩
      · exact absurd h (not_lt.mpr h'.le)
      · exact absurd h' h.ne'
      · exact absurd h h'.ne'
      · omega
    obtain ⟨hsignificand, hexponent⟩ := (canonical_ofFloat x).parts_eq (canonical_ofFloat y) hvalue
    refine eq_of_ofFloat finite hfinite ?_
    rw [Binary.mk.injEq]
    exact ⟨positive.trans hpositive.symm, hsignificand, hexponent⟩
  | infinite beyond eq => rw [eq, nearest.infinite beyond]

end Doubles

end Formulary.Number
