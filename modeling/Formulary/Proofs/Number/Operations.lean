import Formulary.Proofs.Number.Monotone

/-!
# Sums and quotients of doubles

* `round_captures`, `exists_normalize` : numbers of any size are rounded to parts;
* `exists_add`, `exists_div` : sums of parts are, and quotients of parts by a positive number;
* `roundsTo_add`, `roundsTo_div_ofNat` : sums and quotients of doubles are what the exact ones round
  to;
* `Binary.Canonical.exists_mul`, `div_ofNat_mem` : twice a double is a double, so that the half of a
  sum lies between the doubles that the sum lies between twice of.
-/

namespace Formulary.Number

open Float.Model (UnpackedFloat Format)
open Float.Model.UnpackedFloat

variable {b c : Binary} {x y : Float} {q : ℚ} {m n : Nat} {e : Int}

/-! ## Signs -/

/-- A magnitude with a sign. -/
def withSign (s : Sign) (v : ℚ) : ℚ :=
  match s with
  | .positive => v
  | .negative => -v

theorem Binary.number_eq (b : Binary) : b.number = withSign b.sign b.value := by
  cases hsign : b.sign with
  | positive => exact number_of_sign_positive hsign
  | negative => exact number_of_sign_negative hsign

theorem Binary.Captures.roundsTo {v : ℚ} (h : b.Captures v) (canonical : b.Canonical)
    (nonneg : 0 ≤ v) : b.RoundsTo (withSign b.sign v) := by
  have hsame := mul_nonneg nonneg b.value_nonneg
  cases hsign : b.sign with
  | positive =>
    refine ⟨canonical, by rwa [withSign, abs_of_nonneg nonneg], ?_⟩
    rw [number_of_sign_positive hsign]
    exact hsame
  | negative =>
    refine ⟨canonical, by rwa [withSign, abs_neg, abs_of_nonneg nonneg], ?_⟩
    rw [number_of_sign_negative hsign, withSign, neg_mul_neg]
    exact hsame

/-- Parts round to themselves. -/
theorem Binary.Canonical.roundsTo_self (canonical : b.Canonical) : b.RoundsTo b.number := by
  have hgap := b.gapBelow_pos
  have hunit := b.unit_pos
  have captures : b.Captures b.value := by
    refine ⟨by linarith, by linarith, ?_⟩
    rintro (heq | heq)
    · linarith
    · linarith
  rw [number_eq]
  exact captures.roundsTo canonical b.value_nonneg

theorem zeroParts_roundsTo : zeroParts.RoundsTo 0 := by
  have hzero : zeroParts.number = 0 := Binary.number_of_significand rfl
  rw [← hzero]
  exact Binary.Canonical.roundsTo_self ⟨by decide, by decide, .inr rfl⟩

/-! ## Rounding -/

theorem value_decreaseExponent (m : Nat) (e t : Int) :
    ((decreaseExponent m e t).1 * 2 ^ (decreaseExponent m e t).2 : ℚ) = m * 2 ^ e := by
  have hshift : (decreaseExponent m e t).1 = m * 2 ^ (e - t).toNat := Nat.shiftLeft_eq _ _
  have hexponent : (decreaseExponent m e t).2 = e - (e - t).toNat := rfl
  rw [hshift, hexponent, zpow_sub₀ (by norm_num), zpow_natCast]
  push_cast
  field_simp

/-- **A significand of any length is rounded to parts that capture its number.** -/
theorem round_captures (s : Sign) (pos : 0 < m) (e : Int) :
    ∃ b : Binary, b.Canonical ∧ b.sign = s ∧ b.Captures (m * 2 ^ e) ∧
      UnpackedFloat.round Format.binary64 s m e = b.unpacked := by
  have htarget := targetExponent_eq m e
  generalize ht : Format.binary64.targetExponent (Float.Model.totalExponent m e) = t at htarget
  have hvalue := value_decreaseExponent m e t
  have hexponent : (decreaseExponent m e t).2 = e - (e - t).toNat := rfl
  have hlog : (decreaseExponent m e t).1.log2 = m.log2 + (e - t).toNat := by
    simp only [decreaseExponent, Nat.shiftLeft_eq]
    exact log2_mul_two_pow pos _
  have hround : UnpackedFloat.round Format.binary64 s m e =
      roundWithAccuracy Format.binary64 s (decreaseExponent m e t).1 (decreaseExponent m e t).2
        .exact := by
    rw [UnpackedFloat.round, ht]
  generalize (decreaseExponent m e t).1 = m' at *
  generalize (decreaseExponent m e t).2 = e' at *
  have hrepresents := represents_exact m'
  have hexact : (m' : ℚ) = m * 2 ^ e / 2 ^ e' := by
    rw [← hvalue, mul_div_cancel_right₀ _ (by positivity)]
  rw [hexact] at hrepresents
  have hle : e' ≤ Format.binary64.targetExponent (Float.Model.totalExponent m' e') := by
    rw [targetExponent_eq]
    omega
  obtain ⟨b, hcanonical, hsign, hcaptures, hb⟩ := roundWithAccuracy_captures s hrepresents hle
  exact ⟨b, hcanonical, hsign, hcaptures, hround.trans hb⟩

/-- **An integer of any size is rounded, with its sign.** -/
theorem exists_normalize (k e : Int) :
    ∃ d : Binary, d.RoundsTo (k * 2 ^ e) ∧
      UnpackedFloat.normalize Format.binary64 k e .positive = d.unpacked := by
  have hpow : (0 : ℚ) < 2 ^ e := by positivity
  obtain hneg | rfl | hpos := lt_trichotomy k 0
  · obtain ⟨d, hcanonical, hsign, hcaptures, hround⟩ :=
      round_captures .negative (show 0 < (-k).toNat by omega) e
    have hk : (((-k).toNat : Nat) : ℚ) = -k := by
      rw [← Int.cast_natCast, Int.toNat_of_nonneg (by omega), Int.cast_neg]
    have hrounds := hcaptures.roundsTo hcanonical (by positivity)
    rw [hsign, hk, withSign, neg_mul, neg_neg] at hrounds
    refine ⟨d, hrounds, ?_⟩
    rw [← hround, UnpackedFloat.normalize, compare_lt_iff_lt.mpr hneg]
  · refine ⟨zeroParts, ?_, ?_⟩
    · rw [Int.cast_zero, zero_mul]
      exact zeroParts_roundsTo
    · rw [UnpackedFloat.normalize]
      rfl
  · obtain ⟨d, hcanonical, hsign, hcaptures, hround⟩ :=
      round_captures .positive (show 0 < k.toNat by omega) e
    have hk : ((k.toNat : Nat) : ℚ) = k := by
      rw [← Int.cast_natCast, Int.toNat_of_nonneg hpos.le]
    have hrounds := hcaptures.roundsTo hcanonical (by positivity)
    rw [hsign, hk, withSign] at hrounds
    refine ⟨d, hrounds, ?_⟩
    rw [← hround, UnpackedFloat.normalize, compare_gt_iff_gt.mpr hpos]

/-! ## Parts -/

/-- A sum of zeros is a zero. -/
theorem exists_add_zero (hb : b.Canonical) (hbzero : b.significand = 0) (s : Sign) :
    ∃ d : Binary, d.RoundsTo 0 ∧
      UnpackedFloat.add Format.binary64 b.unpacked (.zero s) = d.unpacked := by
  rw [Binary.unpacked_of_significand hbzero]
  by_cases hsign : b.sign = s
  · refine ⟨b, Binary.number_of_significand hbzero ▸ hb.roundsTo_self, ?_⟩
    rw [Binary.unpacked_of_significand hbzero, UnpackedFloat.add, if_pos (beq_iff_eq.mpr hsign)]
  · refine ⟨zeroParts, zeroParts_roundsTo, ?_⟩
    rw [UnpackedFloat.add, if_neg (mt beq_iff_eq.mp hsign)]
    rfl

/-- A signed significand with a smaller exponent. -/
theorem apply_decreaseExponent (s : Sign) (m : Nat) {i t : Int} (h : t ≤ i) :
    ((s.apply ((decreaseExponent m i t).1 : Int) : Int) : ℚ) * 2 ^ t = withSign s (m * 2 ^ i) := by
  have hexponent : (decreaseExponent m i t).2 = t := by
    show i - (i - t).toNat = t
    omega
  rw [← value_decreaseExponent m i t, hexponent]
  cases s with
  | positive => rfl
  | negative => simp [Sign.apply, withSign]

/-- **The sum of parts is rounded.** -/
theorem exists_add (hb : b.Canonical) (hc : c.Canonical) :
    ∃ d : Binary, d.RoundsTo (b.number + c.number) ∧
      UnpackedFloat.add Format.binary64 b.unpacked c.unpacked = d.unpacked := by
  by_cases hczero : c.significand = 0
  · rw [Binary.number_of_significand hczero, add_zero, Binary.unpacked_of_significand hczero]
    by_cases hbzero : b.significand = 0
    · rw [Binary.number_of_significand hbzero]
      exact exists_add_zero hb hbzero c.sign
    · refine ⟨b, hb.roundsTo_self, ?_⟩
      rw [Binary.unpacked_of_ne hbzero]
      rfl
  · by_cases hbzero : b.significand = 0
    · rw [Binary.number_of_significand hbzero, zero_add, Binary.unpacked_of_significand hbzero]
      refine ⟨c, hc.roundsTo_self, ?_⟩
      rw [Binary.unpacked_of_ne hczero]
      rfl
    · -- both significands are brought to the smaller exponent and added with their signs
      obtain ⟨t, ht⟩ : ∃ t, t = min b.exponent c.exponent := ⟨_, rfl⟩
      obtain ⟨d, hrounds, hd⟩ := exists_normalize
        (b.sign.apply ((decreaseExponent b.significand b.exponent t).1 : Int) +
          c.sign.apply ((decreaseExponent c.significand c.exponent t).1 : Int)) t
      refine ⟨d, ?_, ?_⟩
      · rw [Int.cast_add, add_mul, apply_decreaseExponent b.sign _ (by omega),
          apply_decreaseExponent c.sign _ (by omega)] at hrounds
        rw [Binary.number_eq, Binary.number_eq]
        exact hrounds
      · rw [← hd, Binary.unpacked_of_ne hbzero, Binary.unpacked_of_ne hczero, ht]
        rfl

/-- **The quotient of parts by a positive number is rounded.** -/
theorem exists_div (hb : b.Canonical) (hn : 0 < n) (j : Int) :
    ∃ d : Binary, d.RoundsTo (b.number / (n * 2 ^ j)) ∧
      UnpackedFloat.div Format.binary64 b.unpacked (.finite .positive n j hn) = d.unpacked := by
  by_cases hbzero : b.significand = 0
  · have hnumber := Binary.number_of_significand hbzero
    refine ⟨b, ?_, ?_⟩
    · rw [hnumber, zero_div, ← hnumber]
      exact hb.roundsTo_self
    · rw [Binary.unpacked_of_significand hbzero]
      cases b.sign <;> rfl
  · have hpos : (0 : ℚ) < n := by exact_mod_cast hn
    obtain ⟨d, hcanonical, hsign, hcaptures, hdiv⟩ :=
      div_captures (i := b.exponent) (j := j) b.sign (Nat.pos_of_ne_zero hbzero) hn
    refine ⟨d, ?_, ?_⟩
    · have hrounds := hcaptures.roundsTo hcanonical (by positivity)
      have hnumber : withSign d.sign (b.significand * 2 ^ b.exponent / (n * 2 ^ j)) =
          b.number / (n * 2 ^ j) := by
        rw [hsign, Binary.number_eq, Binary.value]
        cases b.sign with
        | positive => rfl
        | negative => rw [withSign, withSign, neg_div]
      rwa [hnumber] at hrounds
    · rw [Binary.unpacked_of_ne hbzero, hdiv]

/-! ## Doubles -/

theorem roundsTo_self (hx : x.isFinite = true) : RoundsTo (Binary.ofFloat x).number x :=
  ⟨hx, (canonical_ofFloat x).roundsTo_self⟩

/-- **A double that packs what a number rounds to is what the number rounds to,** unless both are
beyond the finite doubles. -/
theorem roundsTo_of_pack (h : b.RoundsTo q) (hx : x.toModel = Float.Model.pack b.unpacked) :
    (|q| < overflow → RoundsTo q x) ∧ (x.isFinite = true → RoundsTo q x) := by
  obtain hle | hlt := le_or_gt b.exponent 971
  · obtain ⟨hfinite, hparts⟩ := ofFloat_of_pack h.canonical hle hx
    exact ⟨fun _ => ⟨hfinite, hparts ▸ h⟩, fun _ => ⟨hfinite, hparts ▸ h⟩⟩
  · refine ⟨fun small => ?_, fun finite => ?_⟩
    · exact absurd small (not_lt.mpr (overflow_le_of_captures h.canonical hlt h.captures))
    · rw [pack_infinite h.canonical hlt] at hx
      have hinfinite : (Float.Model.pack (.infinity b.sign)).unpack.isFinite = false := by
        cases b.sign <;> rfl
      change x.toModel.unpack.isFinite = true at finite
      rw [hx, hinfinite] at finite
      cases finite

/-- **The sum of doubles is what the exact sum rounds to.** -/
theorem roundsTo_add (hx : x.isFinite = true) (hy : y.isFinite = true) :
    (|(Binary.ofFloat x).number + (Binary.ofFloat y).number| < overflow →
        RoundsTo ((Binary.ofFloat x).number + (Binary.ofFloat y).number) (x + y)) ∧
      ((x + y).isFinite = true →
        RoundsTo ((Binary.ofFloat x).number + (Binary.ofFloat y).number) (x + y)) := by
  obtain ⟨d, hrounds, hadd⟩ := exists_add (canonical_ofFloat x) (canonical_ofFloat y)
  apply roundsTo_of_pack hrounds
  rw [← hadd, ← unpack_ofFloat hx, ← unpack_ofFloat hy]
  rfl

/-- **The quotient of a double by a count is what the exact quotient rounds to.** -/
theorem roundsTo_div_ofNat (hx : x.isFinite = true) (pos : 0 < n) (hn : n < 2 ^ 53) :
    RoundsTo ((Binary.ofFloat x).number / n) (x / Float.ofNat n) := by
  have hone : (1 : ℚ) ≤ n := by exact_mod_cast pos
  have hlog := log2_drawnOut pos hn
  obtain ⟨d, hrounds, hdiv⟩ :=
    exists_div (canonical_ofFloat x) (pos_of_log2 hlog) ((n.log2 : Int) - 52)
  rw [value_drawnOut hn] at hrounds
  have hunpack : (Float.ofNat n).toModel.unpack = _ := unpack_ofNat pos hn
  refine (roundsTo_of_pack hrounds ?_).1 ?_
  · rw [← hdiv, ← unpack_ofFloat hx, ← hunpack]
    rfl
  · have hsmall := (roundsTo_self hx).lt_overflow
    rw [abs_div, abs_of_pos (zero_lt_one.trans_le hone)]
    exact (div_le_self (abs_nonneg _) hone).trans_lt hsmall

/-! ## Twice a double -/

theorem withSign_mul (s : Sign) (p v : ℚ) : withSign s (p * v) = p * withSign s v := by
  cases s with
  | positive => rfl
  | negative => rw [withSign, withSign, mul_neg]

/-- Parts with a significand or an exponent so much larger stand for a multiple. -/
theorem Binary.number_eq_mul {p : ℚ} (hsign : c.negative = b.negative)
    (hvalue : c.value = p * b.value) : c.number = p * b.number := by
  have hsign' : c.sign = b.sign := by rw [sign, sign, hsign]
  rw [number_eq, number_eq, hsign', hvalue, withSign_mul]

/-- Twice canonical parts are canonical parts, unlike three times them. -/
theorem Binary.Canonical.exists_mul (canonical : b.Canonical) (pos : 0 < n) (few : n ≤ 2) :
    ∃ c : Binary, c.Canonical ∧ c.number = n * b.number := by
  obtain ⟨hlt, hge, hfull⟩ := canonical
  obtain rfl | rfl : n = 1 ∨ n = 2 := by omega
  · exact ⟨b, ⟨hlt, hge, hfull⟩, by rw [Nat.cast_one, one_mul]⟩
  · obtain hlong | hshort := le_or_gt (2 ^ 52) b.significand
    · refine ⟨⟨b.negative, b.significand, b.exponent + 1⟩, ⟨hlt, ?_, .inl hlong⟩,
        number_eq_mul rfl ?_⟩
      · dsimp only
        omega
      · rw [value, value, zpow_add_one₀ (by norm_num)]
        push_cast
        ring
    · -- a double that is not normal has room for one more bit
      have hexponent := hfull.resolve_left (by omega)
      refine ⟨⟨b.negative, 2 * b.significand, b.exponent⟩, ⟨?_, hge, .inr hexponent⟩,
        number_eq_mul rfl ?_⟩
      · dsimp only
        omega
      · rw [value, value]
        push_cast
        ring

/-- **A quotient by at most two lies between doubles that its dividend lies between so many of.** -/
theorem div_ofNat_mem {least greatest : Float} (hleast : least.isFinite = true)
    (hgreatest : greatest.isFinite = true) (pos : 0 < n) (few : n ≤ 2) (h : RoundsTo q x)
    (low : n * (Binary.ofFloat least).number ≤ q)
    (high : q ≤ n * (Binary.ofFloat greatest).number) :
    (x / Float.ofNat n).isFinite = true ∧ least ≤ x / Float.ofNat n ∧
      x / Float.ofNat n ≤ greatest := by
  have hpos : (0 : ℚ) < n := by exact_mod_cast pos
  have hdiv := roundsTo_div_ofNat h.finite pos (few.trans_lt (by norm_num))
  obtain ⟨lower, hlower, hlow⟩ := (canonical_ofFloat least).exists_mul pos few
  obtain ⟨upper, hupper, hhigh⟩ := (canonical_ofFloat greatest).exists_mul pos few
  refine ⟨hdiv.finite, (roundsTo_self hleast).le hdiv ?_, hdiv.le (roundsTo_self hgreatest) ?_⟩
  · rw [le_div_iff₀ hpos, mul_comm, ← hlow]
    exact hlower.roundsTo_self.number_le h.parts (hlow.trans_le low)
  · rw [div_le_iff₀ hpos, mul_comm, ← hhigh]
    exact h.parts.number_le hupper.roundsTo_self (high.trans_eq hhigh.symm)

end Formulary.Number
