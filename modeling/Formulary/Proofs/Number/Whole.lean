import Formulary.Proofs.Number.Double

/-!
# Whole doubles

* `unpack_ofNat` : the double of a natural number below `2 ^ 53` is that number, with its
  significand drawn out to full length;
* `Binary.ofInteger`, `ofFloat_ofInt`, `whole_ofInt` : so is that of an integer below `2 ^ 53` in
  magnitude;
* `Binary.StandsFor`, `Binary.Canonical.standsFor` : the parts of a double with no fraction stand
  for its whole part;
* `beq_ofInt_iff` : a double equals such an integer when it is whole and its integer part is that
  integer.
-/

namespace Formulary.Number

open Float.Model (UnpackedFloat Format)
open Float.Model.UnpackedFloat

/-! ## Rounding what is exact -/

section Rounding

variable {m k n : Nat} {e : Int}

theorem log2_mul_two_pow (pos : 0 < n) (k : Nat) : (n * 2 ^ k).log2 = n.log2 + k := by
  have hlog := (Nat.log2_eq_iff pos.ne').mp rfl
  rw [Nat.log2_eq_iff (Nat.mul_pos pos (Nat.two_pow_pos k)).ne']
  constructor
  · rw [pow_add]
    exact Nat.mul_le_mul_right _ hlog.1
  · rw [show n.log2 + k + 1 = n.log2 + 1 + k by omega, pow_add]
    exact Nat.mul_lt_mul_of_pos_right hlog.2 (Nat.two_pow_pos k)

theorem shiftRight_exact (m k : Nat) :
    (⟨m * 2 ^ k, false, false⟩ : ExtendedMantissa) >>> k = ⟨m, false, false⟩ := by
  change k.repeat ExtendedMantissa.shiftRightOne _ = _
  induction k generalizing m with
  | zero => simp [Nat.repeat]
  | succ k ih =>
    rw [Nat.repeat, show m * 2 ^ (k + 1) = m * 2 * 2 ^ k by ring, ih]
    simp [ExtendedMantissa.shiftRightOne]

theorem pos_of_log2 (hm : m.log2 = 52) : 0 < m := by
  rw [Nat.pos_iff_ne_zero]
  rintro rfl
  simp at hm

theorem targetExponent_exact (hm : m.log2 = 52) (he : -1074 ≤ e) (k : Nat) :
    Format.binary64.targetExponent (Float.Model.totalExponent (m * 2 ^ k) (e - k)) = e := by
  simp only [Format.targetExponent, Float.Model.totalExponent, log2_mul_two_pow (pos_of_log2 hm) k,
    hm, Format.mantissaBits, Format.minExponent]
  push_cast
  omega

theorem shiftToTargetExponent_exact (hm : m.log2 = 52) (he : -1074 ≤ e) (k : Nat) :
    shiftToTargetExponent Format.binary64 (m * 2 ^ k) (e - k) .exact = (⟨m, false, false⟩, e) := by
  rw [shiftToTargetExponent, targetExponent_exact hm he]
  simp only [shiftToExponent]
  rw [show (e - (e - k)).toNat = k by omega]
  refine Prod.ext (shiftRight_exact m k) ?_
  omega

/-- **A significand of full length is not changed by rounding.** -/
theorem roundWithAccuracy_exact (s : Sign) (hm : m.log2 = 52) (he : -1074 ≤ e) (k : Nat) :
    roundWithAccuracy Format.binary64 s (m * 2 ^ k) (e - k) .exact
      = .finite s m e (pos_of_log2 hm) := by
  have hagain := shiftToTargetExponent_exact hm he 0
  simp only [pow_zero, mul_one, Nat.cast_zero, sub_zero] at hagain
  rw [roundWithAccuracy, shiftToTargetExponent_exact hm he]
  simp only [ExtendedMantissa.roundedMantissa, ExtendedMantissa.accuracy,
    Accuracy.roundToNearestEven, hagain]
  rw [dif_neg (pos_of_log2 hm).ne']

theorem pack_normal (s : Sign) (hm : m.log2 = 52) (he : -1074 ≤ e) (he' : e ≤ 971) (pos : 0 < m) :
    UnpackedFloat.pack Format.binary64 (.finite s m e pos)
      = packComponents Format.binary64 s (BitVec.ofNat _ (e + 1075).toNat) (BitVec.ofNat _ m) := by
  have hbias : e + Format.binary64.exponentBias + Format.binary64.mantissaBitsWithoutImplicit
      = e + 1075 := by
    change e + ((1023 : Nat) : Int) + ((52 : Nat) : Int) = _
    omega
  rw [UnpackedFloat.pack, hbias]
  dsimp only
  rw [if_neg (by omega), if_pos (by rw [hm]; rfl)]

/-- A significand of full length is read from the bits again. -/
theorem unpack_pack_normal (s : Sign) (hm : m.log2 = 52) (he : -1074 ≤ e) (he' : e ≤ 971)
    (pos : 0 < m) : (Float.Model.pack (.finite s m e pos)).unpack = .finite s m e pos := by
  obtain ⟨hlow, hhigh⟩ := (Nat.log2_eq_iff pos.ne').mp hm
  have hexponent : (BitVec.ofNat Format.binary64.exponentBits (e + 1075).toNat).toNat
      = (e + 1075).toNat := by
    rw [BitVec.toNat_ofNat]
    exact Nat.mod_eq_of_lt (by change _ < 2 ^ 11; omega)
  have hlong : (1#1 ++ BitVec.ofNat Format.binary64.mantissaBitsWithoutImplicit m).toNat = m := by
    rw [BitVec.toNat_append, ← Nat.shiftLeft_add_eq_or_of_lt (BitVec.isLt _), BitVec.toNat_ofNat]
    change 1 <<< 52 + m % 2 ^ 52 = m
    omega
  change UnpackedFloat.unpack Format.binary64 (UnpackedFloat.pack Format.binary64 _) = _
  rw [pack_normal s hm he he']
  unfold UnpackedFloat.unpack
  simp only [unpackExponent_packComponents, unpackMantissa_packComponents,
    unpackSign_packComponents, Sign.ofBitVec_toBitVec]
  rw [if_neg, if_neg]
  · simp only [finite.injEq, true_and]
    refine ⟨hlong, ?_⟩
    rw [hexponent]
    change _ - (((1023 : Nat) : Int) + ((52 : Nat) : Int)) = _
    omega
  · rw [← BitVec.toNat_inj, hexponent]
    change _ ≠ 0
    omega
  · rw [← BitVec.toNat_inj, hexponent]
    change _ ≠ 2047
    omega

end Rounding

/-! ## Natural numbers -/

section Naturals

variable {n : Nat}

theorem log2_le_of_lt (hn : n < 2 ^ 53) : n.log2 ≤ 52 := by
  by_cases h : n = 0
  · simp [h]
  · exact Nat.lt_succ_iff.mp ((Nat.log2_lt h).mpr hn)

/-- A natural number with its leading bit moved to the place of that of a significand. -/
def drawnOut (n : Nat) : Nat :=
  n * 2 ^ (52 - n.log2)

theorem log2_drawnOut (pos : 0 < n) (hn : n < 2 ^ 53) : (drawnOut n).log2 = 52 := by
  have := log2_le_of_lt hn
  rw [drawnOut, log2_mul_two_pow pos]
  omega

theorem round_ofNat (pos : 0 < n) (hn : n < 2 ^ 53) :
    UnpackedFloat.round Format.binary64 .positive n 0
      = .finite .positive (drawnOut n) (n.log2 - 52) (pos_of_log2 (log2_drawnOut pos hn)) := by
  have hlog := log2_le_of_lt hn
  have htarget : Format.binary64.targetExponent (Float.Model.totalExponent n 0)
      = (n.log2 : Int) - 52 := by
    simp only [Format.targetExponent, Float.Model.totalExponent, Format.mantissaBits,
      Format.minExponent]
    push_cast
    omega
  have hshift : (0 - ((n.log2 : Int) - 52)).toNat = 52 - n.log2 := by omega
  have hexact := roundWithAccuracy_exact .positive (log2_drawnOut pos hn)
    (show -1074 ≤ (n.log2 : Int) - 52 by omega) 0
  simp only [pow_zero, mul_one, Nat.cast_zero, sub_zero] at hexact
  rw [UnpackedFloat.round, htarget]
  simp only [decreaseExponent, hshift, Nat.shiftLeft_eq]
  rw [show (0 : Int) - ((52 - n.log2 : Nat) : Int) = (n.log2 : Int) - 52 by omega]
  exact hexact

theorem unpack_toFloat (pos : 0 < n) (hn : n < 2 ^ 53) :
    n.toUInt64.toFloat.toModel.unpack
      = .finite .positive (drawnOut n) (n.log2 - 52) (pos_of_log2 (log2_drawnOut pos hn)) := by
  have hlog := log2_le_of_lt hn
  have hword : n.toUInt64.toNat = n := UInt64.toNat_ofNat_of_lt' (by
    change n < 2 ^ 64
    omega)
  change (Float.Model.pack (UnpackedFloat.normalize Format.binary64 (n.toUInt64.toNat : Int) 0
    .positive)).unpack = _
  rw [hword, UnpackedFloat.normalize, Int.compare_eq_gt.mpr (by omega)]
  dsimp only
  rw [Int.toNat_natCast, round_ofNat pos hn]
  exact unpack_pack_normal _ (log2_drawnOut pos hn) (by omega) (by omega) _

/-- **The double of a natural number below `2 ^ 53` is that number.** -/
theorem unpack_ofNat (pos : 0 < n) (hn : n < 2 ^ 53) :
    (Float.ofNat n).toModel.unpack
      = .finite .positive (drawnOut n) (n.log2 - 52) (pos_of_log2 (log2_drawnOut pos hn)) := by
  have hlog := log2_le_of_lt hn
  have hone : (Float.ofBits 0x3FF0000000000000).toModel.unpack
      = .finite .positive (2 ^ 52) (-52) (by decide) := by
    rw [unpack_ofFloat (by decide)]
    rfl
  have hof : Float.ofNat n = n.toUInt64.toFloat * Float.ofBits 0x3FF0000000000000 := by
    change Float.ofScientific n false 0 = _
    rw [Float.ofScientific, dif_pos ⟨hn, by decide⟩]
    rfl
  have hexact := roundWithAccuracy_exact .positive (log2_drawnOut pos hn)
    (show -1074 ≤ (n.log2 : Int) - 52 by omega) 52
  rw [hof]
  change (Float.Model.pack (UnpackedFloat.mul Format.binary64 n.toUInt64.toFloat.toModel.unpack
    (Float.ofBits 0x3FF0000000000000).toModel.unpack)).unpack = _
  rw [hone, unpack_toFloat pos hn, UnpackedFloat.mul]
  rw [show (n.log2 : Int) - 52 + -52 = (n.log2 : Int) - 52 - ((52 : Nat) : Int) by omega,
    show (Sign.positive * Sign.positive) = Sign.positive from rfl, hexact]
  exact unpack_pack_normal _ (log2_drawnOut pos hn) (by omega) (by omega) _

end Naturals

/-! ## Integers -/

namespace Binary

/-- The parts of the double of an integer that is not zero. -/
def ofInteger (n : Int) : Binary :=
  ⟨decide (n < 0), drawnOut n.natAbs, n.natAbs.log2 - 52⟩

variable {b : Binary} {n : Nat}

theorem fractionUnits_of_significand (h : b.significand = 0) : b.fractionUnits = 0 := by
  unfold fractionUnits
  split <;> simp [h]

theorem wholePart_of_significand (h : b.significand = 0) : b.wholePart = 0 := by
  unfold wholePart
  split <;> simp [h]

/-- Whether parts without even places stand for a natural number. -/
structure StandsFor (b : Binary) (n : Nat) : Prop where
  fraction : b.exponent ≤ 0
  significand_eq : b.significand = n * 2 ^ (-b.exponent).toNat

/-- What stands for a number has it as its whole part, and no fraction. -/
theorem StandsFor.wholePart_eq (h : b.StandsFor n) : b.fractionUnits = 0 ∧ b.wholePart = n := by
  obtain ⟨hfraction, hsignificand⟩ := h
  unfold fractionUnits wholePart
  simp only [Nat.pow_eq]
  split
  · rw [show (-b.exponent).toNat = 0 by omega, pow_zero, mul_one] at hsignificand
    rw [hsignificand, show b.exponent.toNat = 0 by omega]
    simp
  · rw [hsignificand]
    simp

theorem standsFor_ofInteger {n : Int} (hn : n.natAbs < 2 ^ 53) :
    (ofInteger n).StandsFor n.natAbs := by
  have hlog := log2_le_of_lt hn
  refine ⟨by simp only [ofInteger]; omega, ?_⟩
  simp only [ofInteger, drawnOut]
  rw [show (-((n.natAbs.log2 : Int) - 52)).toNat = 52 - n.natAbs.log2 by omega]

/-- Parts of a double with a whole part below `2 ^ 53` and no fraction stand for that part. -/
theorem Canonical.standsFor (canonical : b.Canonical) (fraction : b.fractionUnits = 0)
    (whole : b.wholePart = n) (hn : n < 2 ^ 53) : b.StandsFor n := by
  unfold wholePart at whole
  unfold fractionUnits at fraction
  by_cases he : 0 ≤ b.exponent
  · rw [if_pos he, Nat.pow_eq] at whole
    have hlong : 2 ^ 52 ≤ b.significand := canonical.full.resolve_right (by omega)
    -- A factor of two would be too much.
    have hexp : b.exponent.toNat = 0 := by
      by_contra hne
      have hpow : 2 ^ 1 ≤ 2 ^ b.exponent.toNat := Nat.pow_le_pow_right (by decide) (by omega)
      have := Nat.mul_le_mul hlong hpow
      omega
    rw [hexp, pow_zero, mul_one] at whole
    refine ⟨by omega, ?_⟩
    rw [show (-b.exponent).toNat = 0 by omega, pow_zero, mul_one, whole]
  · rw [if_neg he, Nat.pow_eq] at whole fraction
    refine ⟨by omega, ?_⟩
    have := Nat.div_add_mod b.significand (2 ^ (-b.exponent).toNat)
    rw [whole, fraction, Nat.add_zero, Nat.mul_comm] at this
    exact this.symm

/-- A number leaves no choice for the parts of a double that stand for it. -/
theorem StandsFor.eq_drawnOut (h : b.StandsFor n) (canonical : b.Canonical) (pos : 0 < n)
    (hn : n < 2 ^ 53) : b.significand = drawnOut n ∧ b.exponent = n.log2 - 52 := by
  obtain ⟨hfraction, heq⟩ := h
  have hlog := log2_le_of_lt hn
  have hlong : 2 ^ 52 ≤ b.significand := by
    refine canonical.full.resolve_right fun hleast => ?_
    have hpow : 2 ^ 53 ≤ 2 ^ (-b.exponent).toNat := Nat.pow_le_pow_right (by decide) (by omega)
    have := Nat.mul_le_mul pos hpow
    have := canonical.significand_lt
    omega
  have hsum : n.log2 + (-b.exponent).toNat = 52 := by
    rw [← log2_mul_two_pow pos, ← heq]
    exact (Nat.log2_eq_iff (by omega)).mpr ⟨hlong, canonical.significand_lt⟩
  refine ⟨?_, by omega⟩
  rw [heq, drawnOut, show 52 - n.log2 = (-b.exponent).toNat by omega]

/-- A double without a whole part and without a fraction is zero. -/
theorem significand_of_wholePart (fraction : b.fractionUnits = 0) (whole : b.wholePart = 0) :
    b.significand = 0 := by
  unfold wholePart at whole
  unfold fractionUnits at fraction
  split at whole
  · simpa using whole
  · next he =>
    rw [if_neg he] at fraction
    have := Nat.div_add_mod b.significand (Nat.pow 2 (-b.exponent).toNat)
    rw [whole, fraction] at this
    omega

theorem sign_eq_positive_iff : b.sign = .positive ↔ b.negative = false := by
  unfold sign
  cases b.negative <;> simp

theorem sign_eq_negative_iff : b.sign = .negative ↔ b.negative = true := by
  unfold sign
  cases b.negative <;> simp

end Binary

section Integers

variable {n : Int} {x : Float}

/-- **The double of an integer below `2 ^ 53` in magnitude is that integer.** -/
theorem ofFloat_ofInt (hne : n ≠ 0) (hn : n.natAbs < 2 ^ 53) :
    (ofInt n).isFinite = true ∧ Binary.ofFloat (ofInt n) = Binary.ofInteger n := by
  have hparts {s : Sign} (hs : s = if n < 0 then .negative else .positive)
      (h : (ofInt n).toModel.unpack = .finite s (drawnOut n.natAbs) (n.natAbs.log2 - 52)
        (pos_of_log2 (log2_drawnOut (by omega) hn))) :
      (ofInt n).isFinite = true ∧ Binary.ofFloat (ofInt n) = Binary.ofInteger n := by
    obtain ⟨hfinite, hsign, hsignificand, hexponent⟩ := ofFloat_of_unpack h
    refine ⟨hfinite, ?_⟩
    have hnegative : (Binary.ofFloat (ofInt n)).negative = decide (n < 0) := by
      by_cases hlt : n < 0
      · rw [decide_eq_true hlt, ← Binary.sign_eq_negative_iff, hsign, hs, if_pos hlt]
      · rw [decide_eq_false hlt, ← Binary.sign_eq_positive_iff, hsign, hs, if_neg hlt]
    rw [Binary.ofInteger, ← hnegative, ← hsignificand, ← hexponent]
  cases n with
  | ofNat n =>
    have hpos : 0 < n := by
      simp only [Int.ofNat_eq_natCast] at hne
      omega
    exact hparts (by simp) (unpack_ofNat hpos hn)
  | negSucc n =>
    have hneg : (ofInt (.negSucc n)).toModel.unpack =
        (Float.Model.pack (UnpackedFloat.neg (Float.ofNat (n + 1)).toModel.unpack)).unpack := rfl
    rw [unpack_ofNat (Nat.succ_pos n) hn, UnpackedFloat.neg] at hneg
    rw [show -Sign.positive = Sign.negative from rfl] at hneg
    have hlog := log2_le_of_lt hn
    simp only [Int.natAbs_negSucc] at hlog
    rw [unpack_pack_normal _ (log2_drawnOut (Nat.succ_pos n) hn) (by omega) (by omega)] at hneg
    exact hparts (by simp) hneg

theorem isWhole_iff :
    isWhole x = true ↔ x.isFinite = true ∧ (Binary.ofFloat x).fractionUnits = 0 := by
  simp [isWhole]

theorem truncate_of_isFinite (h : x.isFinite = true) :
    truncate x = if (Binary.ofFloat x).negative then -((Binary.ofFloat x).wholePart : Int)
      else (Binary.ofFloat x).wholePart := by
  rw [truncate, if_pos h]

/-- Zeros are whole. -/
theorem whole_of_significand (hfinite : x.isFinite = true)
    (h : (Binary.ofFloat x).significand = 0) : isWhole x = true ∧ truncate x = 0 := by
  rw [isWhole_iff, truncate_of_isFinite hfinite, Binary.wholePart_of_significand h]
  exact ⟨⟨hfinite, Binary.fractionUnits_of_significand h⟩, by simp⟩

theorem whole_zeros :
    (isWhole 0 = true ∧ truncate 0 = 0) ∧ isWhole (-0) = true ∧ truncate (-0) = 0 :=
  ⟨whole_of_significand (by decide) (by decide), whole_of_significand (by decide) (by decide)⟩

theorem whole_ofInt (hn : n.natAbs < 2 ^ 53) :
    isWhole (ofInt n) = true ∧ truncate (ofInt n) = n := by
  by_cases hne : n = 0
  · subst hne
    rw [show ofInt 0 = 0 from rfl]
    exact whole_zeros.1
  · obtain ⟨hfinite, hparts⟩ := ofFloat_ofInt hne hn
    obtain ⟨hfraction, hwhole⟩ := (Binary.standsFor_ofInteger hn).wholePart_eq
    rw [isWhole_iff, truncate_of_isFinite hfinite, hparts, hwhole, hfraction]
    refine ⟨⟨hfinite, rfl⟩, ?_⟩
    simp only [Binary.ofInteger, decide_eq_true_eq]
    split <;> omega

/-- **A double equals an integer below `2 ^ 53` in magnitude when it is whole and its integer part
is that integer.** -/
theorem beq_ofInt_iff (hn : n.natAbs < 2 ^ 53) :
    (ofInt n == x) = true ↔ isWhole x = true ∧ truncate x = n := by
  have hself := whole_ofInt hn
  constructor
  · intro h
    rw [Float.beq_iff_ne_nan_and_eq] at h
    rcases h.2.2 with heq | ⟨hzero, rfl⟩ | ⟨hzero, rfl⟩
    · rwa [← heq]
    · rw [hzero, whole_zeros.1.2] at hself
      exact ⟨whole_zeros.2.1, whole_zeros.2.2.trans hself.2⟩
    · rw [hzero, whole_zeros.2.2] at hself
      exact ⟨whole_zeros.1.1, whole_zeros.1.2.trans hself.2⟩
  · rintro ⟨hwhole, htruncate⟩
    obtain ⟨hfinite, hfraction⟩ := isWhole_iff.mp hwhole
    rw [truncate_of_isFinite hfinite] at htruncate
    have habs : (Binary.ofFloat x).wholePart = n.natAbs := by
      split at htruncate <;> omega
    by_cases hne : n = 0
    · subst hne
      have hzero : Binary.ofFloat (ofInt 0) = ⟨false, 0, -1074⟩ := by decide
      rw [beq_iff_parts (by decide) hfinite, hzero]
      exact .inl ⟨rfl, Binary.significand_of_wholePart hfraction habs⟩
    · obtain ⟨hfinite', hparts⟩ := ofFloat_ofInt hne hn
      have canonical := canonical_ofFloat x
      obtain ⟨hsignificand, hexponent⟩ :=
        (canonical.standsFor hfraction habs hn).eq_drawnOut canonical (by omega) hn
      have hsign : (Binary.ofInteger n).sign = (Binary.ofFloat x).sign := by
        cases hx : (Binary.ofFloat x).negative <;>
          simp only [hx, if_true, if_false, Bool.false_eq_true] at htruncate
        · rw [Binary.sign_eq_positive_iff.mpr hx, Binary.sign_eq_positive_iff, Binary.ofInteger]
          simp only [decide_eq_false_iff_not]
          omega
        · rw [Binary.sign_eq_negative_iff.mpr hx, Binary.sign_eq_negative_iff, Binary.ofInteger]
          simp only [decide_eq_true_eq]
          omega
      rw [beq_iff_parts hfinite' hfinite, hparts]
      refine .inr ⟨?_, hsign, hsignificand.symm, hexponent.symm⟩
      exact (pos_of_log2 (log2_drawnOut (by omega) hn)).ne'

end Integers

end Formulary.Number
