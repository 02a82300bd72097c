import Formulary.Number.Binary
import Mathlib

/-!
# Doubles and their parts

* `Binary.unpacked`, `unpack_ofFloat` : the parts of a finite double are those that the arithmetic
  of doubles is defined by;
* `Binary.Canonical`, `canonical_ofFloat` : the significand is as long as the exponent allows;
* `beq_iff_parts`, `nonneg_iff_parts`, `beq_zero_iff_parts` : comparisons of finite doubles read off
  their parts.
-/

namespace Formulary.Number

open Float.Model (UnpackedFloat Format)
open Float.Model.UnpackedFloat

namespace Binary

/-- The sign of parts. -/
def sign (b : Binary) : Sign :=
  if b.negative then .negative else .positive

/-- Parts in the form on which the operations of doubles are defined. -/
def unpacked (b : Binary) : UnpackedFloat :=
  if h : b.significand = 0 then .zero b.sign
  else .finite b.sign b.significand b.exponent (Nat.pos_of_ne_zero h)

/-- Whether parts are those of a finite double: the significand has its leading bit unless the
exponent is the least one. -/
structure Canonical (b : Binary) : Prop where
  significand_lt : b.significand < 2 ^ 53
  exponent_ge : -1074 ≤ b.exponent
  full : 2 ^ 52 ≤ b.significand ∨ b.exponent = -1074

end Binary

/-! ## Fields of bits -/

section Fields

variable (bits : UInt64)

theorem toNat_exponentField : ((bits >>> 52) &&& 0x7FF).toNat = bits.toNat / 2 ^ 52 % 2 ^ 11 := by
  rw [UInt64.toNat_and, UInt64.toNat_shiftRight]
  change bits.toNat >>> 52 &&& 2 ^ 11 - 1 = _
  rw [Nat.and_two_pow_sub_one_eq_mod, Nat.shiftRight_eq_div_pow]

theorem toNat_fractionField : (bits &&& 0xFFFFFFFFFFFFF).toNat = bits.toNat % 2 ^ 52 := by
  rw [UInt64.toNat_and]
  exact Nat.and_two_pow_sub_one_eq_mod _ 52

theorem toNat_unpackExponent :
    (@unpackExponent Format.binary64 bits.toBitVec).toNat
      = ((bits >>> 52) &&& 0x7FF).toNat := by
  rw [toNat_exponentField]
  simp [unpackExponent, Nat.shiftRight_eq_div_pow]

theorem toNat_unpackMantissa :
    (@unpackMantissa Format.binary64 bits.toBitVec).toNat
      = (bits &&& 0xFFFFFFFFFFFFF).toNat := by
  rw [toNat_fractionField]
  simp [unpackMantissa]

theorem ofBitVec_unpackSign :
    Sign.ofBitVec (@unpackSign Format.binary64 bits.toBitVec)
      = if bits >>> 63 == 1 then .negative else .positive := by
  have hlt : bits.toNat / 2 ^ 63 < 2 := by
    have := bits.toNat_lt
    omega
  have hsign : (@unpackSign Format.binary64 bits.toBitVec).toNat
      = bits.toNat / 2 ^ 63 := by
    simp [unpackSign, Nat.shiftRight_eq_div_pow]
    omega
  have hone : (bits >>> 63 == 1) = decide (bits.toNat / 2 ^ 63 = 1) := by
    rw [Bool.eq_iff_iff, beq_iff_eq, decide_eq_true_iff, ← UInt64.toNat_inj,
      UInt64.toNat_shiftRight]
    change bits.toNat >>> 63 = 1 ↔ _
    rw [Nat.shiftRight_eq_div_pow]
  simp only [hone, Sign.ofBitVec, ← BitVec.toNat_inj, hsign]
  by_cases h : bits.toNat / 2 ^ 63 = 1
  · rw [if_neg (by rw [h]; decide), if_pos (decide_eq_true h)]
  · have h0 : bits.toNat / 2 ^ 63 = 0 := by omega
    rw [if_pos (by rw [h0]; rfl), if_neg (by simpa using h)]

end Fields

/-! ## Parts -/

section Parts

variable {x y : Float}

/-- **The parts of a finite double are those that its arithmetic is defined by.** -/
theorem unpack_ofFloat (finite : x.isFinite = true) :
    x.toModel.unpack = (Binary.ofFloat x).unpacked := by
  have hexponent := toNat_unpackExponent x.toBits
  have hmantissa := toNat_unpackMantissa x.toBits
  have hsign := ofBitVec_unpackSign x.toBits
  change (UnpackedFloat.unpack Format.binary64 x.toBits.toBitVec).isFinite = true at finite
  change UnpackedFloat.unpack Format.binary64 x.toBits.toBitVec = _
  unfold Binary.ofFloat Binary.ofBits
  rw [← hexponent, ← hmantissa]
  revert finite
  fun_cases UnpackedFloat.unpack Format.binary64 x.toBits.toBitVec with
  | case1 => intro finite; cases finite
  | case2 => intro finite; cases finite
  | case3 mantissa exponent _ _ _ hzero hnone =>
    intro _
    have h0 : exponent.toNat = 0 := by simpa using congrArg BitVec.toNat hzero
    have h1 : mantissa.toNat = 0 := by simpa using congrArg BitVec.toNat hnone
    simp only [exponent, mantissa] at h0 h1
    simp only [h0, h1, if_pos, Binary.unpacked, Binary.sign, dif_pos]
    exact congrArg _ hsign
  | case4 mantissa exponent e _ _ _ hzero hsome =>
    intro _
    have h0 : exponent.toNat = 0 := by simpa using congrArg BitVec.toNat hzero
    have h1 : mantissa.toNat ≠ 0 := fun h1 => hsome (BitVec.toNat_inj.mp (by simpa using h1))
    simp only [exponent, mantissa] at h0 h1
    simp only [h0, if_pos, Binary.unpacked, Binary.sign, h1, dif_neg, not_false_eq_true,
      finite.injEq]
    refine ⟨hsign, rfl, ?_⟩
    simp only [e, exponent, h0]
    rfl
  | case5 mantissa exponent e _ _ _ hsome =>
    intro _
    have h0 : exponent.toNat ≠ 0 := fun h0 => hsome (BitVec.toNat_inj.mp (by simpa using h0))
    have hlong : (1#1 ++ mantissa).toNat = Binary.implicitBit + mantissa.toNat := by
      rw [BitVec.toNat_append, ← Nat.shiftLeft_add_eq_or_of_lt mantissa.isLt]
      rfl
    have hne : Binary.implicitBit + mantissa.toNat ≠ 0 := by
      unfold Binary.implicitBit
      omega
    simp only [exponent] at h0
    simp only [h0, if_neg, not_false_eq_true, Binary.unpacked, Binary.sign]
    rw [dif_neg hne]
    simp only [finite.injEq]
    exact ⟨hsign, hlong, rfl⟩

theorem canonical_ofFloat (x : Float) : (Binary.ofFloat x).Canonical := by
  have hfield := toNat_exponentField x.toBits
  have hfraction := toNat_fractionField x.toBits
  unfold Binary.ofFloat Binary.ofBits
  rw [hfield, hfraction]
  dsimp only
  split
  · refine ⟨?_, le_refl _, .inr rfl⟩
    dsimp only
    omega
  · refine ⟨?_, ?_, .inl ?_⟩ <;> simp only [Binary.implicitBit] <;> omega

/-- The parts of a double that is not zero, read off its form for arithmetic. -/
theorem ofFloat_of_unpack {s : Sign} {m : Nat} {e : Int} {pos : 0 < m}
    (h : x.toModel.unpack = .finite s m e pos) :
    x.isFinite = true ∧ (Binary.ofFloat x).sign = s ∧ (Binary.ofFloat x).significand = m ∧
      (Binary.ofFloat x).exponent = e := by
  have hfinite : x.isFinite = true := by
    change x.toModel.unpack.isFinite = true
    rw [h]
    rfl
  rw [unpack_ofFloat hfinite, Binary.unpacked] at h
  split at h
  · cases h
  · simp only [finite.injEq] at h
    exact ⟨hfinite, h⟩

/-! ## Comparisons -/

theorem beq_comm (x y : Float) : (x == y) = (y == x) := by
  rw [Bool.eq_iff_iff, Float.beq_iff_ne_nan_and_eq, Float.beq_iff_ne_nan_and_eq]
  constructor
  · rintro ⟨hx, hy, rfl | ⟨rfl, rfl⟩ | ⟨rfl, rfl⟩⟩ <;> simp_all
  · rintro ⟨hx, hy, rfl | ⟨rfl, rfl⟩ | ⟨rfl, rfl⟩⟩ <;> simp_all

/-- **Finite doubles are equal when they have the same parts, or both are zeros.** -/
theorem beq_iff_parts (hx : x.isFinite = true) (hy : y.isFinite = true) :
    (x == y) = true ↔
      (Binary.ofFloat x).significand = 0 ∧ (Binary.ofFloat y).significand = 0 ∨
        (Binary.ofFloat x).significand ≠ 0 ∧ (Binary.ofFloat x).sign = (Binary.ofFloat y).sign ∧
          (Binary.ofFloat x).significand = (Binary.ofFloat y).significand ∧
          (Binary.ofFloat x).exponent = (Binary.ofFloat y).exponent := by
  change x.toModel.unpack.beq y.toModel.unpack = true ↔ _
  rw [unpack_ofFloat hx, unpack_ofFloat hy, beq_iff_ne_notANumber_and_eq]
  unfold Binary.unpacked
  by_cases h : (Binary.ofFloat x).significand = 0
  · by_cases h' : (Binary.ofFloat y).significand = 0
    · simp only [h, h', dif_pos]
      cases (Binary.ofFloat x).sign <;> cases (Binary.ofFloat y).sign <;> simp
    · simp [h, h']
  · by_cases h' : (Binary.ofFloat y).significand = 0
    · simp [h, h']
    · simp [h, h']

theorem isFinite_zero : (0 : Float).isFinite = true := by decide

theorem unpack_zero : (0 : Float).toModel.unpack = .zero .positive := by
  rw [unpack_ofFloat isFinite_zero]
  rfl

/-- A finite double is zero when its significand is. -/
theorem beq_zero_iff_parts (hx : x.isFinite = true) :
    (x == 0) = true ↔ (Binary.ofFloat x).significand = 0 := by
  have hzero : (Binary.ofFloat 0).significand = 0 := by decide
  rw [beq_iff_parts hx isFinite_zero, hzero]
  tauto

/-- A finite double is not below zero when it is a zero or has no minus sign. -/
theorem nonneg_iff_parts (hx : x.isFinite = true) :
    0 ≤ x ↔ (Binary.ofFloat x).significand = 0 ∨ (Binary.ofFloat x).negative = false := by
  change decide ((0 : Float).toModel.unpack.le x.toModel.unpack = true) = true ↔ _
  rw [decide_eq_true_iff, unpack_zero, unpack_ofFloat hx, UnpackedFloat.le]
  unfold Binary.unpacked Binary.sign
  by_cases h : (Binary.ofFloat x).significand = 0
  · simp [h, UnpackedFloat.compare, Ordering.isLE]
  · cases hs : (Binary.ofFloat x).negative <;> simp [h, UnpackedFloat.compare, Ordering.isLE]

end Parts

end Formulary.Number
