import Formulary.Proofs.Number.Arithmetic
import Formulary.Proofs.Number.Whole

/-!
# Sums of whole doubles

* `round_exact` : a natural number below `2 ^ 53` is not changed by rounding, however far its
  significand is drawn out;
* `IsCount` : the doubles that are a natural number, with their parts in `IsCount.unpack`;
* `IsCount.add` : the sum of two of them is exact.
-/

namespace Formulary.Number

open Float.Model (UnpackedFloat Format)
open Float.Model.UnpackedFloat

/-- Whether a double is a natural number. Zero has two doubles. -/
structure IsCount (x : Float) (n : Nat) : Prop where
  whole : isWhole x = true
  eq : truncate x = n

variable {x y : Float} {m n : Nat}

/-! ## Drawn out significands -/

theorem mul_two_pow_eq_drawnOut (n : Nat) {k : Nat} (hk : 52 - n.log2 ≤ k) :
    n * 2 ^ k = drawnOut n * 2 ^ (k - (52 - n.log2)) := by
  rw [drawnOut, mul_assoc, ← pow_add, show 52 - n.log2 + (k - (52 - n.log2)) = k by omega]

/-- **A natural number below `2 ^ 53` is not changed by rounding,** however far its significand is
drawn out. -/
theorem round_exact (pos : 0 < n) (hn : n < 2 ^ 53) (k : Nat) :
    UnpackedFloat.round Format.binary64 .positive (n * 2 ^ k) (-k) =
      .finite .positive (drawnOut n) (n.log2 - 52) (pos_of_log2 (log2_drawnOut pos hn)) := by
  have hlog := log2_le_of_lt hn
  have htarget : Format.binary64.targetExponent (Float.Model.totalExponent (n * 2 ^ k) (-k)) =
      (n.log2 : Int) - 52 := by
    rw [targetExponent_eq, log2_mul_two_pow pos]
    push_cast
    omega
  -- The significand is drawn out at least to full length before it is rounded.
  let far := max k (52 - n.log2)
  have hexact := roundWithAccuracy_exact .positive (log2_drawnOut pos hn)
    (show -1074 ≤ (n.log2 : Int) - 52 by omega) (far - (52 - n.log2))
  rw [← mul_two_pow_eq_drawnOut n (show 52 - n.log2 ≤ far by omega)] at hexact
  rw [UnpackedFloat.round, htarget]
  simp only [decreaseExponent, Nat.shiftLeft_eq, mul_assoc, ← pow_add]
  rw [show k + (-(k : Int) - ((n.log2 : Int) - 52)).toNat = far by omega,
    show -(k : Int) - ((-(k : Int) - ((n.log2 : Int) - 52)).toNat : Int) =
      (n.log2 : Int) - 52 - ((far - (52 - n.log2) : Nat) : Int) by omega]
  exact hexact

/-! ## Natural numbers -/

/-- The parts of a double that is a natural number below `2 ^ 53`. -/
theorem IsCount.unpack (h : IsCount x n) (hn : n < 2 ^ 53) :
    (n = 0 ∧ ∃ s, x.toModel.unpack = .zero s) ∨ ∃ pos : 0 < n, x.toModel.unpack =
      .finite .positive (drawnOut n) (n.log2 - 52) (pos_of_log2 (log2_drawnOut pos hn)) := by
  obtain ⟨hwhole, htruncate⟩ := h
  obtain ⟨hfinite, hfraction⟩ := isWhole_iff.mp hwhole
  obtain rfl | pos := Nat.eq_zero_or_pos n
  · have hpart : (Binary.ofFloat x).wholePart = 0 := by
      rw [truncate_of_isFinite hfinite] at htruncate
      split at htruncate <;> omega
    refine .inl ⟨rfl, (Binary.ofFloat x).sign, ?_⟩
    rw [unpack_ofFloat hfinite, Binary.unpacked,
      dif_pos (Binary.significand_of_wholePart hfraction hpart)]
  · have hself : truncate (ofInt n) = n := (whole_ofInt (by simpa using hn)).2
    have hbeq := (beq_ofInt_iff (n := n) (by simpa using hn)).mpr ⟨hwhole, htruncate⟩
    rw [Float.beq_iff_ne_nan_and_eq] at hbeq
    obtain rfl | ⟨hzero, -⟩ | ⟨hzero, -⟩ := hbeq.2.2
    · exact .inr ⟨pos, unpack_ofNat pos hn⟩
    · rw [hzero, whole_zeros.1.2] at hself
      omega
    · rw [hzero, whole_zeros.2.2] at hself
      omega

theorem isCount_of_unpack (pos : 0 < n) (hn : n < 2 ^ 53) (h : x.toModel.unpack =
    .finite .positive (drawnOut n) (n.log2 - 52) (pos_of_log2 (log2_drawnOut pos hn))) :
    IsCount x n := by
  obtain ⟨hfinite, hsign, hsignificand, hexponent⟩ := ofFloat_of_unpack h
  have hlog := log2_le_of_lt hn
  have hstands : (Binary.ofFloat x).StandsFor n := by
    refine ⟨by omega, ?_⟩
    rw [hsignificand, hexponent, drawnOut]
    congr 2
    omega
  obtain ⟨hfraction, hpart⟩ := hstands.wholePart_eq
  refine ⟨isWhole_iff.mpr ⟨hfinite, hfraction⟩, ?_⟩
  rw [truncate_of_isFinite hfinite, Binary.sign_eq_positive_iff.mp hsign, hpart]
  rfl

theorem isCount_of_zero {s : Sign} (h : x.toModel.unpack = .zero s) : IsCount x 0 := by
  have hfinite : x.isFinite = true := by
    change x.toModel.unpack.isFinite = true
    rw [h]
    rfl
  have hsignificand : (Binary.ofFloat x).significand = 0 := by
    rw [unpack_ofFloat hfinite, Binary.unpacked] at h
    split at h
    · assumption
    · cases h
  obtain ⟨hwhole, htruncate⟩ := whole_of_significand hfinite hsignificand
  exact ⟨hwhole, htruncate⟩

theorem isCount_ofNat (hn : n < 2 ^ 53) : IsCount (Float.ofNat n) n := by
  obtain ⟨hwhole, htruncate⟩ := whole_ofInt (n := n) (by simpa using hn)
  exact ⟨hwhole, htruncate⟩

/-- A significand drawn out further, to stand before a smaller exponent. -/
theorem decreaseExponent_drawnOut (hlog : n.log2 ≤ 52) {k : Nat} (hk : 52 - n.log2 ≤ k) :
    decreaseExponent (drawnOut n) ((n.log2 : Int) - 52) (-k) = (n * 2 ^ k, -(k : Int)) := by
  rw [mul_two_pow_eq_drawnOut n hk]
  simp only [decreaseExponent, Nat.shiftLeft_eq, Prod.mk.injEq]
  rw [show ((n.log2 : Int) - 52 - -(k : Int)).toNat = k - (52 - n.log2) by omega]
  exact ⟨rfl, by omega⟩

/-- What an operation packs is a natural number when its result is one. -/
theorem isCount_of_pack {u : UnpackedFloat} (pos : 0 < n) (hn : n < 2 ^ 53)
    (hx : x.toModel.unpack = (Float.Model.pack u).unpack)
    (hu : u = .finite .positive (drawnOut n) (n.log2 - 52) (pos_of_log2 (log2_drawnOut pos hn))) :
    IsCount x n := by
  have hlog := log2_le_of_lt hn
  rw [hu, unpack_pack_normal _ (log2_drawnOut pos hn) (by omega) (by omega)] at hx
  exact isCount_of_unpack pos hn hx

/-- The sum of two natural numbers that are not zero, on significands with the smaller exponent. -/
theorem add_drawnOut (hm : 0 < m) (hn : 0 < n) (h : m + n < 2 ^ 53) :
    UnpackedFloat.add Format.binary64
        (.finite .positive (drawnOut m) (m.log2 - 52)
          (pos_of_log2 (log2_drawnOut hm (by omega))))
        (.finite .positive (drawnOut n) (n.log2 - 52)
          (pos_of_log2 (log2_drawnOut hn (by omega)))) =
      .finite .positive (drawnOut (m + n)) ((m + n).log2 - 52)
        (pos_of_log2 (log2_drawnOut (by omega) h)) := by
  have hlogm : m.log2 ≤ 52 := log2_le_of_lt (by omega)
  have hlogn : n.log2 ≤ 52 := log2_le_of_lt (by omega)
  let k := 52 - min m.log2 n.log2
  have hk : min ((m.log2 : Int) - 52) (n.log2 - 52) = -(k : Int) := by omega
  have hpos : 0 < (m + n) * 2 ^ k := Nat.mul_pos (by omega) (Nat.two_pow_pos k)
  rw [UnpackedFloat.add, hk, decreaseExponent_drawnOut hlogm (by omega),
    decreaseExponent_drawnOut hlogn (by omega)]
  simp only [Sign.apply]
  rw [← round_exact (by omega) h k, UnpackedFloat.normalize, ← Nat.cast_add, ← add_mul,
    Int.compare_eq_gt.mpr (by exact_mod_cast hpos)]
  rfl

/-- **The sum of two natural numbers is exact below `2 ^ 53`.** -/
theorem IsCount.add (hx : IsCount x m) (hy : IsCount y n) (h : m + n < 2 ^ 53) :
    IsCount (x + y) (m + n) := by
  have hsum : (x + y).toModel.unpack = (Float.Model.pack
      (UnpackedFloat.add Format.binary64 x.toModel.unpack y.toModel.unpack)).unpack := rfl
  obtain ⟨rfl, s, hx⟩ | ⟨hm, hx⟩ := hx.unpack (by omega) <;>
    obtain ⟨rfl, t, hy⟩ | ⟨hn, hy⟩ := hy.unpack (by omega) <;> rw [hx, hy] at hsum
  · obtain ⟨u, hu⟩ : ∃ u, UnpackedFloat.add Format.binary64 (.zero s) (.zero t) = .zero u := by
      cases s <;> cases t <;> exact ⟨_, rfl⟩
    rw [hu, unpack_pack_zero] at hsum
    exact isCount_of_zero hsum
  · rw [Nat.zero_add] at h ⊢
    exact isCount_of_pack hn h hsum rfl
  · exact isCount_of_pack hm h hsum rfl
  · exact isCount_of_pack (by omega) h hsum (add_drawnOut hm hn h)

end Formulary.Number
