import Formulary.Proofs.Number.Nearest

/-!
# Results of arithmetic are rounded to the nearest double

* `Represents`, `Represents.shiftRight` : what a significand with two further bits stands for;
* `Closest`, `Represents.closest` : such a significand is rounded to the closest natural number;
* `roundWithAccuracy_captures` : rounding gives parts that capture what was rounded;
* `rounds_of_pack` : parts are packed into the double that is nearest to it.
-/

namespace Formulary.Number

open Float.Model (UnpackedFloat Format)
open Float.Model.UnpackedFloat

/-! ## Further bits -/

section Bits

variable {em : ExtendedMantissa} {w : ℚ} {N : Nat}

/-- A significand with half a unit more when the first of two further bits is set. -/
def halves (em : ExtendedMantissa) : ℚ :=
  em.mantissa + if em.roundBit then 1 / 2 else 0

/-- Whether a significand with two further bits stands for a number: the second bit is set when
there is anything beyond the first, and that is less than half a unit. -/
structure Represents (em : ExtendedMantissa) (w : ℚ) : Prop where
  low : halves em ≤ w
  high : w < halves em + 1 / 2
  sticky : em.stickyBit = false ↔ w = halves em

theorem le_halves (em : ExtendedMantissa) :
    (em.mantissa : ℚ) ≤ halves em ∧ halves em ≤ em.mantissa + 1 / 2 := by
  unfold halves
  split <;> constructor <;> linarith

theorem Represents.bounds (h : Represents em w) :
    (em.mantissa : ℚ) ≤ w ∧ w < em.mantissa + 1 := by
  obtain ⟨hlow, hhigh⟩ := le_halves em
  exact ⟨hlow.trans h.low, by linarith [h.high]⟩

/-- Shifted by one place, the bit that the significand loses is the first of the further two. -/
theorem halves_shiftRightOne (em : ExtendedMantissa) :
    halves em.shiftRightOne = em.mantissa / 2 := by
  have hm : (em.mantissa : ℚ) = 2 * (em.mantissa / 2 : Nat) + (em.mantissa % 2 : Nat) := by
    exact_mod_cast (Nat.div_add_mod em.mantissa 2).symm
  rw [halves, ExtendedMantissa.shiftRightOne, hm]
  dsimp only
  obtain h | h := Nat.mod_two_eq_zero_or_one em.mantissa <;> simp [h]
  ring

theorem Represents.shiftRightOne (h : Represents em w) : Represents em.shiftRightOne (w / 2) := by
  obtain ⟨hlow, hhigh⟩ := h.bounds
  refine ⟨?_, ?_, ?_⟩ <;> rw [halves_shiftRightOne]
  · linarith
  · linarith
  · have hsticky : em.shiftRightOne.stickyBit = (em.roundBit || em.stickyBit) := rfl
    rw [hsticky, Bool.or_eq_false_iff, h.sticky, div_left_inj' (by norm_num), halves]
    cases hround : em.roundBit with
    | false => simp
    | true =>
      have hhalf := h.low
      rw [halves, hround, if_pos rfl] at hhalf
      constructor
      · rintro ⟨⟨⟩, -⟩
      · intro heq
        linarith

theorem Represents.shiftRight (h : Represents em w) (n : Nat) :
    Represents (em >>> n) (w / 2 ^ n) := by
  change Represents (n.repeat ExtendedMantissa.shiftRightOne em) _
  induction n with
  | zero => simpa [Nat.repeat] using h
  | succ n ih =>
    rw [Nat.repeat, pow_succ, ← div_div]
    exact ih.shiftRightOne

/-- Whether a natural number is the closest to a number, the even one of two. -/
structure Closest (N : Nat) (w : ℚ) : Prop where
  low : N - 1 / 2 ≤ w
  high : w ≤ N + 1 / 2
  tie : w = N - 1 / 2 ∨ w = N + 1 / 2 → N % 2 = 0

/-- **What a significand with further bits stands for is rounded to the closest natural number.** -/
theorem Represents.closest (h : Represents em w) : Closest em.roundedMantissa w := by
  obtain ⟨m, round, sticky⟩ := em
  obtain ⟨hlow, hhigh, hsticky⟩ := h
  simp only [halves] at hlow hhigh hsticky
  cases round with
  | false =>
    have hdown : (⟨m, false, sticky⟩ : ExtendedMantissa).roundedMantissa = m := by
      cases sticky <;> rfl
    simp only [Bool.false_eq_true, if_false, add_zero] at hlow hhigh
    rw [hdown]
    exact ⟨by linarith, hhigh.le, fun h => by rcases h with h | h <;> linarith⟩
  | true =>
    simp only [if_true] at hlow hhigh hsticky
    cases sticky with
    | false =>
      have heven : (⟨m, true, false⟩ : ExtendedMantissa).roundedMantissa = m + m % 2 := rfl
      have hw := hsticky.mp rfl
      have hparity : (m % 2 : Nat) = (0 : ℚ) ∨ (m % 2 : Nat) = (1 : ℚ) := by
        exact_mod_cast Nat.mod_two_eq_zero_or_one m
      rw [heven, hw]
      refine ⟨?_, ?_, fun _ => by omega⟩ <;> push_cast <;> rcases hparity with h | h <;> rw [h] <;>
        linarith
    | true =>
      have hup : (⟨m, true, true⟩ : ExtendedMantissa).roundedMantissa = m + 1 := rfl
      have hlt := lt_of_le_of_ne hlow fun h => by simpa using hsticky.mpr h.symm
      rw [hup]
      refine ⟨?_, ?_, fun h => ?_⟩ <;> push_cast at *
      · linarith
      · linarith
      · rcases h with h | h <;> linarith

end Bits

/-! ## Rounding -/

section Rounding

variable {m N : Nat} {e k : Int} {v w : ℚ} {accuracy : Accuracy}

theorem targetExponent_eq (m : Nat) (e : Int) :
    Format.binary64.targetExponent (Float.Model.totalExponent m e)
      = max ((m.log2 : Int) + e - 52) (-1074) := by
  simp only [Format.targetExponent, Float.Model.totalExponent, Format.mantissaBits,
    Format.minExponent]
  push_cast
  omega

/-- A significand with the exponent that its length asks for has less than `2 ^ 53` units, and at
least `2 ^ 52` unless the exponent is the least one. -/
theorem units_bounds (hlow : (m : ℚ) * 2 ^ e ≤ v) (hhigh : v < (m + 1) * 2 ^ e)
    (hk : k = max ((m.log2 : Int) + e - 52) (-1074)) (hle : e ≤ k) :
    v / 2 ^ k < 2 ^ 53 ∧ (2 ^ 52 ≤ v / 2 ^ k ∨ k = -1074) := by
  have hpos : (0 : ℚ) < 2 ^ k := zpow_pos (by norm_num) k
  have hunit : (0 : ℚ) < 2 ^ e := zpow_pos (by norm_num) e
  have hzpow {i j : Int} (h : i ≤ j) : (2 : ℚ) ^ i ≤ 2 ^ j := zpow_le_zpow_right₀ (by norm_num) h
  rw [div_lt_iff₀ hpos, le_div_iff₀ hpos]
  constructor
  · have hlength : (m + 1 : ℚ) ≤ 2 ^ ((m.log2 + 1 : Nat) : Int) := by
      rw [zpow_natCast]
      exact_mod_cast Nat.lt_log2_self
    calc v < (m + 1) * 2 ^ e := hhigh
      _ ≤ 2 ^ ((m.log2 + 1 : Nat) : Int) * 2 ^ e := mul_le_mul_of_nonneg_right hlength hunit.le
      _ = 2 ^ (((m.log2 + 1 : Nat) : Int) + e) := (zpow_add₀ (by norm_num) _ _).symm
      _ ≤ 2 ^ (53 + k) := hzpow (by push_cast; omega)
      _ = 2 ^ 53 * 2 ^ k := by rw [zpow_add₀ (by norm_num)]; rfl
  · by_cases hk' : k = -1074
    · exact .inr hk'
    · have hne : m ≠ 0 := by
        rintro rfl
        rw [Nat.log2_zero] at hk
        push_cast at hk
        omega
      have hlength : (2 ^ ((m.log2 : Nat) : Int) : ℚ) ≤ m := by
        rw [zpow_natCast]
        exact_mod_cast Nat.log2_self_le hne
      left
      calc (2 : ℚ) ^ 52 * 2 ^ k = 2 ^ (52 + k) := by rw [zpow_add₀ (by norm_num)]; rfl
        _ ≤ 2 ^ (((m.log2 : Nat) : Int) + e) := hzpow (by omega)
        _ = 2 ^ ((m.log2 : Nat) : Int) * 2 ^ e := zpow_add₀ (by norm_num) _ _
        _ ≤ m * 2 ^ e := mul_le_mul_of_nonneg_right hlength hunit.le
        _ ≤ v := hlow

theorem Closest.captures (h : Closest N w) (full : 2 ^ 52 ≤ w ∨ k = -1074) (negative : Bool) :
    (Binary.mk negative N k).Captures (w * 2 ^ k) := by
  have hunit : (Binary.mk negative N k).unit = 2 ^ k := rfl
  have hvalue : (Binary.mk negative N k).value = N * 2 ^ k := rfl
  have hpos : (0 : ℚ) < 2 ^ k := zpow_pos (by norm_num) k
  have hlow := mul_le_mul_of_nonneg_right h.low hpos.le
  have hhigh := mul_le_mul_of_nonneg_right h.high hpos.le
  have htie : w * 2 ^ k = (N - 1 / 2) * 2 ^ k ∨ w * 2 ^ k = (N + 1 / 2) * 2 ^ k → N % 2 = 0 := by
    rw [mul_left_inj' hpos.ne', mul_left_inj' hpos.ne']
    exact h.tie
  by_cases hnarrow : (Binary.mk negative N k).narrowBelow = true
  · obtain ⟨hleast, hexponent⟩ := Binary.narrowBelow_iff.mp hnarrow
    dsimp only at hleast hexponent
    have hle : (N : ℚ) * 2 ^ k ≤ w * 2 ^ k := by
      refine mul_le_mul_of_nonneg_right ?_ hpos.le
      rw [hleast]
      exact_mod_cast full.resolve_right hexponent
    have hgap : (Binary.mk negative N k).gapBelow = 2 ^ k / 2 := if_pos hnarrow
    refine ⟨?_, ?_, fun _ => by dsimp only; omega⟩ <;> rw [hvalue]
    · rw [hgap]
      linarith
    · rw [hunit]
      linarith
  · have hgap : (Binary.mk negative N k).gapBelow = 2 ^ k := if_neg hnarrow
    refine ⟨?_, ?_, ?_⟩ <;> rw [hvalue]
    · rw [hgap]
      linarith
    · rw [hunit]
      linarith
    · rw [hgap, hunit]
      exact fun heq => htie (heq.imp (fun h => by linarith) fun h => by linarith)

/-- A significand that is rounded to one bit too many is half as long at the next exponent. -/
theorem Closest.captures_carry (h : Closest (2 ^ 53) w) (hlt : w < 2 ^ 53) (hk : -1074 ≤ k)
    (negative : Bool) : (Binary.mk negative (2 ^ 52) (k + 1)).Captures (w * 2 ^ k) := by
  have hunit : (Binary.mk negative (2 ^ 52) (k + 1)).unit = 2 * 2 ^ k := by
    rw [mul_comm]
    exact zpow_add_one₀ (by norm_num) k
  have hgap : (Binary.mk negative (2 ^ 52) (k + 1)).gapBelow = 2 ^ k := by
    have hnarrow : (Binary.mk negative (2 ^ 52) (k + 1)).narrowBelow = true :=
      Binary.narrowBelow_iff.mpr ⟨rfl, by dsimp only; omega⟩
    rw [Binary.gapBelow, if_pos hnarrow, hunit]
    ring
  have hvalue : (Binary.mk negative (2 ^ 52) (k + 1)).value = 2 ^ 53 * 2 ^ k := by
    rw [Binary.value_eq, hunit]
    push_cast
    ring
  have hpos : (0 : ℚ) < 2 ^ k := zpow_pos (by norm_num) k
  have hlow := mul_le_mul_of_nonneg_right h.low hpos.le
  have hhigh := mul_le_mul_of_nonneg_right hlt.le hpos.le
  push_cast at hlow
  refine ⟨?_, ?_, fun _ => by dsimp only; omega⟩ <;> rw [hvalue]
  · rw [hgap]
    linarith
  · rw [hunit]
    linarith

/-- What is below a natural number is rounded to that number at most. -/
theorem Closest.le_of_lt {bound : Nat} (h : Closest N w) (hlt : w < bound) : N ≤ bound := by
  have hbelow : (N : ℚ) < bound + 1 := by linarith [h.low]
  exact Nat.lt_succ_iff.mp (by exact_mod_cast hbelow)

/-- What is not below a natural number is rounded to that number at least. -/
theorem Closest.ge_of_ge {bound : Nat} (h : Closest N w) (hge : bound ≤ w) : bound ≤ N := by
  have habove : (bound : ℚ) < N + 1 := by linarith [h.high]
  exact Nat.lt_succ_iff.mp (by exact_mod_cast habove)

/-! ### The steps of rounding -/

theorem mantissa_ofMantissaAndAccuracy (m : Nat) (accuracy : Accuracy) :
    (ExtendedMantissa.ofMantissaAndAccuracy m accuracy).mantissa = m := by
  fun_cases ExtendedMantissa.ofMantissaAndAccuracy m accuracy <;> rfl

/-- A significand is shifted to the exponent that its length asks for. -/
theorem shiftToTargetExponent_of_le (hk : max ((m.log2 : Int) + e - 52) (-1074) = k) (hle : e ≤ k)
    (accuracy : Accuracy) :
    shiftToTargetExponent Format.binary64 m e accuracy =
      (ExtendedMantissa.ofMantissaAndAccuracy m accuracy >>> (k - e).toNat, k) := by
  rw [shiftToTargetExponent, targetExponent_eq, hk, shiftToExponent]
  exact Prod.ext rfl (by dsimp only; omega)

/-- What it stands for is then counted in units of that exponent. -/
theorem div_zpow_shift (v : ℚ) (hle : e ≤ k) : v / 2 ^ e / 2 ^ (k - e).toNat = v / 2 ^ k := by
  rw [div_div, ← zpow_natCast, ← zpow_add₀ (by norm_num)]
  congr 2
  omega

theorem shiftToTargetExponent_of_lt (hN : N < 2 ^ 53) (hk : -1074 ≤ k) :
    shiftToTargetExponent Format.binary64 N k .exact = (⟨N, false, false⟩, k) := by
  have hlog := log2_le_of_lt hN
  rw [shiftToTargetExponent, targetExponent_eq, shiftToExponent]
  rw [show (max ((N.log2 : Int) + k - 52) (-1074) - k).toNat = 0 by omega]
  exact Prod.ext rfl (by simp)

theorem shiftToTargetExponent_carry (hk : -1074 ≤ k) :
    shiftToTargetExponent Format.binary64 (2 ^ 53) k .exact = (⟨2 ^ 52, false, false⟩, k + 1) := by
  rw [shiftToTargetExponent, targetExponent_eq, shiftToExponent, Nat.log2_two_pow]
  rw [show (max (((53 : Nat) : Int) + k - 52) (-1074) - k).toNat = 1 by omega]
  rfl

theorem roundWithAccuracy_eq {em : ExtendedMantissa} {k' : Int} (negative : Bool)
    (first : shiftToTargetExponent Format.binary64 m e accuracy = (em, k))
    (second : shiftToTargetExponent Format.binary64 em.roundedMantissa k .exact =
      (⟨N, false, false⟩, k')) :
    roundWithAccuracy Format.binary64 (Binary.mk negative N k').sign m e accuracy =
      (Binary.mk negative N k').unpacked := by
  simp only [roundWithAccuracy, first, second]
  rfl

/-- **Rounding gives parts that capture what was rounded.** -/
theorem roundWithAccuracy_captures (s : Sign)
    (h : Represents (ExtendedMantissa.ofMantissaAndAccuracy m accuracy) (v / 2 ^ e))
    (hle : e ≤ Format.binary64.targetExponent (Float.Model.totalExponent m e)) :
    ∃ b : Binary, b.Canonical ∧ b.sign = s ∧ b.Captures v ∧
      roundWithAccuracy Format.binary64 s m e accuracy = b.unpacked := by
  obtain ⟨negative, rfl⟩ : ∃ negative : Bool, (if negative then .negative else .positive) = s := by
    cases s
    · exact ⟨true, rfl⟩
    · exact ⟨false, rfl⟩
  rw [targetExponent_eq] at hle
  generalize hk : max ((m.log2 : Int) + e - 52) (-1074) = k at hle
  have hleast : -1074 ≤ k := by omega
  have hunit : (0 : ℚ) < 2 ^ e := zpow_pos (by norm_num) e
  obtain ⟨hbelow, habove⟩ := h.bounds
  rw [mantissa_ofMantissaAndAccuracy, le_div_iff₀ hunit] at hbelow
  rw [mantissa_ofMantissaAndAccuracy, div_lt_iff₀ hunit] at habove
  obtain ⟨hlt, hfull⟩ := units_bounds hbelow habove hk.symm hle
  -- The first shift brings the significand to the exponent `k`, where it is rounded.
  have hshift := shiftToTargetExponent_of_le hk hle accuracy
  have hclosest := (h.shiftRight (k - e).toNat).closest
  rw [div_zpow_shift v hle] at hclosest
  have hv : v = v / 2 ^ k * 2 ^ k := (div_mul_cancel₀ v (zpow_pos (by norm_num) k).ne').symm
  generalize ExtendedMantissa.ofMantissaAndAccuracy m accuracy >>> (k - e).toNat = em at *
  -- The second shift is needed only where rounding has carried into a further bit.
  obtain hN | hN := (hclosest.le_of_lt (by exact_mod_cast hlt) : _ ≤ 2 ^ 53).lt_or_eq
  · refine ⟨⟨negative, em.roundedMantissa, k⟩, ⟨hN, hleast, ?_⟩, rfl, ?_,
      roundWithAccuracy_eq negative hshift (shiftToTargetExponent_of_lt hN hleast)⟩
    · exact hfull.imp_left fun hfull => hclosest.ge_of_ge (by exact_mod_cast hfull)
    · rw [hv]
      exact hclosest.captures hfull negative
  · have hcarry := shiftToTargetExponent_carry hleast
    rw [hN] at hclosest
    rw [← hN] at hcarry
    refine ⟨⟨negative, 2 ^ 52, k + 1⟩, ⟨?_, ?_, .inl (le_refl _)⟩, rfl, ?_,
      roundWithAccuracy_eq negative hshift hcarry⟩
    · dsimp only
      omega
    · dsimp only
      omega
    · rw [hv]
      exact hclosest.captures_carry hlt hleast negative

end Rounding

/-! ## Packing -/

section Packing

variable {b : Binary} {x : Float} {v : ℚ}

theorem unpack_pack_zero (s : Sign) : (Float.Model.pack (.zero s)).unpack = .zero s := by
  cases s <;> rfl

/-- A significand without the leading bit is read from the bits again. -/
theorem unpack_pack_subnormal {m : Nat} (s : Sign) (hm : m < 2 ^ 52) (pos : 0 < m) :
    (Float.Model.pack (.finite s m (-1074) pos)).unpack = .finite s m (-1074) pos := by
  have hlog : m.log2 < 52 := (Nat.log2_lt pos.ne').mpr hm
  have hpack : UnpackedFloat.pack Format.binary64 (.finite s m (-1074) pos) =
      packComponents Format.binary64 s 0#_ (BitVec.ofNat _ m) := by
    rw [UnpackedFloat.pack]
    dsimp only
    rw [if_neg (by decide), if_neg (by change ¬ m.log2 + 1 = 53; omega)]
  have hmantissa : (BitVec.ofNat Format.binary64.mantissaBitsWithoutImplicit m).toNat = m := by
    rw [BitVec.toNat_ofNat]
    exact Nat.mod_eq_of_lt hm
  change UnpackedFloat.unpack Format.binary64 (UnpackedFloat.pack Format.binary64 _) = _
  rw [hpack]
  unfold UnpackedFloat.unpack
  simp only [unpackExponent_packComponents, unpackMantissa_packComponents,
    unpackSign_packComponents, Sign.ofBitVec_toBitVec]
  rw [if_neg (by decide), if_pos True.intro, dif_neg]
  · simp only [finite.injEq, true_and]
    exact ⟨hmantissa, by decide⟩
  · rw [← BitVec.toNat_inj, hmantissa]
    exact pos.ne'

/-- **Parts of finite doubles are read from the bits again.** -/
theorem unpack_pack (canonical : b.Canonical) (hle : b.exponent ≤ 971) :
    (Float.Model.pack b.unpacked).unpack = b.unpacked := by
  obtain ⟨negative, m, e⟩ := b
  unfold Binary.unpacked
  split
  · exact unpack_pack_zero _
  · next hne =>
    by_cases hlong : 2 ^ 52 ≤ m
    · have hlog : m.log2 = 52 := (Nat.log2_eq_iff hne).mpr ⟨hlong, canonical.significand_lt⟩
      exact unpack_pack_normal _ hlog canonical.exponent_ge hle _
    · obtain rfl : e = -1074 := canonical.full.resolve_left hlong
      exact unpack_pack_subnormal _ (not_le.mp hlong) _

/-- No two finite doubles are the same for arithmetic. -/
theorem Binary.Canonical.eq_of_unpacked {c : Binary} (hb : b.Canonical) (hc : c.Canonical)
    (h : b.unpacked = c.unpacked) : b = c := by
  have hparts : b.sign = c.sign ∧ b.significand = c.significand ∧ b.exponent = c.exponent := by
    unfold Binary.unpacked at h
    split at h <;> split at h
    · have hbfull := hb.full
      have hcfull := hc.full
      exact ⟨zero.inj h, by omega, by omega⟩
    · cases h
    · cases h
    · exact finite.inj h
  obtain ⟨hsign, hsignificand, hexponent⟩ := hparts
  have hnegative : b.negative = c.negative := by
    unfold Binary.sign at hsign
    cases hb : b.negative <;> cases hc : c.negative <;> simp [hb, hc] at hsign ⊢
  obtain ⟨_, _, _⟩ := b
  obtain ⟨_, _, _⟩ := c
  rw [Binary.mk.injEq]
  exact ⟨hnegative, hsignificand, hexponent⟩

theorem pack_infinite (canonical : b.Canonical) (hlt : 971 < b.exponent) :
    Float.Model.pack b.unpacked = Float.Model.pack (.infinity b.sign) := by
  have hlong : 2 ^ 52 ≤ b.significand := canonical.full.resolve_right (by omega)
  have hpack : UnpackedFloat.pack Format.binary64 b.unpacked =
      packedInfinity Format.binary64 b.sign := by
    rw [Binary.unpacked, dif_neg (by omega), UnpackedFloat.pack]
    dsimp only
    rw [if_pos]
    change 2 ^ 11 ≤ (b.exponent + ((1023 : Nat) : Int) + ((52 : Nat) : Int)).toNat + 1
    omega
  rw [Float.Model.pack.eq_def, Float.Model.mk.injEq, hpack]
  rfl

/-- What captures parts beyond the doubles is beyond them by half a unit of the last place. -/
theorem overflow_le_of_captures (canonical : b.Canonical) (hlt : 971 < b.exponent)
    (captures : b.Captures v) : overflow ≤ v := by
  have hunit : (2 : ℚ) * 2 ^ (971 : Int) ≤ b.unit := by
    rw [← zpow_one_add₀ (by norm_num)]
    exact zpow_le_zpow_right₀ (by norm_num) (by omega)
  have hlong : 2 ^ 52 ≤ b.significand := canonical.full.resolve_right (by omega)
  have hpos := b.unit_pos
  have hleast : (2 ^ 52 - 1 / 4) * b.unit ≤ b.value - b.gapBelow / 2 := by
    rw [Binary.value_eq, Binary.gapBelow]
    split
    · next hnarrow =>
      rw [(Binary.narrowBelow_iff.mp hnarrow).1]
      push_cast
      linarith
    · next hwide =>
      have hne : b.significand ≠ 2 ^ 52 := fun h =>
        hwide (Binary.narrowBelow_iff.mpr ⟨h, by omega⟩)
      have hsucc : (2 ^ 52 + 1 : ℚ) ≤ b.significand := by
        exact_mod_cast Nat.lt_of_le_of_ne hlong hne.symm
      have hvalue := mul_le_mul_of_nonneg_right hsucc hpos.le
      linarith only [hvalue, hpos]
  have hlow := captures.low
  unfold overflow
  generalize (2 : ℚ) ^ (971 : Int) = greatest at *
  linarith

/-- Parts that are packed are the parts of the double. -/
theorem ofFloat_of_pack (canonical : b.Canonical) (hle : b.exponent ≤ 971)
    (h : x.toModel = Float.Model.pack b.unpacked) :
    x.isFinite = true ∧ Binary.ofFloat x = b := by
  have hunpack : x.toModel.unpack = b.unpacked := by rw [h, unpack_pack canonical hle]
  have hfinite : x.isFinite = true := by
    change x.toModel.unpack.isFinite = true
    rw [hunpack]
    unfold Binary.unpacked
    split <;> rfl
  exact ⟨hfinite,
    (canonical_ofFloat x).eq_of_unpacked canonical ((unpack_ofFloat hfinite).symm.trans hunpack)⟩

/-- **Parts are packed into the double that is nearest to what they capture.** -/
theorem rounds_of_pack (canonical : b.Canonical) (positive : b.sign = .positive)
    (captures : b.Captures v) (h : x.toModel = Float.Model.pack b.unpacked) : Rounds v x := by
  obtain hle | hlt := le_or_gt b.exponent 971
  · obtain ⟨hfinite, hparts⟩ := ofFloat_of_pack canonical hle h
    exact .finite hfinite (by rw [hparts, Binary.sign_eq_positive_iff.mp positive])
      (hparts ▸ captures)
  · refine .infinite (overflow_le_of_captures canonical hlt captures) ?_
    rw [pack_infinite canonical hlt, positive] at h
    exact congrArg Float.ofModel h

end Packing

/-! ## Products and quotients -/

section Operations

variable {x : Float} {m n q r d : Nat} {e i j : Int}

theorem represents_exact (m : Nat) :
    Represents (ExtendedMantissa.ofMantissaAndAccuracy m .exact) m := by
  have hhalves : halves ⟨m, false, false⟩ = m := by simp [halves]
  refine ⟨?_, ?_, ?_⟩ <;> rw [ExtendedMantissa.ofMantissaAndAccuracy, hhalves]
  · linarith
  · simp

/-- What a division leaves tells how the quotient without it is related to the whole one. -/
theorem represents_fraction (q : Nat) (h : r < d) :
    Represents (ExtendedMantissa.ofMantissaAndAccuracy q (accuracyOfFraction r d)) (q + r / d) := by
  have hd : (0 : ℚ) < d := by exact_mod_cast Nat.zero_lt_of_lt h
  have hone : (r : ℚ) / d < 1 := by
    rw [div_lt_one hd]
    exact_mod_cast h
  unfold accuracyOfFraction
  split
  · next hzero =>
    rw [hzero, Nat.cast_zero, zero_div, add_zero]
    exact represents_exact q
  · next hne =>
    have hpos : (0 : ℚ) < r / d := div_pos (by exact_mod_cast Nat.pos_of_ne_zero hne) hd
    cases hcompare : compare (2 * r) d with
    | lt =>
      have hhalf : (2 * r : ℚ) < d := by exact_mod_cast Nat.compare_eq_lt.mp hcompare
      have hbelow : (r : ℚ) / d < 1 / 2 := by
        rw [div_lt_iff₀ hd]
        linarith
      have hhalves : halves ⟨q, false, true⟩ = q := by simp [halves]
      refine ⟨?_, ?_, ?_⟩ <;> rw [ExtendedMantissa.ofMantissaAndAccuracy, hhalves]
      · linarith
      · linarith
      · exact ⟨nofun, fun heq => by linarith⟩
    | eq =>
      have hhalf : (2 * r : ℚ) = d := by exact_mod_cast Nat.compare_eq_eq.mp hcompare
      have hmiddle : (r : ℚ) / d = 1 / 2 := by
        rw [div_eq_iff hd.ne']
        linarith
      have hhalves : halves ⟨q, true, false⟩ = q + 1 / 2 := by simp [halves]
      refine ⟨?_, ?_, ?_⟩ <;> rw [ExtendedMantissa.ofMantissaAndAccuracy, hhalves, hmiddle]
      · linarith
      · simp
    | gt =>
      have hhalf : (d : ℚ) < 2 * r := by exact_mod_cast Nat.compare_eq_gt.mp hcompare
      have habove : (1 / 2 : ℚ) < r / d := by
        rw [lt_div_iff₀ hd]
        linarith
      have hhalves : halves ⟨q, true, true⟩ = q + 1 / 2 := by simp [halves]
      refine ⟨?_, ?_, ?_⟩ <;> rw [ExtendedMantissa.ofMantissaAndAccuracy, hhalves]
      · linarith
      · linarith
      · exact ⟨nofun, fun heq => by linarith⟩

/-- The exponent of a significand of full length is at most what its length asks for. -/
theorem le_targetExponent (h : 52 ≤ m.log2 ∨ e ≤ -1074) :
    e ≤ Format.binary64.targetExponent (Float.Model.totalExponent m e) := by
  rw [targetExponent_eq]
  omega

/-- **A product is rounded to the nearest double.** -/
theorem rounds_mul (hm : 0 < m) (hn : 0 < n) (hlong : 52 ≤ (m * n).log2)
    (h : x.toModel = Float.Model.pack (UnpackedFloat.mul Format.binary64 (.finite .positive m i hm)
      (.finite .positive n j hn))) : Rounds (m * 2 ^ i * (n * 2 ^ j)) x := by
  have hvalue : (m * 2 ^ i * (n * 2 ^ j) / 2 ^ (i + j) : ℚ) = (m * n : Nat) := by
    rw [zpow_add₀ (by norm_num)]
    push_cast
    field_simp
  have hrepresents := represents_exact (m * n)
  rw [← hvalue] at hrepresents
  obtain ⟨b, hcanonical, hsign, hcaptures, hround⟩ :=
    roundWithAccuracy_captures .positive hrepresents (le_targetExponent (.inl hlong))
  refine rounds_of_pack hcanonical hsign hcaptures ?_
  rw [h, ← hround]
  rfl

/-- A quotient is computed with as many digits as a significand has, unless its exponent is the
least one. -/
theorem long_quotient {t : Int} (hm : 0 < m) (hn : 0 < n)
    (ht : t = min (i - j) (Format.binary64.targetExponent
      (Float.Model.totalExponent m i - Float.Model.totalExponent n j))) :
    52 ≤ (m * 2 ^ (i - j - t).toNat / n).log2 ∨ t ≤ -1074 := by
  obtain hleast | hlt := le_or_gt t (-1074)
  · exact .inr hleast
  have htarget : t ≤ (m.log2 : Int) + i - (n.log2 + j) - 53 := by
    simp only [Format.targetExponent, Float.Model.totalExponent, Format.mantissaBits,
      Format.minExponent] at ht
    push_cast at ht
    omega
  have hle : 2 ^ 52 ≤ m * 2 ^ (i - j - t).toNat / n := by
    rw [Nat.le_div_iff_mul_le hn]
    calc 2 ^ 52 * n ≤ 2 ^ 52 * 2 ^ (n.log2 + 1) := Nat.mul_le_mul_left _ Nat.lt_log2_self.le
      _ = 2 ^ (52 + (n.log2 + 1)) := (pow_add 2 52 (n.log2 + 1)).symm
      _ ≤ 2 ^ (m.log2 + (i - j - t).toNat) := Nat.pow_le_pow_right (by decide) (by omega)
      _ = 2 ^ m.log2 * 2 ^ (i - j - t).toNat := pow_add 2 _ _
      _ ≤ m * 2 ^ (i - j - t).toNat := Nat.mul_le_mul_right _ (Nat.log2_self_le hm.ne')
  exact .inl ((Nat.le_log2 (by omega)).mpr hle)

/-- A quotient is rounded to parts that capture it. -/
theorem div_captures (s : Sign) (hm : 0 < m) (hn : 0 < n) :
    ∃ b : Binary, b.Canonical ∧ b.sign = s ∧ b.Captures (m * 2 ^ i / (n * 2 ^ j)) ∧
      UnpackedFloat.div Format.binary64 (.finite s m i hm) (.finite .positive n j hn) =
        b.unpacked := by
  generalize ht : min (i - j) (Format.binary64.targetExponent
    (Float.Model.totalExponent m i - Float.Model.totalExponent n j)) = t at *
  have hlong := long_quotient hm hn ht.symm
  have hle : t ≤ i - j := ht ▸ min_le_left _ _
  have hdiv : divCore Format.binary64 m i n j =
      (m * 2 ^ (i - j - t).toNat / n, t,
        accuracyOfFraction (m * 2 ^ (i - j - t).toNat % n) n) := by
    simp only [divCore, ht, Nat.shiftLeft_eq]
  have hpos : (0 : ℚ) < n := by exact_mod_cast hn
  have hvalue : (m * 2 ^ i / (n * 2 ^ j) / 2 ^ t : ℚ) =
      (m * 2 ^ (i - j - t).toNat / n : Nat) + (m * 2 ^ (i - j - t).toNat % n : Nat) / n := by
    have hmod : (m * 2 ^ (i - j - t).toNat : ℚ) =
        n * (m * 2 ^ (i - j - t).toNat / n : Nat) + (m * 2 ^ (i - j - t).toNat % n : Nat) := by
      exact_mod_cast (Nat.div_add_mod _ _).symm
    have hscale : (2 : ℚ) ^ (i - j - t).toNat = 2 ^ i / 2 ^ j / 2 ^ t := by
      rw [← zpow_natCast, Int.toNat_of_nonneg (by omega), zpow_sub₀ (by norm_num),
        zpow_sub₀ (by norm_num)]
    rw [hscale] at hmod
    generalize (m * 2 ^ (i - j - t).toNat / n : Nat) = q at *
    generalize (m * 2 ^ (i - j - t).toNat % n : Nat) = r at *
    field_simp at hmod ⊢
    linarith
  have hrepresents := represents_fraction (m * 2 ^ (i - j - t).toNat / n)
    (Nat.mod_lt (m * 2 ^ (i - j - t).toNat) hn)
  rw [← hvalue] at hrepresents
  obtain ⟨b, hcanonical, hsign, hcaptures, hround⟩ :=
    roundWithAccuracy_captures s hrepresents (le_targetExponent hlong)
  refine ⟨b, hcanonical, hsign, hcaptures, ?_⟩
  rw [← hround, UnpackedFloat.div, hdiv]
  cases s <;> rfl

/-- **A quotient is rounded to the nearest double.** -/
theorem rounds_div (hm : 0 < m) (hn : 0 < n)
    (h : x.toModel = Float.Model.pack (UnpackedFloat.div Format.binary64 (.finite .positive m i hm)
      (.finite .positive n j hn))) : Rounds (m * 2 ^ i / (n * 2 ^ j)) x := by
  obtain ⟨b, hcanonical, hsign, hcaptures, hdiv⟩ := div_captures .positive hm hn
  exact rounds_of_pack hcanonical hsign hcaptures (h.trans (congrArg _ hdiv))

end Operations

end Formulary.Number
