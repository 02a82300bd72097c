import Formulary.Proofs.Number.Scaled

/-!
# Doubles as decimals

* `written`, `roundsTo_written` : the number that the shortest digits of a double write, which rounds
  to the double;
* `written_mono` : it is in the order of the doubles;
* `Scaled.fits_ofFloat`, `Scaled.exists_ofFloat?` : it comes to the decimal of the double, which
  there is as long as it fits the limit;
* `Held`, `Held.value_eq`, `Held.short` : a double with at most 28 places is kept as it is written;
* `Scaled.roundsTo_toFloat` : a decimal is read as the double that it rounds to.
-/

namespace Formulary.Number

/-! ## The decimals of doubles -/

section Doubles

variable {x y : Float} {d : Decimal} {s : Scaled}

theorem Decimal.value_nonneg (d : Decimal) : 0 ≤ d.value := by
  unfold value
  positivity

theorem Binary.abs_number (b : Binary) : |b.number| = b.value := by
  rw [number]
  split
  · rw [abs_neg, abs_of_nonneg b.value_nonneg]
  · exact abs_of_nonneg b.value_nonneg

/-- The number that the shortest digits of a double write. -/
def written (x : Float) : ℚ :=
  if x == 0 then 0
  else if (Binary.ofFloat x).negative then -(shortest .upward (Binary.ofFloat x)).value
  else (shortest .upward (Binary.ofFloat x)).value

theorem abs_written (hzero : (x == 0) = false) :
    |written x| = (shortest .upward (Binary.ofFloat x)).value := by
  have hdigits := (shortest .upward (Binary.ofFloat x)).value_nonneg
  rw [written, hzero, if_neg Bool.false_ne_true]
  split
  · rw [abs_neg, abs_of_nonneg hdigits]
  · exact abs_of_nonneg hdigits

/-- **The number that is written for a double rounds to it.** -/
theorem roundsTo_written (finite : x.isFinite = true) : RoundsTo (written x) x := by
  unfold written
  split
  · next hzero =>
    have hsignificand := (beq_zero_iff_parts finite).mp hzero
    have hvalue : (Binary.ofFloat x).value = 0 := by simp [Binary.value, hsignificand]
    have hgap := (Binary.ofFloat x).gapBelow_pos
    have hunit := (Binary.ofFloat x).unit_pos
    refine ⟨finite, canonical_ofFloat x, ⟨?_, ?_, fun _ => by rw [hsignificand]⟩, (zero_mul _).ge⟩
    · rw [hvalue, abs_zero]
      linarith
    · rw [hvalue, abs_zero]
      linarith
  · next hzero =>
    have pos := significand_pos finite (Bool.not_eq_true _ ▸ hzero)
    have captures := Binary.captures_shortest pos .upward
    have hsame := mul_nonneg ((shortest .upward (Binary.ofFloat x)).value_nonneg)
      (Binary.ofFloat x).value_nonneg
    rw [← abs_written (Bool.not_eq_true _ ▸ hzero), written, if_neg hzero] at captures
    refine ⟨finite, canonical_ofFloat x, captures, ?_⟩
    rw [Binary.number]
    split
    · rwa [neg_mul_neg]
    · exact hsame

/-- Doubles that stand for the same number are written alike. -/
theorem written_congr (hx : x.isFinite = true) (hy : y.isFinite = true)
    (h : (Binary.ofFloat x).number = (Binary.ofFloat y).number) : written x = written y := by
  have hvalue : (Binary.ofFloat x).value = (Binary.ofFloat y).value := by
    rw [← Binary.abs_number, h, Binary.abs_number]
  obtain ⟨hsignificand, hexponent⟩ := (canonical_ofFloat x).parts_eq (canonical_ofFloat y) hvalue
  cases hzero : x == 0 with
  | true =>
    have hzero' : (y == 0) = true := by
      rw [beq_zero_iff_parts hy, ← hsignificand]
      exact (beq_zero_iff_parts hx).mp hzero
    rw [written, written, hzero, hzero']
    rfl
  | false =>
    have pos := (Binary.ofFloat x).value_pos_iff.mpr (significand_pos hx hzero).ne'
    have hsign : (Binary.ofFloat x).negative = (Binary.ofFloat y).negative := by
      rw [Binary.number, Binary.number, ← hvalue] at h
      cases hneg : (Binary.ofFloat x).negative <;> cases hneg' : (Binary.ofFloat y).negative
      · rfl
      · simp only [hneg, hneg', Bool.false_eq_true, if_false, if_true] at h
        linarith
      · simp only [hneg, hneg', Bool.false_eq_true, if_false, if_true] at h
        linarith
      · rfl
    have heq : x = y := by
      apply eq_of_ofFloat hx hy
      rw [Binary.mk.injEq]
      exact ⟨hsign, hsignificand, hexponent⟩
    rw [heq]

/-- **What is written is in the order of the doubles.** -/
theorem written_mono (hx : x.isFinite = true) (hy : y.isFinite = true) (h : x ≤ y) :
    written x ≤ written y := by
  by_contra hlt
  rw [not_le] at hlt
  have hle := (le_iff_number hx hy).mp h
  have hge := (roundsTo_written hy).parts.number_le (roundsTo_written hx).parts hlt.le
  exact hlt.ne' (written_congr hx hy (le_antisymm hle hge))

/-- What is written is at most twice as large. -/
theorem abs_written_le (finite : x.isFinite = true) :
    |written x| ≤ 2 * |(Binary.ofFloat x).number| := by
  have hhigh := (roundsTo_written finite).parts.captures.high
  rw [Binary.abs_number]
  cases hzero : x == 0 with
  | true =>
    rw [written, hzero, if_pos rfl, abs_zero]
    have := (Binary.ofFloat x).value_nonneg
    linarith
  | false =>
    have hone : (1 : ℚ) ≤ (Binary.ofFloat x).significand := by
      exact_mod_cast significand_pos finite hzero
    have hunit : (Binary.ofFloat x).unit ≤ (Binary.ofFloat x).value :=
      le_mul_of_one_le_left (Binary.unit_pos _).le hone
    have := (Binary.ofFloat x).unit_pos
    linarith

/-- Rounding half up is within a half. -/
theorem halfUp_near (n : Nat) {m : Nat} (pos : 0 < m) :
    |(((2 * n + m) / (2 * m) : Nat) : ℚ) - n / m| ≤ 1 / 2 := by
  have hpos : (0 : ℚ) < m := by exact_mod_cast pos
  generalize hq : (2 * n + m) / (2 * m) = quotient
  have hlow : (2 * m * quotient : ℚ) ≤ 2 * n + m := by
    rw [← hq]
    exact_mod_cast Nat.mul_div_le (2 * n + m) (2 * m)
  have hhigh : (2 * n + m : ℚ) < 2 * m * (quotient + 1) := by
    rw [← hq]
    exact_mod_cast Nat.lt_mul_div_succ (2 * n + m) (by omega : 0 < 2 * m)
  have hratio : (n / m : ℚ) * m = n := div_mul_cancel₀ _ hpos.ne'
  rw [abs_le]
  constructor
  · refine le_of_mul_le_mul_right ?_ hpos
    linarith
  · refine le_of_mul_le_mul_right ?_ hpos
    linarith

namespace Scaled

/-- The digits that are left of a decimal when it is cut to the places that there are. -/
def cutDigits (d : Decimal) : Nat :=
  if 0 ≤ d.exponent then d.digits * Nat.pow 10 d.exponent.toNat
  else
    (2 * d.digits + Nat.pow 10 ((-d.exponent).toNat - maxPlaces)) /
      (2 * Nat.pow 10 ((-d.exponent).toNat - maxPlaces))

/-- What is left of a decimal, without its sign. -/
def cut (d : Decimal) : Scaled :=
  ⟨cutDigits d, min (-d.exponent).toNat maxPlaces⟩

theorem ofDecimal?_eq (negative : Bool) (d : Decimal) :
    ofDecimal? negative d =
      if cutDigits d ≤ limit then some (if negative then -cut d else cut d) else none := by
  have heq : ofDecimal? negative d =
      if cutDigits d ≤ limit then
        some ⟨if negative then -(cutDigits d : Int) else cutDigits d,
          min (-d.exponent).toNat maxPlaces⟩
      else none := rfl
  rw [heq]
  cases negative <;> rfl

/-- A decimal with a place for each of its digits is kept as it is. -/
theorem cut_of_held (h : -28 ≤ d.exponent) :
    (cut d).value = d.value ∧ (0 ≤ d.exponent ∨ cutDigits d = d.digits) := by
  rw [value, cut, cutDigits, Decimal.value]
  dsimp only
  obtain hpos | hneg := le_or_gt 0 d.exponent
  · rw [if_pos hpos, show min (-d.exponent).toNat maxPlaces = 0 by omega, pow_zero, div_one]
    refine ⟨?_, .inl hpos⟩
    rw [Nat.pow_eq]
    push_cast
    rw [← zpow_natCast, Int.toNat_of_nonneg hpos]
  · have hdropped : (-d.exponent).toNat - maxPlaces = 0 := by
      unfold maxPlaces
      omega
    have hdigits : (2 * d.digits + Nat.pow 10 0) / (2 * Nat.pow 10 0) = d.digits := by
      rw [show Nat.pow 10 0 = 1 from rfl]
      omega
    rw [if_neg (not_le.mpr hneg), hdropped, hdigits,
      min_eq_left (show (-d.exponent).toNat ≤ maxPlaces by omega)]
    refine ⟨?_, .inr rfl⟩
    rw [Int.cast_natCast, div_eq_mul_inv, ← zpow_natCast, ← zpow_neg]
    congr 2
    omega

/-- **A decimal comes to what is left of it.** -/
theorem fits_cut (d : Decimal) : (cut d).Fits d.value := by
  obtain hheld | hfine := le_or_gt (-28) d.exponent
  · obtain ⟨hvalue, -⟩ := cut_of_held hheld
    refine ⟨?_, .inl hvalue⟩
    rw [hvalue, sub_self, abs_zero, zero_mul]
    norm_num
  · have hplaces : min (-d.exponent).toNat maxPlaces = maxPlaces := by
      unfold maxPlaces
      omega
    refine ⟨?_, .inr (.inl hplaces.ge)⟩
    have hscale : d.value * 10 ^ maxPlaces =
        d.digits / (10 ^ ((-d.exponent).toNat - maxPlaces) : Nat) := by
      rw [Decimal.value, div_eq_mul_inv, Nat.cast_pow, Nat.cast_ofNat, ← zpow_natCast,
        ← zpow_natCast, ← zpow_neg, mul_assoc, ← zpow_add₀ (by norm_num)]
      congr 2
      unfold maxPlaces
      omega
    rw [near_eq]
    unfold cut cutDigits
    rw [hplaces, hscale, if_neg (by omega), Int.cast_natCast]
    exact halfUp_near d.digits (Nat.pow_pos (by decide))

theorem places_cut_le (d : Decimal) : (cut d).places ≤ maxPlaces :=
  min_le_right _ _

theorem ofFloat?_eq (finite : x.isFinite = true) :
    ofFloat? x =
      if x == 0 then some ⟨0, 0⟩
      else ofDecimal? (Binary.ofFloat x).negative (shortest .upward (Binary.ofFloat x)) := by
  rw [ofFloat?, finite]
  rfl

/-- The decimal of a double, as long as it fits the limit: zero for zero, and otherwise what is left
of the shortest digits. -/
def ofFloat (x : Float) : Scaled :=
  if x == 0 then ⟨0, 0⟩
  else if (Binary.ofFloat x).negative then -cut (shortest .upward (Binary.ofFloat x))
  else cut (shortest .upward (Binary.ofFloat x))

theorem ofFloat?_eq_some (finite : x.isFinite = true) (h : ofFloat? x = some s) :
    s = ofFloat x := by
  rw [ofFloat?_eq finite] at h
  unfold ofFloat
  split at h
  · next hzero =>
    cases h
    rw [if_pos hzero]
  · next hzero =>
    rw [ofDecimal?_eq] at h
    split at h
    · cases h
      rw [if_neg hzero]
    · cases h

/-- **The number that is written for a double comes to its decimal.** -/
theorem fits_ofFloat (x : Float) : (ofFloat x).Fits (written x) := by
  have hcut := fits_cut (shortest .upward (Binary.ofFloat x))
  unfold written ofFloat
  split
  · have hvalue : (⟨0, 0⟩ : Scaled).value = 0 := by simp [value]
    refine ⟨?_, .inl hvalue⟩
    rw [hvalue]
    norm_num
  · split
    · exact hcut.neg
    · exact hcut

/-- Seventeen digits fit the limit, unless there are zeros behind them. -/
theorem cutDigits_le {d : Decimal} (hdigits : d.digits ≤ 10 ^ 17) (hvalue : d.value ≤ limit) :
    cutDigits d ≤ limit := by
  obtain hpos | hneg := le_or_gt 0 d.exponent
  · rw [Decimal.value_eq hpos] at hvalue
    rw [cutDigits, if_pos hpos]
    exact_mod_cast hvalue
  · rw [cutDigits, if_neg (not_le.mpr hneg)]
    generalize hunit : Nat.pow 10 ((-d.exponent).toNat - maxPlaces) = unit
    have hpos : 0 < unit := hunit ▸ Nat.pow_pos (by decide)
    calc (2 * d.digits + unit) / (2 * unit) ≤ d.digits + 1 := by
          apply Nat.div_le_of_le_mul
          nlinarith
      _ ≤ limit := (Nat.succ_le_succ hdigits).trans (by decide)

/-- There is a decimal of a double as long as the number that is written for it is inside the limit.
-/
theorem exists_ofFloat? (finite : x.isFinite = true) (h : |written x| ≤ limit) :
    ∃ s, ofFloat? x = some s := by
  rw [ofFloat?_eq finite]
  split
  · exact ⟨_, rfl⟩
  · next hzero =>
    rw [Bool.not_eq_true] at hzero
    have hdigits := Binary.digits_shortest_le (canonical_ofFloat x) (significand_pos finite hzero)
      (exponent_le_of_isFinite finite) .upward
    rw [abs_written hzero] at h
    rw [ofDecimal?_eq, if_pos (cutDigits_le hdigits h)]
    exact ⟨_, rfl⟩

end Scaled

/-- Whether the shortest digits of a double have at most 28 places behind the point. -/
def Held (x : Float) : Prop :=
  (x == 0) = true ∨ -28 ≤ (shortest .upward (Binary.ofFloat x)).exponent

instance (x : Float) : Decidable (Held x) :=
  inferInstanceAs (Decidable (_ ∨ _))

/-- **A double with at most 28 places is kept as it is written.** -/
theorem Held.value_eq (held : Held x) : (Scaled.ofFloat x).value = written x := by
  unfold written Scaled.ofFloat
  split
  · rw [Scaled.value, Int.cast_zero, zero_div]
  · next hzero =>
    obtain ⟨hvalue, -⟩ := Scaled.cut_of_held (held.resolve_left hzero)
    split
    · rw [Scaled.value_neg, hvalue]
    · exact hvalue

/-- **The decimal of a double with at most 28 places is short,** and `10 ^ 11` times it are. -/
theorem Held.short (held : Held x) (finite : x.isFinite = true) {count : Nat}
    (hcount : count ≤ 10 ^ 11) : ((Scaled.ofFloat x).times count).Short := by
  unfold Scaled.ofFloat
  split
  · exact ⟨Nat.zero_le _, .inl rfl⟩
  · next hzero =>
    have hdigits := Binary.digits_shortest_le (canonical_ofFloat x)
      (significand_pos finite (Bool.not_eq_true _ ▸ hzero)) (exponent_le_of_isFinite finite) .upward
    have hexponent := held.resolve_left hzero
    generalize shortest .upward (Binary.ofFloat x) = d at *
    have hshort : ((Scaled.cut d).times count).Short := by
      refine ⟨Scaled.places_cut_le d, ?_⟩
      refine (Scaled.cut_of_held hexponent).2.imp (fun hpos => ?_) fun hcut => ?_
      · show min (-d.exponent).toNat Scaled.maxPlaces = 0
        omega
      · show |((count : Int) * (Scaled.cutDigits d : Int))| ≤ 10 ^ 28
        rw [hcut, ← Nat.cast_mul, Nat.abs_cast]
        exact_mod_cast (Nat.mul_le_mul hcount hdigits).trans (by norm_num)
    split
    · rw [Scaled.times_neg]
      exact hshort.neg
    · exact hshort

/-- **A decimal is read as the double that it rounds to.** -/
theorem Scaled.roundsTo_toFloat (small : |s.value| < overflow) : RoundsTo s.value s.toFloat := by
  have hmagnitude : (s.coefficient.natAbs : ℚ) * 10 ^ (-(s.places : Int)) = |s.value| := by
    rw [value, abs_div, abs_of_pos (show (0 : ℚ) < 10 ^ s.places by positivity), Nat.cast_natAbs,
      Int.cast_abs, zpow_neg, zpow_natCast, div_eq_mul_inv]
  have hrounds := rounds_ofDecimal s.coefficient.natAbs (-(s.places : Int))
  rw [hmagnitude] at hrounds
  have hsign : (if decide (s.coefficient < 0) then -|s.value| else |s.value|) = s.value := by
    have hpow : (0 : ℚ) < 10 ^ s.places := by positivity
    by_cases hneg : s.coefficient < 0
    · have hvalue : s.value < 0 := div_neg_of_neg_of_pos (by exact_mod_cast hneg) hpow
      rw [if_pos (decide_eq_true hneg), abs_of_neg hvalue, neg_neg]
    · have hvalue : 0 ≤ s.value := div_nonneg (by exact_mod_cast not_lt.mp hneg) hpow.le
      rw [if_neg (by simpa using hneg), abs_of_nonneg hvalue]
  exact hsign ▸ roundsTo_signed hrounds (abs_nonneg _) small (decide (s.coefficient < 0))

end Doubles

end Formulary.Number
