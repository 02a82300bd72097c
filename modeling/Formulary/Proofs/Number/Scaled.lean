import Formulary.Number.Mean
import Formulary.Proofs.Number.Monotone
import Formulary.Proofs.Number.Seventeen

/-!
# Decimal arithmetic

* `divideToEven_near`, `divideToEven_tie` : a rounded quotient is within a half, and is even where it
  is as far as that;
* `Scaled.Fits` : what a number comes to, a decimal as near as its places allow and with as many
  places as fit;
* `Scaled.Short`, `Scaled.Fits.le_of_le` : what a number comes to does not pass over a short decimal;
* `Scaled.fits_add?`, `Scaled.exists_add?`, `Scaled.fits_divide` : sums and quotients are what the
  exact ones come to.
-/

namespace Formulary.Number

/-! ## Rounded quotients -/

/-- A quotient is its whole part and the remainder over the divisor. -/
theorem quotient_eq (num : Nat) {den : Nat} (pos : 0 < den) :
    (num : ℚ) / den = (num / den : Nat) + (num % den : Nat) / den := by
  have hpos : (den : ℚ) ≠ 0 := by exact_mod_cast pos.ne'
  have hmod : (num : ℚ) = den * (num / den : Nat) + (num % den : Nat) := by
    exact_mod_cast (Nat.div_add_mod num den).symm
  rw [div_eq_iff hpos, add_mul, div_mul_cancel₀ _ hpos, hmod]
  ring

/-- **A rounded quotient is within a half.** -/
theorem divideToEven_near (num : Nat) {den : Nat} (pos : 0 < den) :
    |(divideToEven num den : ℚ) - num / den| ≤ 1 / 2 := by
  have hpos : (0 : ℚ) < den := by exact_mod_cast pos
  have hlt : ((num % den : Nat) : ℚ) < den := by exact_mod_cast Nat.mod_lt num pos
  have hnonneg : (0 : ℚ) ≤ (num % den : Nat) := Nat.cast_nonneg _
  have hquotient := quotient_eq num pos
  have hdown (hle : 2 * ((num % den : Nat) : ℚ) ≤ den) :
      |((num / den : Nat) : ℚ) - num / den| ≤ 1 / 2 := by
    rw [hquotient, sub_add_cancel_left, abs_neg, abs_of_nonneg (by positivity), div_le_iff₀ hpos]
    linarith
  have hup (hle : (den : ℚ) ≤ 2 * (num % den : Nat)) :
      |((num / den + 1 : Nat) : ℚ) - num / den| ≤ 1 / 2 := by
    have hone : ((num % den : Nat) : ℚ) / den ≤ 1 := (div_le_one hpos).mpr hlt.le
    have hhalf : (1 / 2 : ℚ) ≤ (num % den : Nat) / den := by
      rw [le_div_iff₀ hpos]
      linarith
    rw [hquotient, abs_le]
    push_cast
    constructor <;> linarith
  unfold divideToEven
  cases hcompare : compare (2 * (num % den)) den with
  | lt => exact hdown (by exact_mod_cast (Nat.compare_eq_lt.mp hcompare).le)
  | gt => exact hup (by exact_mod_cast (Nat.compare_eq_gt.mp hcompare).le)
  | eq =>
    have heq := Nat.compare_eq_eq.mp hcompare
    dsimp only
    split
    · exact hdown (by exact_mod_cast heq.le)
    · exact hup (by exact_mod_cast heq.ge)

/-- **Of two quotients that are as near the even one is taken.** -/
theorem divideToEven_tie (num : Nat) {den : Nat} (pos : 0 < den)
    (h : |(divideToEven num den : ℚ) - num / den| = 1 / 2) : divideToEven num den % 2 = 0 := by
  have hpos : (0 : ℚ) < den := by exact_mod_cast pos
  have hnonneg : (0 : ℚ) ≤ (num % den : Nat) / den := by positivity
  rw [quotient_eq num pos] at h
  unfold divideToEven at h ⊢
  cases hcompare : compare (2 * (num % den)) den with
  | lt =>
    -- The quotient lies less than a half above its whole part.
    have hlt : (2 * (num % den : Nat) : ℚ) < den := by
      exact_mod_cast Nat.compare_eq_lt.mp hcompare
    rw [hcompare, sub_add_cancel_left, abs_neg, abs_of_nonneg hnonneg, div_eq_iff hpos.ne'] at h
    linarith
  | gt =>
    have hgt : (den : ℚ) < 2 * (num % den : Nat) := by
      exact_mod_cast Nat.compare_eq_gt.mp hcompare
    have hone : ((num % den : Nat) : ℚ) / den ≤ 1 :=
      (div_le_one hpos).mpr (by exact_mod_cast (Nat.mod_lt num pos).le)
    rw [hcompare] at h
    push_cast at h
    rw [add_sub_add_left_eq_sub, abs_of_nonneg (by linarith), sub_eq_iff_eq_add',
      ← sub_eq_iff_eq_add, eq_div_iff hpos.ne'] at h
    linarith
  | eq =>
    dsimp only
    split
    · assumption
    · omega

/-- A rounded quotient beyond a natural number shows that the exact one is. -/
theorem lt_of_lt_divideToEven {num den limit : Nat} (pos : 0 < den)
    (h : limit < divideToEven num den) : (limit : ℚ) < num / den := by
  have hnear := (abs_le.mp (divideToEven_near num pos)).2
  have hsucc : (limit + 1 : ℚ) ≤ divideToEven num den := by exact_mod_cast h
  linarith

/-! ## What a number comes to -/

namespace Scaled

variable {a b r k : Scaled} {q : ℚ}

/-- The number that a decimal stands for. -/
def value (a : Scaled) : ℚ :=
  a.coefficient / 10 ^ a.places

instance : Neg Scaled :=
  ⟨fun a => ⟨-a.coefficient, a.places⟩⟩

theorem value_neg (a : Scaled) : (-a).value = -a.value := by
  show ((-a.coefficient : Int) : ℚ) / 10 ^ a.places = _
  rw [value, Int.cast_neg, neg_div]

theorem value_mul_pow (a : Scaled) : a.value * 10 ^ a.places = a.coefficient :=
  div_mul_cancel₀ _ (by positivity)

/-- A decimal as many times as given. -/
def times (count : Nat) (a : Scaled) : Scaled :=
  ⟨count * a.coefficient, a.places⟩

theorem value_times (count : Nat) (a : Scaled) : (a.times count).value = count * a.value := by
  rw [times, value, value]
  push_cast
  rw [mul_div_assoc]

theorem times_neg (count : Nat) (a : Scaled) : (-a).times count = -(a.times count) := by
  show (⟨count * -a.coefficient, a.places⟩ : Scaled) = ⟨-(count * a.coefficient), a.places⟩
  rw [mul_neg]

/-- Whether a decimal is what a number comes to: it is as near as its places allow, and it is the
number itself, or has all places that there are, or would not have room for one place more. -/
structure Fits (r : Scaled) (q : ℚ) : Prop where
  near : |r.value - q| * 10 ^ r.places ≤ 1 / 2
  full : r.value = q ∨ maxPlaces ≤ r.places ∨ limit < |q| * 10 ^ (r.places + 1)

theorem Fits.neg (fits : r.Fits q) : (-r).Fits (-q) := by
  constructor
  · rw [value_neg, neg_sub_neg, abs_sub_comm]
    exact fits.near
  · rw [value_neg, neg_inj, abs_neg]
    exact fits.full

/-- Whether a decimal is short: its places are on every grid, or its digits are far from the limit.
-/
structure Short (k : Scaled) : Prop where
  places_le : k.places ≤ maxPlaces
  digits_le : k.places = 0 ∨ |k.coefficient| ≤ 10 ^ 28

theorem Short.neg (short : k.Short) : (-k).Short :=
  ⟨short.places_le, short.digits_le.imp_right fun h => (abs_neg k.coefficient).le.trans h⟩

theorem pow_places_pos (a : Scaled) : (0 : ℚ) < 10 ^ a.places := by
  positivity

theorem seven_mul_le_limit : (7 * 10 ^ 28 : ℚ) ≤ limit := by
  norm_num [limit]

theorem Fits.le_add_half (fits : r.Fits q) :
    r.value * 10 ^ r.places ≤ q * 10 ^ r.places + 1 / 2 := by
  have hnear := (mul_le_mul_of_nonneg_right (le_abs_self _) r.pow_places_pos.le).trans fits.near
  linarith

/-- A decimal with no more places than another is on the grid of that. -/
theorem exists_units (h : k.places ≤ r.places) : ∃ units : Int, k.value * 10 ^ r.places = units := by
  refine ⟨k.coefficient * 10 ^ (r.places - k.places), ?_⟩
  rw [← Nat.sub_add_cancel h, pow_add, Nat.add_sub_cancel]
  push_cast
  rw [mul_comm (10 ^ (r.places - k.places)), ← mul_assoc, value_mul_pow]

/-- What a number below a decimal comes to is not above it where the decimal is on the grid. -/
theorem Fits.le_of_grid (fits : r.Fits q) (grid : k.places ≤ r.places) (h : q ≤ k.value) :
    r.value ≤ k.value := by
  by_contra hlt
  obtain ⟨units, hunits⟩ := exists_units grid
  have hstep : units + 1 ≤ r.coefficient := by
    have hlt := mul_lt_mul_of_pos_right (not_le.mp hlt) r.pow_places_pos
    rw [hunits, value_mul_pow] at hlt
    exact_mod_cast hlt
  have hstep' : (units + 1 : ℚ) ≤ r.coefficient := by exact_mod_cast hstep
  have hq := mul_le_mul_of_nonneg_right h r.pow_places_pos.le
  have hnear := fits.le_add_half
  rw [value_mul_pow] at hnear
  linarith

/-- What a number below a far smaller decimal comes to is not above it: the number is on the other
side of zero. -/
theorem Fits.le_of_far (fits : r.Fits q) (hk : |k.value| * 10 ^ (r.places + 1) ≤ 10 ^ 28)
    (far : limit < |q| * 10 ^ (r.places + 1)) (h : q ≤ k.value) : r.value ≤ k.value := by
  have hpow := r.pow_places_pos
  have hlimit := seven_mul_le_limit
  rw [pow_succ] at hk far
  have hneg : q < 0 := by
    by_contra hnonneg
    rw [abs_of_nonneg (not_lt.mp hnonneg)] at far
    have := mul_le_mul_of_nonneg_right (h.trans (le_abs_self _)) hpow.le
    linarith
  rw [abs_of_neg hneg] at far
  have habs := mul_le_mul_of_nonneg_right (neg_abs_le k.value) hpow.le
  have hnear := fits.le_add_half
  refine le_of_mul_le_mul_right ?_ hpow
  linarith

/-- **What a number comes to does not pass over a short decimal.** -/
theorem Fits.le_of_le (fits : r.Fits q) (short : k.Short) (h : q ≤ k.value) :
    r.value ≤ k.value := by
  obtain hgrid | hfine := le_or_gt k.places r.places
  · exact fits.le_of_grid hgrid h
  · have hplaces := short.places_le
    have hdigits : |k.coefficient| ≤ 10 ^ 28 := short.digits_le.resolve_left (by omega)
    rcases fits.full with hexact | hmost | hroom
    · exact hexact.trans_le h
    · omega
    · refine fits.le_of_far ?_ hroom h
      calc |k.value| * 10 ^ (r.places + 1) ≤ |k.value| * 10 ^ k.places :=
            mul_le_mul_of_nonneg_left (pow_le_pow_right₀ (by norm_num) hfine) (abs_nonneg _)
        _ = |(k.coefficient : ℚ)| := by
            rw [← value_mul_pow, abs_mul, abs_of_pos k.pow_places_pos]
        _ ≤ 10 ^ 28 := by exact_mod_cast hdigits

theorem Fits.ge_of_ge (fits : r.Fits q) (short : k.Short) (h : k.value ≤ q) :
    k.value ≤ r.value := by
  have hneg := fits.neg.le_of_le short.neg (by rw [value_neg]; exact neg_le_neg h)
  rw [value_neg, value_neg] at hneg
  exact neg_le_neg_iff.mp hneg

/-! ## Rounding to the places that fit -/

/-- Digits are refused when they are beyond the limit. -/
theorem lt_of_refused {digits : Nat} (h : (if digits ≤ limit then some a else none) = none) :
    limit < digits := by
  simpa using h

theorem lt_abs_of_refused {c : Int} {cut : Nat}
    (h : limit < divideToEven c.natAbs (Nat.pow 10 cut)) : limit < |(c : ℚ) / 10 ^ cut| := by
  have hlt := lt_of_lt_divideToEven (Nat.pow_pos (by decide)) h
  rw [Nat.cast_natAbs, Int.cast_abs, Nat.cast_pow, Nat.cast_ofNat] at hlt
  rwa [abs_div, abs_of_pos (show (0 : ℚ) < 10 ^ cut by positivity)]

theorem divideToEven_one (n : Nat) : divideToEven n 1 = n := by
  unfold divideToEven
  rw [Nat.mod_one]
  exact Nat.div_one n

theorem withSignOf_natAbs (c : Int) : withSignOf c c.natAbs = c := by
  unfold withSignOf
  split <;> omega

theorem abs_withSignOf_sub (c : Int) (n : Nat) (x : ℚ) :
    |(withSignOf c n : ℚ) - c * x| = |(n : ℚ) - c.natAbs * x| := by
  rw [withSignOf]
  split
  · next hneg =>
    have habs : (c : ℚ) = -(c.natAbs : ℚ) := by
      rw [← Int.cast_natCast, Int.ofNat_natAbs_of_nonpos hneg.le, Int.cast_neg, neg_neg]
    rw [habs, neg_mul, Int.cast_neg, Int.cast_natCast, neg_sub_neg, abs_sub_comm]
  · next hnonneg =>
    have habs : (c : ℚ) = c.natAbs := by
      rw [← Int.cast_natCast, Int.natAbs_of_nonneg (not_lt.mp hnonneg)]
    rw [Int.cast_natCast, habs]

/-- How near a decimal is, counted in its last place. -/
theorem near_eq (r : Scaled) (q : ℚ) :
    |r.value - q| * 10 ^ r.places = |r.coefficient - q * 10 ^ r.places| := by
  have hpow : (0 : ℚ) < 10 ^ r.places := by positivity
  rw [← value_mul_pow, ← sub_mul, abs_mul, abs_of_pos hpow]

/-- **Cutting places off comes to the number.** -/
theorem fits_fit? {c : Int} {places : Nat} (h : fit? c places = some r) :
    r.Fits (c / 10 ^ places) := by
  obtain ⟨dropped, hdropped, hfound, hbefore⟩ := findSome?_range h
  dsimp only at hfound hbefore
  split at hfound
  case isFalse => cases hfound
  cases hfound
  have hscale (cut : Nat) (hcut : cut ≤ places) :
      (c / 10 ^ places * 10 ^ (places - cut) : ℚ) = c * (1 / 10 ^ cut) := by
    rw [← Nat.sub_add_cancel hcut, pow_add, Nat.add_sub_cancel]
    field_simp
  constructor
  · rw [near_eq]
    dsimp only
    rw [hscale dropped (by omega), abs_withSignOf_sub, mul_one_div]
    exact_mod_cast divideToEven_near c.natAbs (Nat.pow_pos (by decide) : 0 < 10 ^ dropped)
  · cases dropped with
    | zero =>
      refine .inl ?_
      rw [value]
      dsimp only
      rw [show Nat.pow 10 0 = 1 from rfl, divideToEven_one, withSignOf_natAbs, Nat.sub_zero]
    | succ cut =>
      refine .inr (.inr ?_)
      have hpow : (0 : ℚ) < 10 ^ (places - cut) := by positivity
      dsimp only
      rw [show places - (cut + 1) + 1 = places - cut by omega, ← abs_of_pos hpow, ← abs_mul,
        hscale cut (by omega), mul_one_div]
      exact lt_abs_of_refused (lt_of_refused (hbefore cut (Nat.lt_succ_self cut)))

/-- A decimal inside the limit loses places rather than failing. -/
theorem exists_fit? {c : Int} {places : Nat} (h : |(c : ℚ) / 10 ^ places| ≤ limit) :
    ∃ r, fit? c places = some r := by
  rw [← Option.ne_none_iff_exists']
  intro hnone
  have hrefused := List.findSome?_eq_none_iff.mp hnone places (List.mem_range.mpr (by omega))
  exact absurd h (not_le.mpr (lt_abs_of_refused (lt_of_refused hrefused)))

theorem scaledTo_div {places : Nat} (h : a.places ≤ places) :
    (a.scaledTo places : ℚ) / 10 ^ places = a.value := by
  rw [scaledTo, value, div_eq_div_iff (by positivity) (by positivity), Nat.pow_eq]
  push_cast
  rw [mul_assoc, ← pow_add, Nat.sub_add_cancel h]

/-- **The sum of decimals is what the exact sum comes to.** -/
theorem fits_add? (h : a.add? b = some r) : r.Fits (a.value + b.value) := by
  have hfits := fits_fit? h
  rw [Int.cast_add, add_div, scaledTo_div (le_max_left _ _), scaledTo_div (le_max_right _ _)] at hfits
  exact hfits

/-- There is a sum as long as the exact sum is inside the limit. -/
theorem exists_add? (h : |a.value + b.value| ≤ limit) : ∃ r, a.add? b = some r := by
  apply exists_fit?
  rwa [Int.cast_add, add_div, scaledTo_div (le_max_left _ _), scaledTo_div (le_max_right _ _)]

/-- The digits of a quotient without its sign. -/
def quotientDigits (a : Scaled) (count places : Nat) : Nat :=
  divideToEven (a.coefficient.natAbs * Nat.pow 10 places) (count * Nat.pow 10 a.places)

/-- A quotient has all places that there are, or would not have room for one place more. -/
theorem exists_divide_eq (a : Scaled) (count : Nat) :
    ∃ places, a.divide count =
        ⟨withSignOf a.coefficient (a.quotientDigits count places), places⟩ ∧
      (maxPlaces ≤ places ∨ limit < a.quotientDigits count (places + 1)) := by
  have hdivide : a.divide count =
      let magnitude := ((List.range (maxPlaces + 1)).findSome? fun (dropped : Nat) =>
        if a.quotientDigits count (maxPlaces - dropped) ≤ limit then
          some (Scaled.mk (a.quotientDigits count (maxPlaces - dropped)) (maxPlaces - dropped))
        else none).getD ⟨a.quotientDigits count 0, 0⟩
      ⟨withSignOf a.coefficient magnitude.coefficient.natAbs, magnitude.places⟩ := rfl
  rw [hdivide]
  cases hfound : (List.range (maxPlaces + 1)).findSome? fun (dropped : Nat) =>
      if a.quotientDigits count (maxPlaces - dropped) ≤ limit then
        some (Scaled.mk (a.quotientDigits count (maxPlaces - dropped)) (maxPlaces - dropped))
      else none with
  | none =>
    refine ⟨0, rfl, .inr ?_⟩
    rw [List.findSome?_eq_none_iff] at hfound
    exact lt_of_refused (hfound 27 (by decide))
  | some magnitude =>
    obtain ⟨dropped, hdropped, hsome, hbefore⟩ := findSome?_range hfound
    split at hsome
    case isFalse => cases hsome
    cases hsome
    refine ⟨maxPlaces - dropped, rfl, ?_⟩
    cases dropped with
    | zero => exact .inl (le_refl _)
    | succ cut =>
      refine .inr ?_
      rw [show maxPlaces - (cut + 1) + 1 = maxPlaces - cut by omega]
      exact lt_of_refused (hbefore cut (Nat.lt_succ_self cut))

/-- **A quotient is what the exact quotient comes to.** -/
theorem fits_divide (a : Scaled) {count : Nat} (pos : 0 < count) :
    (a.divide count).Fits (a.value / count) := by
  obtain ⟨places, hdivide, hfull⟩ := exists_divide_eq a count
  have hden : 0 < count * Nat.pow 10 a.places := Nat.mul_pos pos (Nat.pow_pos (by decide))
  have hscale (places : Nat) : a.value / count * 10 ^ places =
      a.coefficient * (10 ^ places / (count * 10 ^ a.places)) := by
    rw [value]
    field_simp
  have hdigits (places : Nat) : (a.coefficient.natAbs * Nat.pow 10 places : Nat) /
      ((count * Nat.pow 10 a.places : Nat) : ℚ) =
        a.coefficient.natAbs * (10 ^ places / (count * 10 ^ a.places)) := by
    rw [Nat.pow_eq, Nat.pow_eq]
    push_cast
    ring
  rw [hdivide]
  constructor
  · rw [near_eq]
    dsimp only
    rw [hscale, abs_withSignOf_sub, ← hdigits]
    exact divideToEven_near _ hden
  · refine .inr (hfull.imp_right fun hroom => ?_)
    have hlt := lt_of_lt_divideToEven hden hroom
    have hpow : (0 : ℚ) < 10 ^ (places + 1) := by positivity
    have hcount : (0 : ℚ) < count := by exact_mod_cast pos
    have hratio : (0 : ℚ) < 10 ^ (places + 1) / (count * 10 ^ a.places) := by positivity
    dsimp only
    rw [hdigits, Nat.cast_natAbs, Int.cast_abs] at hlt
    rwa [← abs_of_pos hpow, ← abs_mul, hscale, abs_mul, abs_of_pos hratio]

end Scaled

end Formulary.Number
