import Formulary.Proofs.Number.Printing

/-!
# Seventeen digits are enough

* `ten_zpow_le_two_zpow`, `two_zpow_le_ten_zpow` : powers of ten beside powers of two;
* `Binary.magnitude_spec` : the power of ten above a magnitude is found from its logarithm;
* `Binary.isSome_neighbour_seventeen` : of the decimals with seventeen digits the nearer neighbour
  of a magnitude reads back;
* `Binary.digits_shortest_le` : the shortest digits are at most seventeen.
-/

namespace Formulary.Number

/-! ## Powers of ten beside powers of two -/

section Powers

variable {x y : ℚ} {m n : Nat} {a b : Int}

/-- One comparison of powers gives the others, as long as the exponents are in that relation. -/
theorem zpow_le_zpow_of_pow_le (hx : 1 ≤ x) (hy : 0 < y) (hn : n ≠ 0) (hpow : x ^ m ≤ y ^ n)
    (hb : 0 ≤ b) (h : n * a ≤ m * b) : x ^ a ≤ y ^ b := by
  have hpos : 0 < x := zero_lt_one.trans_le hx
  refine (pow_le_pow_iff_left₀ (zpow_pos hpos a).le (zpow_pos hy b).le hn).mp ?_
  calc (x ^ a) ^ n = x ^ (n * a) := by rw [← zpow_natCast, ← zpow_mul, mul_comm]
    _ ≤ x ^ (m * b) := zpow_le_zpow_right₀ hx h
    _ = (x ^ m) ^ b := by rw [zpow_mul, zpow_natCast]
    _ ≤ (y ^ n) ^ b := zpow_le_zpow_left₀ hb (pow_pos hpos m).le hpow
    _ = (y ^ b) ^ n := by rw [← zpow_natCast, ← zpow_natCast, ← zpow_mul, ← zpow_mul, mul_comm]

theorem zpow_le_zpow_of_neg (hx : 0 < x) (hy : 0 < y) (h : y ^ (-b) ≤ x ^ (-a)) :
    x ^ a ≤ y ^ b := by
  rwa [zpow_neg, zpow_neg, inv_le_inv₀ (zpow_pos hy b) (zpow_pos hx a)] at h

/-- `10 ^ 59` is a little below `2 ^ 196`, and `2 ^ 93` a little below `10 ^ 28`. -/
theorem ten_zpow_le_two_zpow (hpos : 196 * a ≤ 59 * b) (hneg : 93 * a ≤ 28 * b) :
    (10 : ℚ) ^ a ≤ 2 ^ b := by
  obtain hb | hb := le_or_gt 0 b
  · exact zpow_le_zpow_of_pow_le (m := 59) (n := 196) (by norm_num) (by norm_num) (by norm_num)
      (by norm_num) hb hpos
  · apply zpow_le_zpow_of_neg (by norm_num) (by norm_num)
    exact zpow_le_zpow_of_pow_le (m := 93) (n := 28) (by norm_num) (by norm_num) (by norm_num)
      (by norm_num) (by omega) (by push_cast; omega)

theorem two_zpow_le_ten_zpow (hpos : 28 * b ≤ 93 * a) (hneg : 59 * b ≤ 196 * a) :
    (2 : ℚ) ^ b ≤ 10 ^ a := by
  obtain ha | ha := le_or_gt 0 a
  · exact zpow_le_zpow_of_pow_le (m := 93) (n := 28) (by norm_num) (by norm_num) (by norm_num)
      (by norm_num) ha hpos
  · apply zpow_le_zpow_of_neg (by norm_num) (by norm_num)
    exact zpow_le_zpow_of_pow_le (m := 59) (n := 196) (by norm_num) (by norm_num) (by norm_num)
      (by norm_num) (by omega) (by push_cast; omega)

end Powers

/-! ## The power of ten above a magnitude -/

namespace Binary

variable {b : Binary} {d : Decimal} {k : Int} {tie : Tie}

/-- A magnitude lies between the powers of two around its logarithm. -/
theorem two_zpow_le_value (pos : 0 < b.significand) :
    (2 : ℚ) ^ ((b.significand.log2 : Int) + b.exponent) ≤ b.value ∧
      b.value < 2 ^ ((b.significand.log2 : Int) + b.exponent + 1) := by
  have hunit : (0 : ℚ) < 2 ^ b.exponent := by positivity
  have hlow : (2 ^ b.significand.log2 : ℚ) ≤ b.significand := by
    exact_mod_cast Nat.log2_self_le pos.ne'
  have hhigh : (b.significand : ℚ) < 2 ^ (b.significand.log2 + 1) := by
    exact_mod_cast Nat.lt_log2_self
  rw [value, zpow_add₀ (by norm_num), add_right_comm, zpow_add₀ (by norm_num), zpow_natCast]
  constructor
  · exact mul_le_mul_of_nonneg_right hlow hunit.le
  · exact mul_lt_mul_of_pos_right (by exact_mod_cast hhigh) hunit

/-- **The power of ten above a magnitude is found from its logarithm.** -/
theorem magnitude_spec (canonical : b.Canonical) (pos : 0 < b.significand)
    (hle : b.exponent ≤ 971) :
    (10 : ℚ) ^ (b.magnitude - 1) ≤ b.value ∧ b.value < 10 ^ b.magnitude := by
  have hbelow (k : Int) : (compareScaled 1 k b.significand b.exponent == .gt) = true ↔
      b.value < 10 ^ k := by
    rw [beq_iff_eq, (compareScaled_spec 1 b.significand k b.exponent).2.2, Nat.cast_one, one_mul]
    rfl
  obtain ⟨hlow, hhigh⟩ := two_zpow_le_value pos
  have hlog : b.significand.log2 < 53 := (Nat.log2_lt pos.ne').mpr canonical.significand_lt
  have hleast := canonical.exponent_ge
  unfold magnitude
  dsimp only
  generalize hL : (b.significand.log2 : Int) + b.exponent = L at *
  generalize hq : (L * 30103).fdiv 100000 = q
  have hfloor : 100000 * q ≤ L * 30103 ∧ L * 30103 < 100000 * q + 100000 := by
    rw [Int.fdiv_eq_ediv_of_nonneg _ (by norm_num)] at hq
    omega
  split
  · next h =>
    refine ⟨le_trans ?_ hlow, (hbelow q).mp h⟩
    exact ten_zpow_le_two_zpow (by omega) (by omega)
  · next h =>
    rw [hbelow, not_lt] at h
    split
    · next h' => exact ⟨by rwa [add_sub_cancel_right], (hbelow _).mp h'⟩
    · next h' =>
      rw [hbelow, not_lt] at h'
      refine ⟨by rwa [show q + 2 - 1 = q + 1 by ring], hhigh.trans_le ?_⟩
      exact two_zpow_le_ten_zpow (by omega) (by omega)

/-! ## Neighbours with seventeen digits -/

/-- A magnitude lies between the decimals below it and above it. -/
theorem digitsBelow_spec (b : Binary) (k : Int) :
    b.digitsBelow k * (10 : ℚ) ^ k ≤ b.value ∧ b.value < (b.digitsBelow k + 1) * (10 : ℚ) ^ k := by
  have htwo := zpow_mul_pow_toNat (show (2 : ℚ) ≠ 0 by norm_num) b.exponent
  have hten := zpow_mul_pow_toNat (show (10 : ℚ) ≠ 0 by norm_num) (-k)
  rw [neg_neg] at hten
  rw [digitsBelow]
  simp only [Nat.pow_eq]
  generalize hnum : b.significand * 2 ^ b.exponent.toNat * 10 ^ (-k).toNat = num
  generalize hden : 2 ^ (-b.exponent).toNat * 10 ^ k.toNat = den
  have hpos : 0 < den := hden ▸ Nat.mul_pos (Nat.pow_pos (by decide)) (Nat.pow_pos (by decide))
  have hpos' : (0 : ℚ) < den := by exact_mod_cast hpos
  have hvalue : b.value * den = num * 10 ^ k := by
    have hk : (10 : ℚ) ^ k ≠ 0 := (zpow_pos (by norm_num) k).ne'
    rw [← hnum, ← hden, value]
    push_cast
    rw [← htwo, ← hten, zpow_neg]
    field_simp
  have hk : (0 : ℚ) < 10 ^ k := zpow_pos (by norm_num) k
  have hlow : ((num / den : Nat) : ℚ) * den ≤ num := by exact_mod_cast Nat.div_mul_le_self num den
  have hhigh : (num : ℚ) < den * ((num / den : Nat) + 1) := by
    exact_mod_cast Nat.lt_mul_div_succ num hpos
  constructor
  · refine le_of_mul_le_mul_right ?_ hpos'
    rw [hvalue, mul_right_comm]
    exact mul_le_mul_of_nonneg_right hlow hk.le
  · refine lt_of_mul_lt_mul_right ?_ hpos'.le
    rw [hvalue, mul_right_comm, mul_comm _ (den : ℚ)]
    exact mul_lt_mul_of_pos_right hhigh hk

/-- The grid of seventeen digits is finer than the magnitudes around. -/
theorem grid_lt_gaps (canonical : b.Canonical) {grid : ℚ} (hgrid : 0 < grid)
    (hfine : 10 ^ 16 * grid ≤ b.value) : grid < b.gapBelow ∧ grid < b.unit := by
  have hpos := b.unit_pos
  have hlt : (b.significand : ℚ) < 2 ^ 53 := by exact_mod_cast canonical.significand_lt
  have hvalue : b.value < 2 ^ 53 * b.unit := mul_lt_mul_of_pos_right hlt hpos
  have hunit : grid < b.unit := by linarith
  refine ⟨?_, hunit⟩
  unfold gapBelow
  split
  · next hnarrow =>
    have heq : b.value = 2 ^ 52 * b.unit := by
      rw [value_eq, (narrowBelow_iff.mp hnarrow).1]
      norm_num
    linarith
  · exact hunit

/-- **Of the decimals with seventeen digits the nearer neighbour reads back.** -/
theorem isSome_neighbour_seventeen (canonical : b.Canonical) (pos : 0 < b.significand)
    (hle : b.exponent ≤ 971) : (neighbour? tie b (b.magnitude - 17)).isSome = true := by
  obtain ⟨hlow, hhigh⟩ := b.digitsBelow_spec (b.magnitude - 17)
  obtain ⟨hends, hends'⟩ := quarters_eq pos
  have hgrid : (0 : ℚ) < 10 ^ (b.magnitude - 17) := zpow_pos (by norm_num) _
  have hfine : (10 : ℚ) ^ 16 * 10 ^ (b.magnitude - 17) ≤ b.value := by
    refine le_of_eq_of_le ?_ (magnitude_spec canonical pos hle).1
    rw [← zpow_natCast, ← zpow_add₀ (by norm_num)]
    congr 1
    push_cast
    ring
  obtain ⟨hgap, hunit⟩ := grid_lt_gaps canonical hgrid hfine
  have hreads (n : Nat) (hbelow : b.value - b.gapBelow / 2 < n * 10 ^ (b.magnitude - 17))
      (habove : n * 10 ^ (b.magnitude - 17) < b.value + b.unit / 2) :
      b.readsBack ⟨n, b.magnitude - 17⟩ = true :=
    readsBack_of_between (hends ▸ hbelow) (hends' ▸ habove)
  generalize (10 : ℚ) ^ (b.magnitude - 17) = grid at *
  apply isSome_neighbour
  obtain hnear | hfar := le_total (b.value - b.digitsBelow (b.magnitude - 17) * grid) (grid / 2)
  · exact .inl (hreads _ (by linarith) (by linarith))
  · refine .inr (hreads _ ?_ ?_)
    · push_cast
      linarith
    · push_cast
      linarith

/-- A neighbour on a grid is the decimal below or the one above. -/
theorem digits_neighbour_le (h : neighbour? tie b k = some d) :
    d.digits ≤ b.digitsBelow k + 1 := by
  unfold neighbour? at h
  dsimp only at h
  unfold digitsBelow
  split at h
  · cases h
  · cases h
    exact Nat.le_succ _
  · cases h
    exact Nat.le_refl _
  · split at h
    · cases h
      exact Nat.le_succ _
    · cases h
      exact Nat.le_refl _
    · cases h
      exact Nat.le_refl _
    · split at h
      · cases h
        exact Nat.le_succ _
      · cases h
        exact Nat.le_refl _

theorem digits_stripZeros_le (fuel : Nat) (d : Decimal) :
    (stripZeros fuel d).digits ≤ d.digits := by
  induction fuel generalizing d with
  | zero => exact Nat.le_refl _
  | succ fuel ih =>
    unfold stripZeros
    split
    · exact (ih _).trans (Nat.div_le_self _ _)
    · exact Nat.le_refl _

/-- **The shortest digits are at most seventeen.** -/
theorem digits_shortest_le (canonical : b.Canonical) (pos : 0 < b.significand)
    (hle : b.exponent ≤ 971) (tie : Tie) : (shortest tie b).digits ≤ 10 ^ 17 := by
  unfold shortest
  dsimp only
  refine (digits_stripZeros_le _ _).trans ?_
  cases hfound : (List.range 17).findSome? fun (n : Nat) =>
      neighbour? tie b (b.magnitude - (n + 1 : Nat)) with
  | none =>
    rw [List.findSome?_eq_none_iff] at hfound
    have hnone : neighbour? tie b (b.magnitude - 17) = none := hfound 16 (by decide)
    have hsome : (neighbour? tie b (b.magnitude - 17)).isSome = true :=
      isSome_neighbour_seventeen canonical pos hle
    rw [hnone] at hsome
    cases hsome
  | some d =>
    obtain ⟨n, hn, hneighbour⟩ := List.exists_of_findSome?_eq_some hfound
    have hn17 := List.mem_range.mp hn
    refine (digits_neighbour_le hneighbour).trans ?_
    -- what lies below has at most as many digits as there are places down to the grid
    have hbelow : (b.digitsBelow (b.magnitude - (n + 1 : Nat)) : ℚ) < 10 ^ 17 := by
      have hgrid : (0 : ℚ) < 10 ^ (b.magnitude - (n + 1 : Nat)) := zpow_pos (by norm_num) _
      refine lt_of_mul_lt_mul_right ?_ hgrid.le
      calc _ ≤ b.value := (b.digitsBelow_spec _).1
        _ < 10 ^ b.magnitude := (magnitude_spec canonical pos hle).2
        _ ≤ 10 ^ (17 + (b.magnitude - (n + 1 : Nat))) :=
            zpow_le_zpow_right₀ (by norm_num) (by push_cast; omega)
        _ = 10 ^ 17 * 10 ^ (b.magnitude - (n + 1 : Nat)) := by
            rw [zpow_add₀ (by norm_num)]
            rfl
    exact_mod_cast hbelow

end Binary

end Formulary.Number
