import Formulary.Proofs.Number.Digits
import Formulary.Proofs.Number.Rounding

/-!
# The text of a number

* `exists_of_arrange` : what is laid out with digits only are the digits of an integer;
* `shortest_of_standsFor` : the shortest digits of a natural number below `2 ^ 53` are those of the
  number;
* `text_eq_iff` : a double is printed as such a number when it equals it.
-/

namespace Formulary.Number

variable {d : Decimal} {b : Binary} {n : Nat} {x : Float}

/-! ## Layouts -/

/-- **What is laid out with digits only are the digits of an integer.** -/
theorem exists_of_arrange (h : ∀ c ∈ scriptLayout.arrange d, c.isDigit = true) :
    0 ≤ d.exponent ∧
      scriptLayout.arrange d = digitChars d.digits ++ zeros d.exponent.toNat := by
  unfold Layout.arrange at h ⊢
  dsimp only at h ⊢
  split at h
  · next hplain =>
    rw [if_pos hplain]
    unfold placePoint at h ⊢
    split at h
    · exact absurd (h '.' (by simp)) (by decide)
    · next hpoint =>
      rw [if_neg hpoint]
      split at h
      · next hlength =>
        rw [if_pos hlength]
        have hpos := List.length_pos_iff.mpr (digitChars_ne_nil (n := d.digits))
        refine ⟨by omega, ?_⟩
        rw [show (((digitChars d.digits).length : Int) - 1 + d.exponent + 1).toNat
          - (digitChars d.digits).length = d.exponent.toNat by omega]
        exact List.append_nil _
      · exact absurd (h '.' (by simp)) (by decide)
  · exact absurd (h 'e' (by simp [withExponent])) (by decide)

/-- **An integer below `10 ^ 21` is laid out as its digits.** -/
theorem arrange_of_exponent (pos : 0 < d.digits) (hexponent : 0 ≤ d.exponent)
    (h : d.digits * 10 ^ d.exponent.toNat < 10 ^ 21) :
    scriptLayout.arrange d = digitChars (d.digits * 10 ^ d.exponent.toNat) := by
  have hlength := (Nat.length_toDigits_le_iff (k := 21) (by decide) (by decide)).mpr h
  rw [show Nat.toDigits 10 (d.digits * 10 ^ d.exponent.toNat) =
    digitChars (d.digits * 10 ^ d.exponent.toNat) from rfl, digitChars_mul_pow pos,
    List.length_append, zeros, List.length_replicate] at hlength
  have hpos := List.length_pos_iff.mpr (digitChars_ne_nil (n := d.digits))
  rw [digitChars_mul_pow pos]
  unfold Layout.arrange
  dsimp only
  rw [if_pos ⟨by simp only [scriptLayout]; omega, by simp only [scriptLayout]; omega⟩, placePoint,
    if_neg (by omega), if_pos (by omega), show (((digitChars d.digits).length : Int) - 1
      + d.exponent + 1).toNat - (digitChars d.digits).length = d.exponent.toNat by omega]
  exact List.append_nil _

/-! ## The digits of an integer -/

namespace Binary.StandsFor

theorem value_eq (h : b.StandsFor n) : b.value = n := by
  have hunit : (2 : ℚ) ^ (-b.exponent).toNat * 2 ^ b.exponent = 1 := by
    rw [← zpow_natCast, ← zpow_add₀ (by norm_num), show ((-b.exponent).toNat : Int) + b.exponent = 0
      by have := h.fraction; omega, zpow_zero]
  rw [value, h.significand_eq]
  push_cast
  rw [mul_assoc, hunit, mul_one]

theorem magnitude_mem (h : b.StandsFor n) (pos : 0 < n) (hn : n < 2 ^ 53) :
    1 ≤ b.magnitude ∧ b.magnitude ≤ 17 := by
  have hlog : (b.significand.log2 : Int) + b.exponent = n.log2 := by
    have hfraction := h.fraction
    rw [h.significand_eq, log2_mul_two_pow pos]
    push_cast
    omega
  have hle := log2_le_of_lt hn
  have hestimate : ((n.log2 : Int) * 30103).fdiv 100000 = n.log2 * 30103 / 100000 :=
    Int.fdiv_eq_ediv_of_nonneg _ (by decide)
  have hunit : compareScaled 1 0 b.significand b.exponent ≠ .gt := by
    intro hgt
    have hlt := (compareScaled_spec 1 b.significand 0 b.exponent).2.2.mp hgt
    rw [show (b.significand : ℚ) * 2 ^ b.exponent = n from h.value_eq] at hlt
    have hone : (n : ℚ) < 1 := by simpa using hlt
    have : n < 1 := by exact_mod_cast hone
    omega
  unfold magnitude
  rw [hlog, hestimate]
  dsimp only
  split
  · next hbelow =>
    refine ⟨?_, by omega⟩
    by_contra hzero
    rw [show (n.log2 : Int) * 30103 / 100000 = 0 by omega] at hbelow
    exact hunit (by simpa using hbelow)
  · split <;> omega

end Binary.StandsFor

/-- What is found among the first numbers is found at one of them, and at none before it. -/
theorem findSome?_range {α : Type} {f : Nat → Option α} {a : α} {m : Nat}
    (h : (List.range m).findSome? f = some a) : ∃ j < m, f j = some a ∧ ∀ i < j, f i = none := by
  induction m with
  | zero => cases h
  | succ m ih =>
    rw [List.range_succ, List.findSome?_append] at h
    cases hbefore : (List.range m).findSome? f with
    | none =>
      rw [hbefore] at h
      rw [List.findSome?_eq_none_iff] at hbefore
      exact ⟨m, Nat.lt_succ_self m, by simpa using h, fun i hi => hbefore i (List.mem_range.mpr hi)⟩
    | some a' =>
      rw [hbefore] at h
      cases h
      obtain ⟨j, hj, hfound, hnone⟩ := ih hbefore
      exact ⟨j, by omega, hfound, hnone⟩

/-- A decimal without places behind the point is a natural number. -/
theorem Decimal.value_eq (h : 0 ≤ d.exponent) :
    d.value = ((d.digits * 10 ^ d.exponent.toNat : Nat) : ℚ) := by
  rw [Decimal.value]
  push_cast
  rw [← zpow_natCast, Int.toNat_of_nonneg h]

/-- **The shortest digits of an integer below `2 ^ 53` are those of the integer.** -/
theorem shortest_of_standsFor (h : b.StandsFor n) (pos : 0 < n) (hn : n < 2 ^ 53) (tie : Tie) :
    0 ≤ (shortest tie b).exponent ∧
      (shortest tie b).digits * 10 ^ (shortest tie b).exponent.toNat = n := by
  have hsignificand : 0 < b.significand := by
    rw [h.significand_eq]
    positivity
  obtain ⟨hleast, hmost⟩ := h.magnitude_mem pos hn
  -- The grid of the integers has the integer itself.
  have hgrid : (neighbour? tie b (b.magnitude - ((b.magnitude - 1).toNat + 1 : Nat))).isSome := by
    have hzero : b.magnitude - ((b.magnitude - 1).toNat + 1 : Nat) = 0 := by
      push_cast
      omega
    rw [hzero]
    refine isSome_neighbour (.inl (Binary.readsBack_of_value hsignificand ?_))
    rw [h.value_eq, Decimal.value_eq (Int.le_refl 0), Binary.digitsBelow]
    simp [h.significand_eq, Int.toNat_of_nonpos h.fraction]
  have hexponent : 0 ≤ (shortest tie b).exponent := by
    unfold shortest
    dsimp only
    cases hfound : (List.range 17).findSome? fun (k : Nat) =>
        neighbour? tie b (b.magnitude - (k + 1 : Nat)) with
    | none =>
      rw [List.findSome?_eq_none_iff] at hfound
      rw [hfound (b.magnitude - 1).toNat (List.mem_range.mpr (by omega))] at hgrid
      cases hgrid
    | some d =>
      obtain ⟨j, -, hd, hbefore⟩ := findSome?_range hfound
      have hj : j ≤ (b.magnitude - 1).toNat := by
        by_contra hlt
        rw [hbefore _ (not_le.mp hlt)] at hgrid
        cases hgrid
      have hstrip := (value_stripZeros 17 d).2
      rw [(readsBack_of_neighbour hd).1] at hstrip
      rw [Option.getD_some]
      push_cast at hstrip
      omega
  refine ⟨hexponent, ?_⟩
  have hnear := Binary.near_shortest hsignificand tie
  rw [Decimal.value_eq hexponent] at hnear
  have heq := (Binary.standsFor_of_near hnear h.fraction).significand_eq
  rw [h.significand_eq] at heq
  exact (Nat.eq_of_mul_eq_mul_right (by positivity) heq).symm

/-! ## Texts -/

theorem isFinite_iff : x.isFinite = true ↔ x.isNaN = false ∧ x.isInf = false := by
  change x.toModel.unpack.isFinite = true ↔
    x.toModel.unpack.isNaN = false ∧ x.toModel.unpack.isInf = false
  cases x.toModel.unpack <;>
    simp [Float.Model.UnpackedFloat.isFinite, Float.Model.UnpackedFloat.isNaN,
      Float.Model.UnpackedFloat.isInf]

theorem beq_zero_iff : (x == 0) = true ↔ isWhole x = true ∧ truncate x = 0 := by
  constructor
  · intro h
    rw [Float.beq_iff_ne_nan_and_eq] at h
    rcases h.2.2 with rfl | ⟨rfl, -⟩ | ⟨rfl, -⟩
    · exact whole_zeros.1
    · exact whole_zeros.1
    · exact whole_zeros.2
  · rintro ⟨hwhole, htruncate⟩
    obtain ⟨hfinite, hfraction⟩ := isWhole_iff.mp hwhole
    rw [truncate_of_isFinite hfinite] at htruncate
    exact (beq_zero_iff_parts hfinite).mpr
      (Binary.significand_of_wholePart hfraction (by split at htruncate <;> omega))

/-- A double is a positive integer below `2 ^ 53` when its parts stand for it without a sign. -/
theorem whole_iff_standsFor (pos : 0 < n) (hn : n < 2 ^ 53) :
    (isWhole x = true ∧ truncate x = n) ↔ x.isFinite = true ∧
      (Binary.ofFloat x).negative = false ∧ (Binary.ofFloat x).StandsFor n := by
  constructor
  · rintro ⟨hwhole, htruncate⟩
    obtain ⟨hfinite, hfraction⟩ := isWhole_iff.mp hwhole
    rw [truncate_of_isFinite hfinite] at htruncate
    cases hnegative : (Binary.ofFloat x).negative with
    | true =>
      rw [hnegative, if_pos rfl] at htruncate
      omega
    | false =>
      rw [hnegative, if_neg (by simp)] at htruncate
      exact ⟨hfinite, rfl, (canonical_ofFloat x).standsFor hfraction (by omega) hn⟩
  · rintro ⟨hfinite, hnegative, hstands⟩
    obtain ⟨hfraction, hwhole⟩ := hstands.wholePart_eq
    rw [isWhole_iff, truncate_of_isFinite hfinite, hfraction, hwhole, hnegative]
    exact ⟨⟨hfinite, rfl⟩, rfl⟩

theorem natOfDigits_append_zeros (digits : List Char) (k : Nat) :
    natOfDigits 10 (digits ++ zeros k) = natOfDigits 10 digits * 10 ^ k := by
  induction k with
  | zero => simp [zeros]
  | succ k ih =>
    rw [zeros, List.replicate_succ', ← List.append_assoc, natOfDigits_concat, ← zeros, ih,
      Nat.pow_succ, ← Nat.mul_assoc]
    rfl

/-- The text of a number that is not finite. -/
theorem text_of_not_isFinite (h : x.isFinite = false) :
    text x = "NaN" ∨ text x = "Infinity" ∨ text x = "-Infinity" := by
  unfold text
  split
  · exact .inl rfl
  · next hnan =>
    split
    · split
      · exact .inr (.inl rfl)
      · exact .inr (.inr rfl)
    · next hinf =>
      rw [Bool.eq_false_iff, ne_eq, isFinite_iff] at h
      exact absurd ⟨Bool.eq_false_iff.mpr hnan, Bool.eq_false_iff.mpr hinf⟩ h

/-- The text of a finite number that is not zero. -/
theorem text_of_isFinite (h : x.isFinite = true) (hzero : (x == 0) = false) :
    text x = String.ofList (scriptLayout.write x) := by
  obtain ⟨hnan, hinf⟩ := isFinite_iff.mp h
  unfold text
  rw [hnan, hinf, hzero]
  rfl

/-- What is written with digits only is an integer nearby, without a sign. -/
theorem near_of_write (hsignificand : 0 < (Binary.ofFloat x).significand)
    (h : scriptLayout.write x = digitChars n) :
    (Binary.ofFloat x).negative = false ∧ (Binary.ofFloat x).Near n := by
  have hdigits : ∀ c ∈ scriptLayout.write x, c.isDigit = true := h ▸ isDigit_digitChars
  unfold Layout.write at h hdigits
  dsimp only at h hdigits
  cases hnegative : (Binary.ofFloat x).negative with
  | true =>
    rw [hnegative] at hdigits
    exact absurd (hdigits '-' (by simp)) (by decide)
  | false =>
    rw [hnegative] at h hdigits
    obtain ⟨hexponent, harrange⟩ := exists_of_arrange hdigits
    have hnear := Binary.near_shortest hsignificand scriptLayout.tie
    rw [Decimal.value_eq hexponent, ← natOfDigits_digitChars (shortest _ _).digits,
      ← natOfDigits_append_zeros, ← harrange] at hnear
    refine ⟨rfl, ?_⟩
    rwa [show scriptLayout.arrange _ = digitChars n from h, natOfDigits_digitChars] at hnear

/-- An integer is written as its digits. -/
theorem write_of_standsFor (hnegative : (Binary.ofFloat x).negative = false)
    (h : (Binary.ofFloat x).StandsFor n) (pos : 0 < n) (hn : n < 2 ^ 53) :
    scriptLayout.write x = digitChars n := by
  obtain ⟨hexponent, hvalue⟩ := shortest_of_standsFor h pos hn scriptLayout.tie
  have hdigits : 0 < (shortest scriptLayout.tie (Binary.ofFloat x)).digits := by
    by_contra hzero
    rw [Nat.eq_zero_of_not_pos hzero, Nat.zero_mul] at hvalue
    omega
  unfold Layout.write
  dsimp only
  rw [hnegative, arrange_of_exponent hdigits hexponent (by rw [hvalue]; omega), hvalue]
  rfl

/-- A zero is printed as zero only. -/
theorem text_eq_iff_of_zero (hfinite : x.isFinite = true) (hzero : (x == 0) = true) :
    (text x).toList = digitChars n ↔ n = 0 := by
  obtain ⟨hnan, hinf⟩ := isFinite_iff.mp hfinite
  have htext : text x = "0" := by
    unfold text
    rw [hnan, hinf, hzero]
    rfl
  rw [htext]
  constructor
  · intro h
    have hvalue := natOfDigits_digitChars n
    rw [← h] at hvalue
    exact hvalue.symm
  · rintro rfl
    rfl

/-- Another finite number is printed as a natural number below `2 ^ 53` when its parts stand for
it. -/
theorem text_eq_iff_of_isFinite (hfinite : x.isFinite = true) (hzero : (x == 0) = false)
    (hn : n < 2 ^ 53) : (text x).toList = digitChars n ↔
      0 < n ∧ (Binary.ofFloat x).negative = false ∧ (Binary.ofFloat x).StandsFor n := by
  have hsignificand : 0 < (Binary.ofFloat x).significand := by
    rw [Nat.pos_iff_ne_zero]
    intro h
    rw [(beq_zero_iff_parts hfinite).mpr h] at hzero
    cases hzero
  rw [text_of_isFinite hfinite hzero, String.toList_ofList]
  constructor
  · intro h
    obtain ⟨hnegative, hnear⟩ := near_of_write hsignificand h
    have hfraction : (Binary.ofFloat x).exponent ≤ 0 := by
      by_contra heven
      have hle := Binary.le_of_near (canonical_ofFloat x) hnear (by omega)
      omega
    have hstands := Binary.standsFor_of_near hnear hfraction
    refine ⟨?_, hnegative, hstands⟩
    rw [hstands.significand_eq] at hsignificand
    exact Nat.pos_of_mul_pos_right hsignificand
  · rintro ⟨pos, hnegative, hstands⟩
    exact write_of_standsFor hnegative hstands pos hn

/-- A number that is not finite is printed with letters. -/
theorem text_ne_of_not_isFinite (h : x.isFinite = false) : (text x).toList ≠ digitChars n := by
  intro heq
  have hdigits : ∀ c ∈ (text x).toList, c.isDigit = true := heq ▸ isDigit_digitChars
  rcases text_of_not_isFinite h with htext | htext | htext
  · rw [htext] at hdigits
    exact absurd (hdigits 'N' (by decide)) (by decide)
  · rw [htext] at hdigits
    exact absurd (hdigits 'I' (by decide)) (by decide)
  · rw [htext] at hdigits
    exact absurd (hdigits 'I' (by decide)) (by decide)

/-- **A number is printed as a natural number below `2 ^ 53` when it equals it.** -/
theorem text_eq_iff (hn : n < 2 ^ 53) :
    (text x).toList = digitChars n ↔ isWhole x = true ∧ truncate x = n := by
  cases hfinite : x.isFinite with
  | false =>
    refine iff_of_false (text_ne_of_not_isFinite hfinite) fun h => ?_
    rw [(isWhole_iff.mp h.1).1] at hfinite
    cases hfinite
  | true =>
    cases hzero : x == 0 with
    | true =>
      obtain ⟨hwhole, htruncate⟩ := beq_zero_iff.mp hzero
      rw [text_eq_iff_of_zero hfinite hzero, htruncate, and_iff_right hwhole]
      omega
    | false =>
      rw [text_eq_iff_of_isFinite hfinite hzero hn]
      constructor
      · rintro ⟨pos, hparts⟩
        exact (whole_iff_standsFor pos hn).mpr ⟨hfinite, hparts⟩
      · intro h
        have pos : 0 < n := by
          rw [Nat.pos_iff_ne_zero]
          rintro rfl
          rw [beq_zero_iff.mpr h] at hzero
          cases hzero
        exact ⟨pos, ((whole_iff_standsFor pos hn).mp h).2⟩

end Formulary.Number
