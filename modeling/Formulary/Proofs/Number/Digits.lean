import Formulary.Number.Layout
import Formulary.Number.Reading
import Mathlib.Data.List.Basic
import Mathlib.Data.List.Induction
import Mathlib.Tactic.IntervalCases

/-!
# Digits of natural numbers

* `natOfDigits_digitChars` : the digits of a number write that number;
* `digitChars_natOfDigits` : digits without a leading zero are those of the number they write;
* `digitChars_mul_pow` : zeros behind the digits multiply by powers of ten.
-/

namespace Formulary.Number

variable {n k : Nat} {digits : List Char} {c : Char}

/-! ## One digit -/

/-- A digit is the character of its value, which is below ten. -/
theorem digitValue?_of_isDigit (h : c.isDigit = true) :
    ∃ d, digitValue? c = some d ∧ d < 10 ∧ c = Nat.digitChar d := by
  obtain ⟨hle, hge⟩ := Char.isDigit_iff_toNat.mp h
  refine ⟨c.toNat - 48, ?_, ?_, ?_⟩
  · unfold digitValue?
    rw [if_pos ⟨hle, hge⟩]
    rfl
  · have hge : c.toNat ≤ 57 := hge
    omega
  · have hle : 48 ≤ c.toNat := hle
    have hge : c.toNat ≤ 57 := hge
    rw [← Char.ofNat_toNat c]
    generalize c.toNat = m at hle hge
    interval_cases m <;> rfl

theorem digitValue?_digitChar (h : n < 10) : digitValue? (Nat.digitChar n) = some n := by
  interval_cases n <;> rfl

theorem isDigit_digitChars : ∀ c ∈ digitChars n, c.isDigit = true :=
  fun _ hc => Nat.isDigit_of_mem_toDigits (by decide) (by decide) hc

theorem digitChars_of_lt (h : n < 10) : digitChars n = [Nat.digitChar n] :=
  Nat.toDigits_of_lt_base h

/-- The last digit stands behind those of a tenth. -/
theorem digitChars_append (pos : 0 < n) (h : k < 10) :
    digitChars n ++ [Nat.digitChar k] = digitChars (n * 10 + k) := by
  rw [← digitChars_of_lt h, digitChars, digitChars, Nat.toDigits_append_toDigits (by decide) pos h,
    Nat.mul_comm]
  rfl

/-! ## All digits -/

theorem natOfDigits_concat (digits : List Char) (c : Char) :
    natOfDigits 10 (digits ++ [c]) = natOfDigits 10 digits * 10 + (digitValue? c).getD 0 := by
  rw [natOfDigits, List.foldl_append]
  rfl

/-- **The digits of a number write that number.** -/
theorem natOfDigits_digitChars (n : Nat) : natOfDigits 10 (digitChars n) = n := by
  induction n using Nat.strongRecOn with
  | ind n ih =>
    by_cases h : n < 10
    · rw [digitChars_of_lt h, ← List.nil_append [n.digitChar], natOfDigits_concat,
        digitValue?_digitChar h]
      exact Nat.zero_add n
    · have hlt : n % 10 < 10 := Nat.mod_lt n (by decide)
      have heq : n / 10 * 10 + n % 10 = n := Nat.div_add_mod' n 10
      rw [← heq, ← digitChars_append (by omega) hlt, natOfDigits_concat, ih _ (by omega),
        digitValue?_digitChar hlt]
      rfl

/-- Whether digits write a number without a leading zero. -/
structure Plain (digits : List Char) : Prop where
  nonempty : digits ≠ []
  digit : ∀ c ∈ digits, c.isDigit = true
  leading : digits.length = 1 ∨ digits.head? ≠ some '0'

theorem digitChars_ne_nil : digitChars n ≠ [] :=
  Nat.toDigits_ne_nil

/-- No number but zero begins with a zero. -/
theorem head_digitChars (pos : 0 < n) : (digitChars n).head? ≠ some '0' := by
  induction n using Nat.strongRecOn with
  | ind n ih =>
    by_cases h : n < 10
    · rw [digitChars_of_lt h]
      interval_cases n <;> decide
    · have heq : n / 10 * 10 + n % 10 = n := Nat.div_add_mod' n 10
      rw [← heq, ← digitChars_append (by omega) (Nat.mod_lt n (by decide)),
        List.head?_append_of_ne_nil _ digitChars_ne_nil]
      exact ih _ (by omega) (by omega)

theorem plain_digitChars (n : Nat) : Plain (digitChars n) := by
  refine ⟨digitChars_ne_nil, isDigit_digitChars, ?_⟩
  by_cases h : n = 0
  · subst h
    exact .inl rfl
  · exact .inr (head_digitChars (by omega))

/-- **Digits without a leading zero are those of the number that they write.** -/
theorem digitChars_natOfDigits (plain : Plain digits) :
    digitChars (natOfDigits 10 digits) = digits := by
  induction digits using List.reverseRecOn with
  | nil => exact absurd rfl plain.nonempty
  | append_singleton digits c ih =>
    obtain ⟨d, hvalue, hlt, rfl⟩ := digitValue?_of_isDigit (plain.digit c (by simp))
    rw [natOfDigits_concat, hvalue, Option.getD_some]
    by_cases hnil : digits = []
    · subst hnil
      rw [show natOfDigits 10 [] * 10 + d = d from Nat.zero_add d, digitChars_of_lt hlt]
      rfl
    · -- The digits before the last one begin with no zero, so that they write no zero.
      have hhead : digits.head? ≠ some '0' := by
        have hleading := plain.leading
        rw [List.head?_append_of_ne_nil _ hnil] at hleading
        refine hleading.resolve_left fun hlength => ?_
        rw [List.length_append, List.length_singleton] at hlength
        exact hnil (List.eq_nil_of_length_eq_zero (by omega))
      have hdigits := ih ⟨hnil, fun c hc => plain.digit c (List.mem_append_left _ hc), .inr hhead⟩
      have hpos : 0 < natOfDigits 10 digits := by
        by_contra hzero
        rw [Nat.eq_zero_of_not_pos hzero] at hdigits
        rw [← hdigits] at hhead
        exact hhead rfl
      rw [← digitChars_append hpos hlt, hdigits]

/-- **Zeros behind the digits multiply by powers of ten.** -/
theorem digitChars_mul_pow (pos : 0 < n) (k : Nat) :
    digitChars (n * 10 ^ k) = digitChars n ++ zeros k := by
  induction k with
  | zero => simp [zeros]
  | succ k ih =>
    have hpos : 0 < n * 10 ^ k := Nat.mul_pos pos (Nat.pow_pos (by decide))
    rw [zeros, List.replicate_succ', ← List.append_assoc, ← zeros, ← ih, Nat.pow_succ,
      ← Nat.mul_assoc]
    exact (digitChars_append hpos (by decide : 0 < 10)).symm

end Formulary.Number
