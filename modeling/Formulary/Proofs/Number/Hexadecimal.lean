import Formulary.Number.Reading
import Mathlib.Data.Nat.Digits.Defs

/-!
# Numbers in base sixteen

* `IsHexDigit`, `hexValue`, `hexNumber` : digits in base sixteen, and the number that they write by
  their places;
* `digitIn?_sixteen`, `natOfDigits_eq_hexNumber` : digits are recognised and read so.
-/

namespace Formulary.Number

variable {c : Char} {digits : List Char}

/-- The digits in base sixteen in the order of their values. -/
def hexLetters : List Char :=
  ['0', '1', '2', '3', '4', '5', '6', '7', '8', '9', 'a', 'b', 'c', 'd', 'e', 'f']

/-- Whether a character is a digit in base sixteen; the letters may be capital ones too. -/
def IsHexDigit (c : Char) : Prop :=
  c.toLower ∈ hexLetters

instance : DecidablePred IsHexDigit :=
  fun c => inferInstanceAs (Decidable (c.toLower ∈ hexLetters))

/-- The value of a digit in base sixteen. -/
def hexValue (c : Char) : Nat :=
  hexLetters.idxOf c.toLower

/-- The number that digits write in base sixteen, the last one at the place of ones. -/
def hexNumber (digits : List Char) : Nat :=
  Nat.ofDigits 16 (digits.reverse.map hexValue)

/-- Digits in base sixteen are characters of ASCII. -/
theorem IsHexDigit.lt (h : IsHexDigit c) : c.toNat < 128 := by
  have hsmall : ∀ d ∈ hexLetters, d.toNat < 128 := by simp [hexLetters]
  have hlower := hsmall _ h
  unfold Char.toLower at hlower
  split at hlower
  · next hcapital =>
    have hle : c.toNat ≤ 90 := hcapital.2
    omega
  · exact hlower

/-- **A character is read as a digit below sixteen when it is one, and has its value.** -/
theorem digitIn?_sixteen (c : Char) :
    digitIn? 16 c = if IsHexDigit c then some (hexValue c) else none := by
  have hsmall : ∀ n < 128, digitIn? 16 (Char.ofNat n) =
      if IsHexDigit (Char.ofNat n) then some (hexValue (Char.ofNat n)) else none := by
    decide
  by_cases hlt : c.toNat < 128
  · rw [← Char.ofNat_toNat c]
    exact hsmall _ hlt
  · have hbeyond {d : Char} (hd : d.toNat < 128) : ¬ c ≤ d := fun (hle : c.toNat ≤ d.toNat) => by
      omega
    have hnone : digitValue? c = none := by
      simp [digitValue?, hbeyond (d := '9') (by decide), hbeyond (d := 'z') (by decide),
        hbeyond (d := 'Z') (by decide)]
    rw [digitIn?, hnone, if_neg fun h => hlt (IsHexDigit.lt h)]
    rfl

theorem isSome_digitIn?_sixteen : (digitIn? 16 c).isSome = true ↔ IsHexDigit c := by
  rw [digitIn?_sixteen]
  split <;> simp [*]

/-- Digits are read by their places. -/
theorem natOfDigits_eq_ofDigits (base : Nat) (digits : List Char) :
    natOfDigits base digits =
      Nat.ofDigits base (digits.reverse.map fun c => (digitValue? c).getD 0) := by
  unfold natOfDigits
  rw [← List.foldr_reverse]
  induction digits.reverse with
  | nil => rfl
  | cons c digits ih =>
    rw [List.foldr_cons, ih, List.map_cons, Nat.ofDigits_cons, Nat.add_comm, Nat.mul_comm]

/-- **Digits in base sixteen are read as the number that they write.** -/
theorem natOfDigits_eq_hexNumber (h : ∀ c ∈ digits, IsHexDigit c) :
    natOfDigits 16 digits = hexNumber digits := by
  rw [natOfDigits_eq_ofDigits, hexNumber]
  congr 1
  refine List.map_congr_left fun c hc => ?_
  have hdigit : digitIn? 16 c = some (hexValue c) := by
    rw [digitIn?_sixteen, if_pos (h c (List.mem_reverse.mp hc))]
  rw [(Option.filter_eq_some_iff.mp hdigit).1, Option.getD_some]

end Formulary.Number
