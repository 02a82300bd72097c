import Formulary.Proofs.Number.Fixed
import Formulary.Proofs.Sequence
import Formulary.Script.Evaluation
import Formulary.Script.Global

/-!
# Numbers are restored from their texts

* `Number.ofText_text_of_isNaN`, `Number.ofText_text_of_isInf`, `Number.ofText_text_of_zero`,
  `Number.ofText_text_of_isFinite` : what the text of a number is read as;
* `Number.fixed_of_isNaN`, `Number.fixed_of_isInf` : the words with any count of decimal places;
* `Intrinsic.toNumber_toText` : the number of the text of a number is the number itself, but for the
  sign of zero;
* `fixedPlaces_eq_ok_iff` : the counts of decimal places that arguments denote;
* `Run.toFixed_restored` : what is read of a number with so many places.
-/

namespace Formulary

/-! ## The texts of numbers -/

namespace Number

variable {x : Float}

theorem ofText_text_of_isNaN (h : x.isNaN = true) : ofText (text x).toList = x := by
  obtain rfl : x = nan := by
    rw [Float.isNaN_eq_decide_eq_nan, decide_eq_true_eq] at h
    rw [h]
    decide
  decide

/-- There are two infinite numbers. -/
theorem eq_infinity_of_isInf (h : x.isInf = true) : x = infinity ∨ x = -infinity := by
  have of_beq {y : Float} (hy : (y == 0) = false) (hbeq : (x == y) = true) : x = y := by
    rw [Float.beq_iff_ne_nan_and_eq] at hbeq
    rcases hbeq.2.2 with rfl | ⟨-, rfl⟩ | ⟨-, rfl⟩
    · rfl
    · exact absurd hy (by decide)
    · exact absurd hy (by decide)
  change x.toModel.unpack.isInf = true at h
  cases hunpack : x.toModel.unpack with
  | infinity sign =>
    cases sign with
    | positive =>
      refine .inl (of_beq (by decide) ?_)
      change x.toModel.unpack.beq infinity.toModel.unpack = true
      rw [hunpack]
      rfl
    | negative =>
      refine .inr (of_beq (by decide) ?_)
      change x.toModel.unpack.beq (-infinity).toModel.unpack = true
      rw [hunpack]
      rfl
  | notANumber => simp [hunpack, Float.Model.UnpackedFloat.isInf] at h
  | zero sign => simp [hunpack, Float.Model.UnpackedFloat.isInf] at h
  | finite sign m e pos => simp [hunpack, Float.Model.UnpackedFloat.isInf] at h

theorem ofText_text_of_isInf (h : x.isInf = true) : ofText (text x).toList = x := by
  rcases eq_infinity_of_isInf h with rfl | rfl
  · decide
  · decide

theorem ofText_text_of_zero (h : (x == 0) = true) : ofText (text x).toList = 0 := by
  rw [Float.beq_iff_ne_nan_and_eq] at h
  rcases h.2.2 with rfl | ⟨rfl, -⟩ | ⟨rfl, -⟩
  · decide
  · decide
  · decide

/-- **The text of a finite number is read as the number.** -/
theorem ofText_text_of_isFinite (finite : x.isFinite = true) (nonzero : (x == 0) = false) :
    ofText (text x).toList = x := by
  obtain ⟨n, written, hasDigit, htext, hvalue⟩ := exists_numeral_write finite nonzero
  have sign := signs_minus (Binary.ofFloat x).negative
  have hblank := not_isBlank_chars written sign
  rw [htext, ofText_numeral sign written hasDigit (Text.trim_of_not_isBlank hblank), hvalue]

theorem fixed_of_isNaN (h : x.isNaN = true) (places : Nat) : fixed places x = "NaN" := by
  unfold fixed
  rw [if_pos h]

/-- The infinite numbers are not written with the word that is read. -/
theorem fixed_of_isInf (h : x.isInf = true) (places : Nat) :
    fixed places x = if 0 < x then "inf" else "-inf" := by
  have hnan : x.isNaN = false := by
    rcases eq_infinity_of_isInf h with rfl | rfl <;> decide
  unfold fixed
  rw [hnan, if_neg Bool.false_ne_true, if_pos h]

end Number

/-! ## Conversions in scripts -/

/-- **The number of the text of a number is the number itself,** NaN and the infinite numbers
included, and zero for both zeros: as texts are read, and as scripts convert a value by `String` and
the result by `Number`. -/
theorem Intrinsic.toNumber_toText (x : Float) :
    Number.ofText (Number.text x).toList = (if x == 0 then 0 else x) ∧
    (do let s ← Intrinsic.toText.run [.number x]; Intrinsic.toNumber.run [s] : Run Value) =
      pure (.number (if x == 0 then 0 else x)) := by
  have h : Number.ofText (Number.text x).toList = if x == 0 then 0 else x := by
    cases hzero : x == 0 with
    | true => exact Number.ofText_text_of_zero hzero
    | false =>
      cases hfinite : x.isFinite with
      | true => exact Number.ofText_text_of_isFinite hfinite hzero
      | false =>
        rw [Bool.eq_false_iff, ne_eq, Number.isFinite_iff] at hfinite
        cases hnan : x.isNaN with
        | true => exact Number.ofText_text_of_isNaN hnan
        | false =>
          apply Number.ofText_text_of_isInf
          rw [not_and, Bool.not_eq_false] at hfinite
          exact hfinite hnan
  refine ⟨h, ?_⟩
  rw [← h]
  rfl

/-! ## Numbers with a fixed count of places -/

/-- An argument denotes the integer that it is converted to when that is not above a hundred, and
none when it is undefined. -/
theorem fixedPlaces_eq_ok_iff {store : Store} {value : Value} {places : Nat} :
    fixedPlaces store value = .ok places ↔ value = .undefined ∧ places = 0 ∨
      value.toInteger store = .ok places ∧ places ≤ maxFixedPlaces := by
  unfold fixedPlaces
  split
  · have hundefined : Value.undefined.toInteger store = .error (.notInteger _) :=
      if_neg (show ¬ Number.nan.isFinite = true by decide)
    simp [hundefined, eq_comm]
  · next hvalue =>
    have hne : value ≠ .undefined := hvalue
    simp only [hne, false_and, false_or]
    cases value.toInteger store with
    | error e => simp
    | ok n =>
      dsimp only
      split
      · simp only [Except.ok.injEq]
        omega
      · simp only [reduceCtorEq, Except.ok.injEq, false_iff]
        omega

namespace Run

open Number (Binary IsNearestInt NearestTo ofText)

variable {invoke : FunctionRef → List Value → Run Value} {machine : Machine} {x : Float}

theorem callMethod_toFixed {arguments : List Value} {places : Nat}
    (h : fixedPlaces machine.store (argumentAt arguments 0) = .ok places) :
    callMethod invoke (.number x) "toFixed" arguments machine =
      .ok (.string (Number.fixed places x)) machine := by
  have hstore : store machine = .ok machine.store machine := rfl
  change NumberMethod.toFixed.run x arguments machine = _
  unfold NumberMethod.run
  refine (bind_of_ok hstore).trans ?_
  rw [h]
  rfl

/-- **What is read of a number with a fixed count of places.** The method succeeds for every count
from zero to a hundred. A finite number is written as the decimal nearest to it that has so many
places, the even one of two, and its text is read as the double nearest to that decimal, with the
sign of the number. The text of NaN is read as NaN; so are those of the infinite numbers, for which
other words stand than the one that is read. -/
theorem toFixed_restored (invoke : FunctionRef → List Value → Run Value) (machine : Machine)
    (x : Float) (arguments : List Value) (places : Nat) (bound : places ≤ maxFixedPlaces)
    (denoted : argumentAt arguments 0 = .undefined ∧ places = 0 ∨
      (argumentAt arguments 0).toInteger machine.store = .ok (places : Int)) :
    ∃ s : String,
      callMethod invoke (.number x) "toFixed" arguments machine = .ok (.string s) machine ∧
      (x.isFinite = true → ∃ units : Int,
        IsNearestInt ((Binary.ofFloat x).number * 10 ^ places) units ∧
        NearestTo (units / 10 ^ places) (ofText s.toList) ∧
        (Binary.ofFloat (ofText s.toList)).negative = (Binary.ofFloat x).negative) ∧
      (x.isInf = true → s = (if 0 < x then "inf" else "-inf") ∧
        (ofText s.toList).isNaN = true) ∧
      (x.isNaN = true → s = "NaN" ∧ (ofText s.toList).isNaN = true) := by
  have hplaces : fixedPlaces machine.store (argumentAt arguments 0) = .ok places :=
    fixedPlaces_eq_ok_iff.mpr (denoted.imp_right fun h => ⟨h, bound⟩)
  refine ⟨_, callMethod_toFixed hplaces, fun finite => Number.ofText_fixed_of_isFinite finite places,
    fun infinite => ?_, fun nan => ?_⟩
  · rw [Number.fixed_of_isInf infinite]
    refine ⟨rfl, ?_⟩
    split <;> decide
  · rw [Number.fixed_of_isNaN nan]
    exact ⟨rfl, by decide⟩

/-- Infinity and an eighth with two places. -/
theorem toFixed_restored_two :
    (∃ s : String, callMethod (fun _ _ => pure .undefined) (.number Number.infinity) "toFixed"
        [.number 2] Machine.fresh = .ok (.string s) Machine.fresh ∧
      s = "inf" ∧ (ofText s.toList).isNaN = true) ∧
    ∃ s : String, callMethod (fun _ _ => pure .undefined) (.number 0.125) "toFixed"
        [.number 2] Machine.fresh = .ok (.string s) Machine.fresh ∧
      NearestTo (12 / 10 ^ 2) (ofText s.toList) := by
  have hplaces : (Value.number 2).toInteger Machine.fresh.store = .ok 2 := by decide +kernel
  constructor
  · obtain ⟨s, hcall, -, hinfinite, -⟩ := toFixed_restored (fun _ _ => pure .undefined)
      Machine.fresh Number.infinity [.number 2] 2 (by decide) (.inr hplaces)
    exact ⟨s, hcall, hinfinite (by decide)⟩
  · obtain ⟨s, hcall, hfinite, -⟩ := toFixed_restored (fun _ _ => pure .undefined)
      Machine.fresh 0.125 [.number 2] 2 (by decide) (.inr hplaces)
    obtain ⟨units, ⟨near, tie⟩, hnearest, -⟩ := hfinite (by decide)
    have hnumber : (Binary.ofFloat 0.125).number = 1 / 8 := by
      rw [show Binary.ofFloat 0.125 = ⟨false, 2 ^ 52, -55⟩ by decide]
      norm_num [Binary.number, Binary.value]
    -- Of the two integers that are as near, twelve is the even one.
    obtain rfl : units = 12 := by
      rw [hnumber] at near tie
      have hnear : |2 * units - 25| ≤ 1 := by
        have hhalf : (2 * units - 25 : ℚ) = 2 * (units - 1 / 8 * 10 ^ 2) := by ring
        have hle : |(2 * units - 25 : ℚ)| ≤ 1 := by
          rw [hhalf, abs_mul, abs_two]
          linarith
        exact_mod_cast hle
      have htie : units ≠ 13 := by
        rintro rfl
        exact absurd (tie (by norm_num)) (by decide)
      rw [abs_le] at hnear
      omega
    exact ⟨s, hcall, by simpa using hnearest⟩

end Run

end Formulary
