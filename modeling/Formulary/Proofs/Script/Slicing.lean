import Formulary.Proofs.Number.Text
import Formulary.Proofs.Number.Truncation
import Formulary.Script.Evaluation

/-!
# Slices of arrays

* `Number.Offset` : what counts of an argument of `slice`, a number without its fraction;
* `Offset.position` : the position that it stands for, counted from the end where it is negative;
* `IsSliver` : the numbers that are negative only by their fraction;
* `slicePosition_eq`, `slicePosition_of_isSliver` : the position that an argument denotes;
* `Run.slice_positions` : what a call of `slice` answers, and that only the offsets count.
-/

namespace Formulary

/-! ## Offsets -/

namespace Number

/-- A number without its fraction: an integer or an infinity. -/
inductive Offset where
  | finite (t : Int)
  | below
  | above
  deriving DecidableEq, Repr

/-- What is left of a number without its fraction; zero where it is not a number. -/
def offset (x : Float) : Offset :=
  if x.isNaN then .finite 0
  else if x.isInf then (if x < 0 then .below else .above)
  else .finite (towardZero (Binary.ofFloat x).number)

/-- The position in a sequence that an offset stands for: counted from the end when it is negative,
and held inside the sequence. -/
def Offset.position (length : Nat) : Offset → Nat
  | finite t => (if t < 0 then max (length + t) 0 else min t length).toNat
  | below => 0
  | above => length

/-- Whether a number lies strictly between minus one and zero, so that it is negative, and nothing
is left of it without its fraction. -/
def IsSliver (x : Float) : Prop :=
  x.isFinite = true ∧ -1 < (Binary.ofFloat x).number ∧ (Binary.ofFloat x).number < 0

instance : DecidablePred IsSliver := fun _ => inferInstanceAs (Decidable (_ ∧ _ ∧ _))

variable {x : Float} {q : ℚ}

theorem towardZero_of_nonneg (h : 0 ≤ q) : 0 ≤ towardZero q := by
  rw [towardZero, if_pos h]
  exact Int.floor_nonneg.mpr h

theorem towardZero_neg (h : q ≤ -1) : towardZero q < 0 := by
  rw [towardZero, if_neg (by linarith)]
  have hceil : ⌈q⌉ ≤ -1 := Int.ceil_le.mpr (by exact_mod_cast h)
  omega

theorem towardZero_sliver (hlow : -1 < q) (hhigh : q < 0) : towardZero q = 0 := by
  rw [towardZero, if_neg (by linarith), Int.ceil_eq_iff]
  constructor
  · push_cast
    linarith
  · push_cast
    linarith

theorem of_isNaN (h : x.isNaN = true) : x.isInf = false ∧ ¬ x < 0 := by
  rw [Float.isNaN_eq_decide_eq_nan, decide_eq_true_iff] at h
  rw [h]
  decide

end Number

/-! ## Positions -/

section Positions

variable {store : Store} {length default : Nat} {value : Value}

/-- What counts of an argument of `slice`: nothing when it is undefined. -/
def offset? (store : Store) : Value → Option Number.Offset
  | .undefined => none
  | value => some (Number.offset (value.toNumber store))

/-- The position that an offset stands for, with a default where there is none. -/
def positionOr (length default : Nat) : Option Number.Offset → Nat
  | none => default
  | some offset => offset.position length

/-- The position of a number in a sequence, as `slice` computes it. -/
def numberPosition (length : Nat) (x : Float) : Nat :=
  if x.isInf then (if x < 0 then 0 else length)
  else if x < 0 then ((length : Int) + Number.truncate x).toNat
  else min (Number.truncate x).toNat length

theorem slicePosition_of_ne (h : value ≠ .undefined) :
    slicePosition store length default value = numberPosition length (value.toNumber store) := by
  cases value with
  | undefined => exact absurd rfl h
  | _ => rfl

theorem offset?_of_ne (h : value ≠ .undefined) :
    offset? store value = some (Number.offset (value.toNumber store)) := by
  cases value with
  | undefined => exact absurd rfl h
  | _ => rfl

theorem numberPosition_of_isFinite {x : Float} (finite : x.isFinite = true) :
    numberPosition length x = if (Number.Binary.ofFloat x).number < 0
      then ((length : Int) + Number.towardZero (Number.Binary.ofFloat x).number).toNat
      else min (Number.towardZero (Number.Binary.ofFloat x).number).toNat length := by
  obtain ⟨-, hinf⟩ := Number.isFinite_iff.mp finite
  rw [numberPosition, hinf, Number.truncate_eq finite]
  simp only [Number.lt_zero_iff finite, Bool.false_eq_true, if_false]

/-- A number that is no sliver denotes the position that its offset stands for. -/
theorem numberPosition_eq {x : Float} (whole : ¬ Number.IsSliver x) :
    numberPosition length x = (Number.offset x).position length := by
  cases finite : x.isFinite with
  | true =>
    obtain ⟨hnan, hinf⟩ := Number.isFinite_iff.mp finite
    rw [numberPosition_of_isFinite finite, Number.offset, hnan, hinf]
    simp only [Bool.false_eq_true, if_false, Number.Offset.position]
    by_cases hneg : (Number.Binary.ofFloat x).number < 0
    · have hlow : (Number.Binary.ofFloat x).number ≤ -1 := by
        by_contra hlow
        exact whole ⟨finite, by linarith, hneg⟩
      have ht := Number.towardZero_neg hlow
      rw [if_pos hneg, if_pos ht]
      omega
    · have ht := Number.towardZero_of_nonneg (not_lt.mp hneg)
      rw [if_neg hneg, if_neg (by omega)]
      omega
  | false =>
    cases hnan : x.isNaN with
    | true =>
      obtain ⟨hinf, hlt⟩ := Number.of_isNaN hnan
      rw [numberPosition, hinf, if_neg (by simp), if_neg hlt, Number.truncate, finite,
        Number.offset, hnan]
      simp [Number.Offset.position]
    | false =>
      have hinf : x.isInf = true := by
        cases h : x.isInf with
        | true => rfl
        | false =>
          rw [Number.isFinite_iff.mpr ⟨hnan, h⟩] at finite
          cases finite
      rw [numberPosition, Number.offset, hinf, hnan]
      by_cases hlt : x < 0 <;> simp [hlt, Number.Offset.position]

/-- **An argument denotes the position that its offset stands for,** unless it is a sliver. -/
theorem slicePosition_eq (whole : ¬ Number.IsSliver (value.toNumber store)) :
    slicePosition store length default value =
      positionOr length default (offset? store value) := by
  by_cases h : value = .undefined
  · rw [h]
    rfl
  · rw [slicePosition_of_ne h, offset?_of_ne h, numberPosition_eq whole]
    rfl

/-- A sliver denotes the end: it is counted from there since it is negative, and then by zero. -/
theorem slicePosition_of_isSliver (sliver : Number.IsSliver (value.toNumber store)) :
    slicePosition store length default value = length := by
  obtain ⟨finite, hlow, hhigh⟩ := sliver
  have h : value ≠ .undefined := by
    rintro rfl
    exact absurd (show Number.nan.isFinite = true from finite) (by decide)
  rw [slicePosition_of_ne h, numberPosition_of_isFinite finite, if_pos hhigh,
    Number.towardZero_sliver hlow hhigh]
  omega

end Positions

/-! ## Slices -/

theorem between_toList {α : Type} (items : Array α) (start stop : Nat) :
    (between items.toList start stop).toArray = items.extract start stop := by
  apply Array.ext'
  simp [between, List.extract_eq_take_drop]

namespace Run

variable {invoke : FunctionRef → List Value → Run Value} {machine : Machine} {ref : ArrayRef}

/-- A call of `slice` makes a new array and changes nothing else. -/
theorem callMethod_slice (arguments : List Value) :
    callMethod invoke (.array ref) "slice" arguments machine =
      newArray ((machine.store.elements ref).extract
        (slicePosition machine.store (machine.store.elements ref).size 0 (argumentAt arguments 0))
        (slicePosition machine.store (machine.store.elements ref).size
          (machine.store.elements ref).size (argumentAt arguments 1))) machine := by
  rw [← between_toList]
  rfl

/-- **A call of `slice` succeeds and answers a new array of the elements between two positions.**
Each is the default for an argument that is missing or undefined, and otherwise the position that
the argument stands for when its fraction is dropped, except that a number between minus one and
zero stands for the end. Apart from such numbers only the offsets of the arguments count. -/
theorem slice_positions (invoke : FunctionRef → List Value → Run Value) (machine : Machine)
    (ref : ArrayRef) (arguments : List Value) :
    let items := machine.store.elements ref
    let sliver (i : Nat) := Number.IsSliver ((argumentAt arguments i).toNumber machine.store)
    let offset (i : Nat) := offset? machine.store (argumentAt arguments i)
    (∃ start stop,
      (¬ sliver 0 → start = positionOr items.size 0 (offset 0)) ∧
      (sliver 0 → start = items.size) ∧
      (¬ sliver 1 → stop = positionOr items.size items.size (offset 1)) ∧
      (sliver 1 → stop = items.size) ∧
      callMethod invoke (.array ref) "slice" arguments machine =
        .ok (.array ⟨machine.store.arrays.size⟩)
          { machine with
            store := { machine.store with
              arrays := machine.store.arrays.push (items.extract start stop) } }) ∧
    ∀ others : List Value,
      (∀ i < 2, ¬ sliver i ∧
        ¬ Number.IsSliver ((argumentAt others i).toNumber machine.store) ∧
        offset i = offset? machine.store (argumentAt others i)) →
      callMethod invoke (.array ref) "slice" others machine =
        callMethod invoke (.array ref) "slice" arguments machine := by
  intro items sliver offset
  constructor
  · refine ⟨_, _, ?_, ?_, ?_, ?_, callMethod_slice arguments⟩
    · exact slicePosition_eq
    · exact slicePosition_of_isSliver
    · exact slicePosition_eq
    · exact slicePosition_of_isSliver
  · intro others h
    have position (i : Nat) (hi : i < 2) (default : Nat) :
        slicePosition machine.store items.size default (argumentAt others i) =
          slicePosition machine.store items.size default (argumentAt arguments i) := by
      obtain ⟨whole, whole', same⟩ := h i hi
      rw [slicePosition_eq whole, slicePosition_eq whole']
      exact congrArg _ same.symm
    rw [callMethod_slice, callMethod_slice, position 0 (by decide), position 1 (by decide)]

/-- A machine with an array of three elements. -/
def triple : Machine := ⟨⟨#[#[.null, .boolean true, .boolean false]], #[], #[], #[]⟩, #[], 0, 0⟩

/-- From two places before the end up to infinity: both elements there. -/
theorem slice_positions_infinite (invoke : FunctionRef → List Value → Run Value) :
    callMethod invoke (.array ⟨0⟩) "slice" [.number (-2), .number Number.infinity] triple =
      .ok (.array ⟨1⟩) { triple with
        store := { triple.store with
          arrays := triple.store.arrays.push #[.boolean true, .boolean false] } } := by
  obtain ⟨⟨start, stop, hstart, -, hstop, -, hcall⟩, -⟩ :=
    slice_positions invoke triple ⟨0⟩ [.number (-2), .number Number.infinity]
  have hstart : start = 1 := (hstart (by decide +kernel)).trans (by decide +kernel)
  have hstop : stop = 3 := (hstop (by decide +kernel)).trans (by decide +kernel)
  rw [hcall, hstart, hstop]
  rfl

/-- From half a place before the end: nothing, although the half is dropped. -/
theorem slice_positions_sliver (invoke : FunctionRef → List Value → Run Value) :
    offset? triple.store (.number (-0.5)) = offset? triple.store (.number 0) ∧
      callMethod invoke (.array ⟨0⟩) "slice" [.number (-0.5)] triple =
        .ok (.array ⟨1⟩) { triple with
          store := { triple.store with arrays := triple.store.arrays.push #[] } } ∧
      callMethod invoke (.array ⟨0⟩) "slice" [.number 0] triple =
        .ok (.array ⟨1⟩) { triple with
          store := { triple.store with
            arrays := triple.store.arrays.push #[.null, .boolean true, .boolean false] } } := by
  have hsliver : slicePosition triple.store 3 0 (.number (-0.5)) = 3 := by decide +kernel
  have hzero : slicePosition triple.store 3 0 (.number 0) = 0 := by decide +kernel
  refine ⟨by decide +kernel, ?_, ?_⟩
  · rw [callMethod_slice]
    change newArray (Array.extract _ (slicePosition triple.store 3 0 (.number (-0.5))) _) _ = _
    rw [hsliver]
    rfl
  · rw [callMethod_slice]
    change newArray (Array.extract _ (slicePosition triple.store 3 0 (.number 0)) _) _ = _
    rw [hzero]
    rfl

end Run

end Formulary
