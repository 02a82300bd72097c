import Formulary.Function.Standard
import Formulary.Proofs.Number.Signed
import Formulary.Proofs.Number.Text
import Formulary.Value.Conversion

/-!
# Sums of integers

* `Number.exactPart`, `Number.heldPart` : a number without its fraction, as it is and held inside
  the range of 64 bits;
* `AddsUp`, `Totals` : sums that stay inside that range, and what adding up values comes to;
* `sumIntegersFrom_totals` : the arguments are added one by one, up to the first that fails;
* `Builtin.integerSum_totals` : what the integer sum answers, which is the total of the held parts,
  and that of the exact parts where these fit.
-/

namespace Formulary

namespace Number

/-- The integer that is left of a number without its fraction. -/
def exactPart (x : Float) : Int :=
  towardZero (Binary.ofFloat x).number

/-- The same integer held inside the range of 64 bits: beyond it, the nearer end counts. -/
def heldPart (x : Float) : Int :=
  max int64Least (min (exactPart x) int64Greatest)

end Number

open Number

/-! ## Sums in 64 bits -/

section Sums

variable (store : Store) (name : String) (part : Float → Int) (values : List Value)

/-- The sum of the integers that values stand for. -/
def sumOf : Int :=
  (values.map fun value => part (value.toNumber store)).sum

/-- Whether values add up: all are finite numbers, and the sum of the first ones fits 64 bits,
however many they are. -/
structure AddsUp : Prop where
  finite : ∀ value ∈ values, (value.toNumber store).isFinite = true
  fits : ∀ count, fitsInt64 (sumOf store part (values.take count)) = true

/-- What the sum of values comes to in 64 bits: the double nearest to it when they add up, and
otherwise an error for the first value that is no finite number or takes the sum out of the range.
-/
inductive Totals : Except FunctionError Value → Prop
  | total {x : Float} (adds : AddsUp store part values)
      (nearest : NearestTo (sumOf store part values) x) : Totals (.ok (.number x))
  | unconvertible {place : Nat} {value : Value} (before : AddsUp store part (values.take place))
      (found : values[place]? = some value) (notFinite : (value.toNumber store).isFinite = false) :
      Totals (.error (.invalidArgument name place (ValueError.notInteger value.kindName).message))
  | overflow {place : Nat} {value : Value} (before : AddsUp store part (values.take place))
      (found : values[place]? = some value) (finite : (value.toNumber store).isFinite = true)
      (beyond : fitsInt64 (sumOf store part (values.take (place + 1))) = false) :
      Totals (.error (.evaluation name "integer overflow"))

end Sums

variable {store : Store} {name : String} {part part' : Float → Int} {values done : List Value}
variable {value : Value} {n : Int} {x : Float}

theorem fitsInt64_iff : fitsInt64 n = true ↔ int64Least ≤ n ∧ n ≤ int64Greatest := by
  simp [fitsInt64]

theorem nearestTo_of_fits (h : fitsInt64 n = true) : NearestTo n (ofInt n) := by
  rw [fitsInt64_iff, int64Least, int64Greatest] at h
  exact nearestTo_ofInt (by omega)

theorem clampInt64_eq (finite : x.isFinite = true) : clampInt64 x = heldPart x := by
  have hinf : x.isInf = false := (isFinite_iff.mp finite).2
  rw [clampInt64, if_neg (by simp [hinf]), truncate_eq finite]
  rfl

theorem heldPart_of_fits (h : fitsInt64 (exactPart x) = true) : heldPart x = exactPart x := by
  obtain ⟨hlow, hhigh⟩ := fitsInt64_iff.mp h
  rw [heldPart, min_eq_left hhigh, max_eq_right hlow]

theorem sumOf_append (store : Store) (part : Float → Int) (values values' : List Value) :
    sumOf store part (values ++ values') = sumOf store part values + sumOf store part values' := by
  simp [sumOf]

theorem sumOf_singleton (store : Store) (part : Float → Int) (value : Value) :
    sumOf store part [value] = part (value.toNumber store) := by
  simp [sumOf]

namespace AddsUp

theorem nil : AddsUp store part [] :=
  ⟨fun _ h => (nomatch h), fun count => by rw [List.take_nil]; rfl⟩

theorem total_fits (h : AddsUp store part values) : fitsInt64 (sumOf store part values) = true := by
  have := h.fits values.length
  rwa [List.take_length] at this

/-- One more value that keeps the sum inside the range. -/
theorem concat (h : AddsUp store part done) (finite : (value.toNumber store).isFinite = true)
    (fits : fitsInt64 (sumOf store part (done ++ [value])) = true) :
    AddsUp store part (done ++ [value]) := by
  refine ⟨fun other hmem => ?_, fun count => ?_⟩
  · obtain hmem | hmem := List.mem_append.mp hmem
    · exact h.finite other hmem
    · rwa [List.mem_singleton.mp hmem]
  · obtain hle | hlt := le_or_gt count done.length
    · rw [List.take_append_of_le_length hle]
      exact h.fits count
    · rwa [List.take_of_length_le (by simpa using hlt)]

end AddsUp

/-! ## Adding up -/

/-- An argument that is a finite number counts with its held part. -/
theorem integer_ofValue (store : Store) (value : Value) :
    (Argument.ofValue store value).integer =
      if (value.toNumber store).isFinite then .ok (heldPart (value.toNumber store))
      else .error (.notInteger value.kindName) := by
  change integerOf value.kindName (value.toNumber store) = _
  unfold integerOf
  split
  · next h => rw [clampInt64_eq h]
  · rfl

/-- **The arguments are added one by one,** up to the first that fails. -/
theorem sumIntegersFrom_totals (call : Call) (adds : AddsUp store heldPart done)
    (rest : List Value) :
    Totals store call.name heldPart (done ++ rest)
      ((sumIntegersFrom call done.length (sumOf store heldPart done)
        (rest.map (Argument.ofValue store))).map fun total => .number (ofInt total)) := by
  -- What is done moves on with the total, so that the position is its length.
  induction rest generalizing done with
  | nil =>
    rw [List.append_nil]
    exact .total adds (nearestTo_of_fits adds.total_fits)
  | cons value rest ih =>
    have hbefore : AddsUp store heldPart ((done ++ value :: rest).take done.length) := by
      rwa [List.take_left]
    have hafter : (done ++ value :: rest).take (done.length + 1) = done ++ [value] := by
      rw [List.take_length_add_append, List.take_succ_cons, List.take_zero]
    have hfound : (done ++ value :: rest)[done.length]? = some value := by simp
    have hsum : sumOf store heldPart done + heldPart (value.toNumber store) =
        sumOf store heldPart (done ++ [value]) := by
      rw [sumOf_append, sumOf_singleton]
    rw [List.map_cons, sumIntegersFrom, integer_ofValue]
    cases hfinite : (value.toNumber store).isFinite with
    | false => exact .unconvertible hbefore hfound hfinite
    | true =>
      simp only [if_true, hsum]
      split
      · next hfits =>
        have := ih (adds.concat hfinite hfits)
        rwa [List.append_assoc, List.singleton_append, List.length_append,
          List.length_singleton] at this
      · next hbeyond =>
        exact .overflow hbefore hfound hfinite (hafter ▸ Bool.eq_false_iff.mpr hbeyond)

/-! ## Parts that are the same -/

theorem sumOf_congr (h : ∀ value ∈ values, part (value.toNumber store) =
    part' (value.toNumber store)) : sumOf store part values = sumOf store part' values := by
  rw [sumOf, sumOf, List.map_congr_left h]

theorem AddsUp.congr (adds : AddsUp store part values)
    (h : ∀ value ∈ values, (value.toNumber store).isFinite = true →
      part (value.toNumber store) = part' (value.toNumber store)) :
    AddsUp store part' values := by
  refine ⟨adds.finite, fun count => ?_⟩
  rw [← sumOf_congr fun value hmem =>
    h value (List.mem_of_mem_take hmem) (adds.finite value (List.mem_of_mem_take hmem))]
  exact adds.fits count

/-- Parts that are the same for finite numbers have the same totals. -/
theorem Totals.congr {answer : Except FunctionError Value}
    (totals : Totals store name part values answer)
    (h : ∀ value ∈ values, (value.toNumber store).isFinite = true →
      part (value.toNumber store) = part' (value.toNumber store)) :
    Totals store name part' values answer := by
  have htake (count : Nat) : ∀ value ∈ values.take count, (value.toNumber store).isFinite = true →
      part (value.toNumber store) = part' (value.toNumber store) :=
    fun value hmem => h value (List.mem_of_mem_take hmem)
  cases totals with
  | total adds nearest =>
    rw [sumOf_congr fun value hmem => h value hmem (adds.finite value hmem)] at nearest
    exact .total (adds.congr h) nearest
  | @unconvertible place _ before found notFinite =>
    exact .unconvertible (before.congr (htake place)) found notFinite
  | @overflow place value before found finite beyond =>
    have hfinite : ∀ other ∈ values.take (place + 1), (other.toNumber store).isFinite = true := by
      rw [List.take_add_one, found]
      intro other hmem
      obtain hmem | hmem := List.mem_append.mp hmem
      · exact before.finite other hmem
      · rwa [List.mem_singleton.mp hmem]
    rw [sumOf_congr fun other hmem => htake _ other hmem (hfinite other hmem)] at beyond
    exact .overflow (before.congr (htake place)) found finite beyond

/-! ## The function -/

/-- The sum of values is a number exactly when they add up. -/
theorem Totals.isOk_iff {answer : Except FunctionError Value}
    (totals : Totals store name part values answer) :
    (∃ result, answer = .ok result) ↔ AddsUp store part values := by
  cases totals with
  | total adds _ => exact ⟨fun _ => adds, fun _ => ⟨_, rfl⟩⟩
  | unconvertible _ found notFinite =>
    refine ⟨fun ⟨_, h⟩ => (nomatch h), fun adds => ?_⟩
    rw [adds.finite _ (List.mem_of_getElem? found)] at notFinite
    cases notFinite
  | overflow _ _ _ beyond =>
    refine ⟨fun ⟨_, h⟩ => (nomatch h), fun adds => ?_⟩
    rw [adds.fits] at beyond
    cases beyond

/-- **The integer sum answers the total of the held parts of its arguments,** a number exactly when
they add up. Where no exact part of a finite argument lies beyond 64 bits, this is the total of the
exact parts: the double nearest to their sum, or an error as soon as an argument is no finite number
or a sum does not fit. An argument beyond 64 bits is no error: the end of the range counts in its
place. -/
theorem Builtin.integerSum_totals (store : Store) (name : String) (values : List Value) :
    let answer := Builtin.integerSum.call (.ofValues store name values)
    Totals store name heldPart values answer ∧
      ((∃ result, answer = .ok result) ↔ AddsUp store heldPart values) ∧
      ((∀ value ∈ values, (value.toNumber store).isFinite = true →
          fitsInt64 (exactPart (value.toNumber store)) = true) →
        Totals store name exactPart values answer) := by
  have htotals : Totals store name heldPart values
      (Builtin.integerSum.call (.ofValues store name values)) :=
    sumIntegersFrom_totals (.ofValues store name values) AddsUp.nil values
  exact ⟨htotals, htotals.isOk_iff, fun fits => htotals.congr fun value hmem hfinite =>
    heldPart_of_fits (fits value hmem hfinite)⟩

/-- An integer beyond 64 bits is not left out, but does not count in full. -/
theorem Builtin.integerSum_totals_beyond :
    Totals .empty "$SUMI" exactPart [.number 2.75, .number (-1.5)]
        (Builtin.integerSum.call (.ofValues .empty "$SUMI" [.number 2.75, .number (-1.5)])) ∧
      Totals .empty "$SUMI" heldPart [.number 1e19, .number (-1e19)]
        (Builtin.integerSum.call (.ofValues .empty "$SUMI" [.number 1e19, .number (-1e19)])) ∧
      Builtin.integerSum.call (.ofValues .empty "$SUMI" [.number 1e19, .number (-1e19)]) =
        .ok (.number (-1)) :=
  ⟨(Builtin.integerSum_totals .empty "$SUMI" [.number 2.75, .number (-1.5)]).2.2
      (by decide +kernel),
    (Builtin.integerSum_totals .empty "$SUMI" [.number 1e19, .number (-1e19)]).1, by rfl⟩

end Formulary
