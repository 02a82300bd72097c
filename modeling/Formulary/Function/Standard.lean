import Formulary.Function.Builtin
import Formulary.Number.Mean

/-!
# The standard functions

* `roundToPlaces` : rounding at a decimal place;
* `sumIntegers`, `extremum?` : folds over arguments;
* `Builtin.standard` : all standard functions.
-/

namespace Formulary

/-! ## Rounding -/

/-- The greatest number of places that rounding accepts. -/
def maxPlaces : Nat := 10

/-- Rounds the double nearest to `x * 10 ^ places` to a whole number and scales it back. -/
def roundToPlaces (mode : Number.Rounding) (places : Nat) (x : Float) : Float :=
  let factor := Float.ofNat (Nat.pow 10 places)
  Number.roundToWhole mode (x * factor) / factor

/-- The number of places that an argument names. -/
def placesArgument (call : Call) (index : Nat) : Except FunctionError Nat := do
  let places ← call.integer index
  if 0 ≤ places ∧ places ≤ maxPlaces then return places.toNat
  else
    throw (.outOfRange call.name index
      ("precision should be between 0 and " ++ toString maxPlaces ++ ", got " ++ toString places))

/-- A function that rounds its first argument to the places that its second one names. -/
def Builtin.rounding (name documentation : String) (mode : Number.Rounding) : Builtin where
  signature := ⟨name, [⟨"value", .number, false⟩, ⟨"precision", .integer, false⟩], false⟩
  documentation := documentation
  evaluate call := do
    let places ← placesArgument call 1
    return .number (roundToPlaces mode places (call.number 0))

/-! ## Sums and extrema -/

/-- Whether an integer fits 64 bits. -/
def fitsInt64 (n : Int) : Bool :=
  Number.int64Least ≤ n && n ≤ Number.int64Greatest

/-- Adds the arguments from position `index` on to a total that has to fit 64 bits after every
addition. -/
def sumIntegersFrom (call : Call) (index : Nat) (total : Int) :
    List Argument → Except FunctionError Int
  | [] => .ok total
  | argument :: rest =>
    match argument.integer with
    | .error e => .error (.invalidArgument call.name index e.message)
    | .ok n =>
      if fitsInt64 (total + n) then sumIntegersFrom call (index + 1) (total + n) rest
      else .error (.evaluation call.name "integer overflow")

/-- The sum of the arguments as integers. -/
def sumIntegers (call : Call) : Except FunctionError Int :=
  sumIntegersFrom call 0 0 call.arguments

/-- The argument that no later one is better than; an earlier one wins a tie. -/
def extremumFrom (better : Float → Float → Bool) (best : Argument) : List Argument → Argument
  | [] => best
  | argument :: rest =>
    extremumFrom better (if better argument.number best.number then argument else best) rest

/-- The best of the arguments, if there is one. -/
def extremum? (better : Float → Float → Bool) : List Argument → Option Argument
  | [] => none
  | first :: rest => some (extremumFrom better first rest)

/-- A function that answers the best of its arguments. -/
def Builtin.extremum (name documentation : String) (better : Float → Float → Bool) : Builtin where
  signature := ⟨name, [], true⟩
  documentation := documentation
  evaluate call := .ok (((extremum? better call.arguments).map Argument.value).getD .undefined)

/-! ## The functions -/

/-- The absolute value of a number. -/
def Builtin.absolute : Builtin where
  signature := ⟨"$ABS", [⟨"value", .number, false⟩], false⟩
  documentation := "Returns the absolute value of the argument after numeric conversion."
  evaluate call := .ok (.number (call.number 0).abs)

/-- The arithmetic mean of at least one number. -/
def Builtin.mean : Builtin where
  signature := ⟨"$AVG", [⟨"value", .number, false⟩], true⟩
  documentation :=
    "Returns the arithmetic mean of the arguments, accumulated in decimal precision."
  evaluate call := .ok (.number (Number.mean call.numbers))

/-- Rounding to the nearest decimal. -/
def Builtin.roundNearest : Builtin :=
  .rounding "$RND"
    "Rounds the value to the given number of decimal digits (0 to 10), halves away from zero."
    .nearest

/-- Rounding down. -/
def Builtin.roundDown : Builtin :=
  .rounding "$FLOOR" "Rounds the value down to the given number of decimal digits (0 to 10)." .down

/-- Rounding up. -/
def Builtin.roundUp : Builtin :=
  .rounding "$CEIL" "Rounds the value up to the given number of decimal digits (0 to 10)." .up

/-- The argument with the smallest number. -/
def Builtin.smallest : Builtin :=
  .extremum "$MIN"
    "Returns the argument with the smallest numeric value; ties keep the earlier argument."
    fun x best => x < best

/-- The argument with the largest number. -/
def Builtin.largest : Builtin :=
  .extremum "$MAX"
    "Returns the argument with the largest numeric value; ties keep the earlier argument."
    fun x best => best < x

/-- The sum of integers. -/
def Builtin.integerSum : Builtin where
  signature := ⟨"$SUMI", [], true⟩
  documentation :=
    "Sums the arguments as integers. Each argument is truncated toward zero; NaN is rejected."
  evaluate call := (sumIntegers call).map fun total => .number (Number.ofInt total)

/-- The sum of numbers. -/
def Builtin.floatSum : Builtin where
  signature := ⟨"$SUMF", [], true⟩
  documentation := "Sums the arguments as floating point numbers."
  evaluate call := .ok (.number (Number.sum call.numbers))

/-- The choice between two values. -/
def Builtin.choice : Builtin where
  signature :=
    ⟨"$IF", [⟨"condition", .boolean, false⟩, ⟨"then", .any, false⟩, ⟨"otherwise", .any, false⟩],
     false⟩
  documentation := "Returns the second argument when the first is truthy, otherwise the third."
  evaluate call := .ok (if call.truth 0 then call.value 1 else call.value 2)

/-- All standard functions. -/
def Builtin.standard : List Builtin :=
  [.absolute, .mean, .roundNearest, .roundDown, .roundUp, .smallest, .largest, .integerSum,
   .floatSum, .choice]

end Formulary
