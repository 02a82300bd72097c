import Formulary.Number.Layout
import Formulary.Number.Reading

/-!
# Means in decimal arithmetic

* `Scaled` : a decimal with at most 28 places whose coefficient stays below `2 ^ 96`;
* `Scaled.add?`, `Scaled.divide` : sum and quotient, rounded to the places that fit;
* `mean` : the arithmetic mean, in decimal as long as every step fits and in doubles otherwise.
-/

namespace Formulary.Number

/-- The decimal `coefficient / 10 ^ places`. -/
structure Scaled where
  coefficient : Int
  places : Nat
  deriving DecidableEq, Repr

/-- The largest magnitude of a coefficient. -/
def Scaled.limit : Nat := 0xFFFFFFFFFFFFFFFFFFFFFFFF

/-- The largest number of places. -/
def Scaled.maxPlaces : Nat := 28

/-- `n` with the sign of `reference`. -/
def withSignOf (reference : Int) (n : Nat) : Int :=
  if reference < 0 then -(n : Int) else n

/-- The coefficient with as many places as fit the limit, a dropped half going to the even
neighbour. -/
def Scaled.fit? (coefficient : Int) (places : Nat) : Option Scaled :=
  (List.range (places + 1)).findSome? fun dropped =>
    let kept := divideToEven coefficient.natAbs (Nat.pow 10 dropped)
    if kept ≤ Scaled.limit then some ⟨withSignOf coefficient kept, places - dropped⟩ else none

/-- A decimal cut to 28 places, a half going away from zero. There is none when the digits before
the point do not fit. -/
def Scaled.ofDecimal? (negative : Bool) (d : Decimal) : Option Scaled :=
  let coefficient :=
    if 0 ≤ d.exponent then d.digits * Nat.pow 10 d.exponent.toNat
    else
      let dropped := (-d.exponent).toNat - Scaled.maxPlaces
      (2 * d.digits + Nat.pow 10 dropped) / (2 * Nat.pow 10 dropped)
  if coefficient ≤ Scaled.limit then
    some ⟨if negative then -(coefficient : Int) else coefficient,
      min (-d.exponent).toNat Scaled.maxPlaces⟩
  else none

/-- The decimal that the fewest digits of a finite double write. -/
def Scaled.ofFloat? (x : Float) : Option Scaled :=
  if !x.isFinite then none
  else if x == 0 then some ⟨0, 0⟩
  else
    let b := Binary.ofFloat x
    Scaled.ofDecimal? b.negative (shortest .upward b)

/-- The coefficient that the decimal has when written with more places. -/
def Scaled.scaledTo (a : Scaled) (places : Nat) : Int :=
  a.coefficient * (Nat.pow 10 (places - a.places) : Nat)

/-- The sum, unless its digits before the point do not fit. -/
def Scaled.add? (a b : Scaled) : Option Scaled :=
  let places := max a.places b.places
  Scaled.fit? (a.scaledTo places + b.scaledTo places) places

/-- The quotient by a positive count with as many places as fit, a half going to the even
neighbour. -/
def Scaled.divide (a : Scaled) (count : Nat) : Scaled :=
  let quotient (places : Nat) : Nat :=
    divideToEven (a.coefficient.natAbs * Nat.pow 10 places) (count * Nat.pow 10 a.places)
  let found := (List.range (Scaled.maxPlaces + 1)).findSome? fun (dropped : Nat) =>
    let places := Scaled.maxPlaces - dropped
    if quotient places ≤ Scaled.limit then some (Scaled.mk (quotient places) places) else none
  let magnitude := found.getD ⟨quotient 0, 0⟩
  ⟨withSignOf a.coefficient magnitude.coefficient.natAbs, magnitude.places⟩

/-- The double nearest to the decimal. -/
def Scaled.toFloat (a : Scaled) : Float :=
  signed (a.coefficient < 0) (ofDecimal a.coefficient.natAbs (-(a.places : Int)))

/-- The sum of doubles from left to right. The sum of none is negative zero. -/
def sum (xs : List Float) : Float :=
  xs.foldl (· + ·) (-0.0)

/-- The sum of doubles in decimal arithmetic, unless a value or a partial sum does not fit. -/
def decimalSum? (start : Scaled) : List Float → Option Scaled
  | [] => some start
  | x :: xs => do
    let next ← start.add? (← Scaled.ofFloat? x)
    decimalSum? next xs

/-- The mean in decimal arithmetic, unless a step does not fit. -/
def decimalMean? (xs : List Float) : Option Float :=
  (decimalSum? ⟨0, 0⟩ xs).map fun total => (total.divide xs.length).toFloat

/-- The arithmetic mean of a list that is not empty. -/
def mean (xs : List Float) : Float :=
  (decimalMean? xs).getD (sum xs / Float.ofNat xs.length)

end Formulary.Number
