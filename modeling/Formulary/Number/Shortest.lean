import Formulary.Number.Binary

/-!
# The fewest digits that read back

* `Decimal` : a decimal `digits * 10 ^ exponent`;
* `Binary.readsBack` : the decimals among the reals that round to a given double;
* `neighbour?` : the decimal nearest to the double on one grid, if it reads back;
* `shortest` : the decimal with the fewest digits that reads back, the nearest of those.
-/

namespace Formulary.Number

/-- The decimal `digits * 10 ^ exponent`. -/
structure Decimal where
  digits : Nat
  exponent : Int
  deriving DecidableEq, Repr

/-- Where an exact tie between two neighbours goes. -/
inductive Tie where
  | toEven
  | upward
  deriving DecidableEq, Repr

/-- The order of `a * 10 ^ i` and `n * 2 ^ j`. -/
def compareScaled (a : Nat) (i : Int) (n : Nat) (j : Int) : Ordering :=
  compare (a * Nat.pow 10 i.toNat * Nat.pow 2 (-j).toNat)
    (n * Nat.pow 2 j.toNat * Nat.pow 10 (-i).toNat)

/-- The double below is only half as far away as the double above: at powers of two, where the
spacing changes. -/
def Binary.narrowBelow (b : Binary) : Bool :=
  b.significand == Binary.implicitBit && b.exponent != -1074

/-- Whether `d` lies between the midpoints to the two neighbouring doubles. A midpoint itself
rounds to the neighbour with the even significand. -/
def Binary.readsBack (b : Binary) (d : Decimal) : Bool :=
  let low := if b.narrowBelow then 4 * b.significand - 1 else 4 * b.significand - 2
  let high := 4 * b.significand + 2
  let atLow := compareScaled d.digits d.exponent low (b.exponent - 2)
  let atHigh := compareScaled d.digits d.exponent high (b.exponent - 2)
  let closed := b.significand % 2 == 0
  (atLow == .gt || (closed && atLow == .eq)) && (atHigh == .lt || (closed && atHigh == .eq))

/-- The least `k` with `significand * 2 ^ exponent < 10 ^ k`, found from the binary logarithm. -/
def Binary.magnitude (b : Binary) : Int :=
  let estimate := ((b.significand.log2 + b.exponent) * 30103).fdiv 100000
  let below (k : Int) : Bool := compareScaled 1 k b.significand b.exponent == .gt
  if below estimate then estimate
  else if below (estimate + 1) then estimate + 1
  else estimate + 2

/-- The neighbours of the double on the grid `10 ^ exponent` that read back; the nearer of two, and
of two equally near the one that the tie rule names. -/
def neighbour? (tie : Tie) (b : Binary) (exponent : Int) : Option Decimal :=
  let num := b.significand * Nat.pow 2 b.exponent.toNat * Nat.pow 10 (-exponent).toNat
  let den := Nat.pow 2 (-b.exponent).toNat * Nat.pow 10 exponent.toNat
  let low : Decimal := ⟨num / den, exponent⟩
  let high : Decimal := ⟨num / den + 1, exponent⟩
  match b.readsBack low, b.readsBack high with
  | false, false => none
  | true, false => some low
  | false, true => some high
  | true, true =>
    match compare (2 * num) ((2 * low.digits + 1) * den), tie with
    | .lt, _ => some low
    | .gt, _ => some high
    | .eq, .upward => some high
    | .eq, .toEven => if low.digits % 2 = 0 then some low else some high

/-- Moves factors of ten from the digits into the exponent, at most `fuel` of them. -/
def stripZeros : Nat → Decimal → Decimal
  | 0, d => d
  | fuel + 1, d =>
    if d.digits % 10 = 0 ∧ d.digits ≠ 0 then stripZeros fuel ⟨d.digits / 10, d.exponent + 1⟩ else d

/-- The exact decimal value of a binary fraction. -/
def Binary.exact (b : Binary) : Decimal :=
  ⟨b.significand * Nat.pow 2 b.exponent.toNat * Nat.pow 5 (-b.exponent).toNat, min b.exponent 0⟩

/-- The fewest digits that identify the magnitude of `b`, which is not zero. Grids are tried from
one digit up to seventeen, which always suffice. -/
def shortest (tie : Tie) (b : Binary) : Decimal :=
  let top := b.magnitude
  let found := (List.range 17).findSome? fun (n : Nat) => neighbour? tie b (top - (n + 1 : Nat))
  stripZeros 17 (found.getD b.exact)

end Formulary.Number
