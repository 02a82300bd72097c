import Formulary.Number.Shortest

/-!
# Numbers as text

* `Layout` : the decisions of a number format;
* `scriptLayout`, `exchangeLayout` : the format of scripts and that of exchanged JSON;
* `text` : a number as a script prints it;
* `fixed` : a number with a fixed count of decimal places.
-/

namespace Formulary.Number

/-- The decisions of a number format. A number whose leading digit stands for `10 ^ e` is written
with a plain point when `plainFrom ≤ e < plainBelow`, otherwise with an exponent. -/
structure Layout where
  plainFrom : Int
  plainBelow : Int
  /-- Whole numbers in plain form end in `.0`. -/
  wholePoint : Bool
  /-- Which of two equally near digit strings is chosen. -/
  tie : Tie

/-- Scripts print plain numbers from `1e-6` up to `1e21`. -/
def scriptLayout : Layout where
  plainFrom := -6
  plainBelow := 21
  wholePoint := false
  tie := .upward

/-- Exchanged text prints plain numbers from `1e-5` up to `1e16` and marks whole ones. -/
def exchangeLayout : Layout where
  plainFrom := -5
  plainBelow := 16
  wholePoint := true
  tie := .toEven

/-- The decimal digits of a natural number. -/
def digitChars (n : Nat) : List Char :=
  Nat.toDigits 10 n

/-- `n` zeros. -/
def zeros (n : Nat) : List Char :=
  List.replicate n '0'

/-- Digits with the point behind the first `point` of them; zeros fill the places that the digits
do not reach. -/
def placePoint (wholePoint : Bool) (digits : List Char) (point : Int) : List Char :=
  if point ≤ 0 then ['0', '.'] ++ zeros (-point).toNat ++ digits
  else if digits.length ≤ point.toNat then
    digits ++ zeros (point.toNat - digits.length) ++ (if wholePoint then ['.', '0'] else [])
  else digits.take point.toNat ++ ['.'] ++ digits.drop point.toNat

/-- Digits with a point behind the first one and an exponent. -/
def withExponent (digits : List Char) (e : Int) : List Char :=
  let mantissa :=
    match digits with
    | first :: second :: rest => first :: '.' :: second :: rest
    | short => short
  mantissa ++ ['e', if e < 0 then '-' else '+'] ++ digitChars e.natAbs

/-- Lays out a decimal that is not zero. -/
def Layout.arrange (layout : Layout) (d : Decimal) : List Char :=
  let digits := digitChars d.digits
  let e := digits.length - 1 + d.exponent
  if layout.plainFrom ≤ e ∧ e < layout.plainBelow then
    placePoint layout.wholePoint digits (e + 1)
  else withExponent digits e

/-- The text of a finite number that is not zero: the fewest digits that identify it. -/
def Layout.write (layout : Layout) (x : Float) : List Char :=
  let b := Binary.ofFloat x
  (if b.negative then ['-'] else []) ++ layout.arrange (shortest layout.tie b)

/-- A number as scripts print it. Both zeros print alike. -/
def text (x : Float) : String :=
  if x.isNaN then "NaN"
  else if x.isInf then (if 0 < x then "Infinity" else "-Infinity")
  else if x == 0 then "0"
  else String.ofList (scriptLayout.write x)

/-- The quotient rounded to a natural number, a half going to the even neighbour. -/
def divideToEven (num den : Nat) : Nat :=
  let q := num / den
  match compare (2 * (num % den)) den with
  | .lt => q
  | .gt => q + 1
  | .eq => if q % 2 = 0 then q else q + 1

/-- A number with `places` decimal places, rounded from its exact value, a half going to the even
neighbour. A negative number keeps its sign even where only zeros are left. -/
def fixed (places : Nat) (x : Float) : String :=
  if x.isNaN then "NaN"
  else if x.isInf then (if 0 < x then "inf" else "-inf")
  else
    let b := Binary.ofFloat x
    let units := divideToEven (b.significand * Nat.pow 2 b.exponent.toNat * Nat.pow 10 places)
      (Nat.pow 2 (-b.exponent).toNat)
    let digits := digitChars units
    let padded := zeros (places + 1 - digits.length) ++ digits
    let split := padded.length - places
    String.ofList ((if b.negative then ['-'] else []) ++ padded.take split
      ++ (if places = 0 then [] else '.' :: padded.drop split))

end Formulary.Number
