/-!
# Doubles as binary fractions

A finite double is a sign, a natural number and a power of two. Everything that has to be exact is
computed on these three.

* `Binary.ofFloat` : the parts of a finite double;
* `wholePart`, `isWhole`, `truncate` : the integer part and whether it is all there is;
* `roundToWhole` with `trunc`, `floor`, `ceil`, `round` : rounding a double to a whole double;
* `remainder` : the remainder of the division that truncates, exact and with the sign of the
  dividend;
* `clampInt64`, `clampIndex` : the integer part held inside the range of a 64-bit integer.
-/

namespace Formulary.Number

/-- The finite number `significand * 2 ^ exponent`, negated when `negative`. -/
structure Binary where
  negative : Bool
  significand : Nat
  exponent : Int
  deriving DecidableEq, Repr

/-- The leading bit of a normal significand, which the bits of a double leave out: `2 ^ 52`. -/
def Binary.implicitBit : Nat := 0x10000000000000

/-- Reads the bits of a finite double. -/
def Binary.ofBits (bits : UInt64) : Binary :=
  let field := ((bits >>> 52) &&& 0x7FF).toNat
  let fraction := (bits &&& 0xFFFFFFFFFFFFF).toNat
  let negative := bits >>> 63 == 1
  if field = 0 then ⟨negative, fraction, -1074⟩
  else ⟨negative, implicitBit + fraction, (field : Int) - 1075⟩

/-- The parts of a finite double. -/
def Binary.ofFloat (x : Float) : Binary :=
  Binary.ofBits x.toBits

/-- The largest natural number that is not above the magnitude. -/
def Binary.wholePart (b : Binary) : Nat :=
  if 0 ≤ b.exponent then b.significand * Nat.pow 2 b.exponent.toNat
  else b.significand / Nat.pow 2 (-b.exponent).toNat

/-- What the magnitude has beyond its whole part, counted in units of `2 ^ exponent`. -/
def Binary.fractionUnits (b : Binary) : Nat :=
  if 0 ≤ b.exponent then 0 else b.significand % Nat.pow 2 (-b.exponent).toNat

/-- Whether the double is finite and has no fraction. -/
def isWhole (x : Float) : Bool :=
  x.isFinite && (Binary.ofFloat x).fractionUnits == 0

/-- The integer part of a finite double; zero for the others. -/
def truncate (x : Float) : Int :=
  if x.isFinite then
    let b := Binary.ofFloat x
    if b.negative then -(b.wholePart : Int) else b.wholePart
  else 0

/-- The double nearest to an integer, a half going to the even neighbour. -/
def ofInt (n : Int) : Float :=
  Float.ofInt n

/-- A magnitude with a sign, which zero keeps. -/
def signed (negative : Bool) (magnitude : Float) : Float :=
  if negative then -magnitude else magnitude

/-- Ways of rounding to a whole number. -/
inductive Rounding where
  /-- Toward zero. -/
  | towardZero
  /-- Toward negative infinity. -/
  | down
  /-- Toward positive infinity. -/
  | up
  /-- To the nearest, a half away from zero. -/
  | nearest
  deriving DecidableEq, Repr

/-- Whether the magnitude of `b`, which has a fraction, is rounded up. -/
def Rounding.raises (mode : Rounding) (b : Binary) : Bool :=
  match mode with
  | .towardZero => false
  | .down => b.negative
  | .up => !b.negative
  | .nearest => Nat.pow 2 (-b.exponent).toNat ≤ 2 * b.fractionUnits

/-- Rounds to a whole double; a double without a fraction, an infinity and NaN stay as they are. -/
def roundToWhole (mode : Rounding) (x : Float) : Float :=
  if x.isFinite then
    let b := Binary.ofFloat x
    if b.fractionUnits = 0 then x
    else signed b.negative (Float.ofNat (b.wholePart + if mode.raises b then 1 else 0))
  else x

/-- Drops the fraction. -/
def trunc (x : Float) : Float := roundToWhole .towardZero x

/-- The largest whole number that is not above `x`. -/
def floor (x : Float) : Float := roundToWhole .down x

/-- The smallest whole number that is not below `x`. -/
def ceil (x : Float) : Float := roundToWhole .up x

/-- The nearest whole number, a half going away from zero. -/
def round (x : Float) : Float := roundToWhole .nearest x

/-- The double `m * 2 ^ e`, rounded to nearest where it has no double of its own. -/
def ofBinary (m : Nat) (e : Int) : Float :=
  if 0 ≤ e then Float.ofNat (m * Nat.pow 2 e.toNat)
  else
    let k := (-e).toNat
    if m % Nat.pow 2 k = 0 then Float.ofNat (m / Nat.pow 2 k)
    else Float.ofScientific (m * Nat.pow 5 k) true k

/-- The remainder of the division that truncates its quotient. It has the sign of the dividend;
there is none for an infinite dividend or a zero divisor. -/
def remainder (x y : Float) : Float :=
  if x.isNaN || y.isNaN || x.isInf || y == 0 then 0 / 0
  else if y.isInf || x == 0 then x
  else
    let a := Binary.ofFloat x
    let b := Binary.ofFloat y
    let e := min a.exponent b.exponent
    let m := a.significand * Nat.pow 2 (a.exponent - e).toNat
    let n := b.significand * Nat.pow 2 (b.exponent - e).toNat
    signed a.negative (ofBinary (m % n) e)

/-- The least signed 64-bit integer. -/
def int64Least : Int := -0x8000000000000000

/-- The greatest signed 64-bit integer. -/
def int64Greatest : Int := 0x7FFFFFFFFFFFFFFF

/-- The greatest unsigned 64-bit integer. -/
def uint64Greatest : Nat := 0xFFFFFFFFFFFFFFFF

/-- The integer part held inside the range of a signed 64-bit integer. -/
def clampInt64 (x : Float) : Int :=
  if x.isInf then (if 0 < x then int64Greatest else int64Least)
  else max int64Least (min (truncate x) int64Greatest)

/-- The integer part held inside the range of an unsigned 64-bit integer. -/
def clampIndex (x : Float) : Nat :=
  if x.isInf then (if 0 < x then uint64Greatest else 0)
  else min (truncate x).toNat uint64Greatest

end Formulary.Number
