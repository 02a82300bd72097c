import Formulary.Number.Binary
import Formulary.Text.Blank

/-!
# Reading numbers

* `Numeral`, `Numeral.scan` : an unsigned decimal numeral, the longest one at the head of a text;
* `Numeral.value` : the double nearest to a numeral;
* `ofText` : a whole text as a number, the way scripts convert text;
* `leadingNumber`, `leadingInteger` : the number a text begins with.
-/

namespace Formulary.Number

/-- Positive infinity. -/
def infinity : Float := 1 / 0

/-- Not a number. -/
def nan : Float := 0 / 0

/-- The value of a digit in bases up to 36. -/
def digitValue? (c : Char) : Option Nat :=
  if '0' ≤ c ∧ c ≤ '9' then some (c.toNat - '0'.toNat)
  else if 'a' ≤ c ∧ c ≤ 'z' then some (c.toNat - 'a'.toNat + 10)
  else if 'A' ≤ c ∧ c ≤ 'Z' then some (c.toNat - 'A'.toNat + 10)
  else none

/-- The value of a digit below `base`. -/
def digitIn? (base : Nat) (c : Char) : Option Nat :=
  (digitValue? c).filter (· < base)

/-- The natural number that digits write in a base. -/
def natOfDigits (base : Nat) (digits : List Char) : Nat :=
  digits.foldl (fun n c => n * base + (digitValue? c).getD 0) 0

/-- The double nearest to `m * 10 ^ e`, a half going to the even neighbour. Exponents beyond every
double are settled without computing the power. -/
def ofDecimal (m : Nat) (e : Int) : Float :=
  if m = 0 then 0
  else if 400 < e then infinity
  else if e + m.log2 + 1 < -400 then 0
  else Float.ofScientific m (e < 0) e.natAbs

/-! ## Numerals -/

/-- The pieces of an unsigned decimal numeral: digits, digits behind a point, and an exponent. -/
structure Numeral where
  whole : List Char
  fraction : Option (List Char)
  exponent : Option (List Char × List Char)
  deriving DecidableEq, Repr

/-- The characters of a numeral. The exponent holds its mark with the sign, then its digits. -/
def Numeral.chars (n : Numeral) : List Char :=
  n.whole
    ++ (match n.fraction with | some digits => '.' :: digits | none => [])
    ++ (match n.exponent with | some (mark, digits) => mark ++ digits | none => [])

/-- Whether there is a digit before the exponent. -/
def Numeral.hasDigit (n : Numeral) : Bool :=
  !n.whole.isEmpty || (n.fraction.any fun digits => !digits.isEmpty)

/-- The power of ten that the exponent names. -/
def Numeral.power (n : Numeral) : Int :=
  match n.exponent with
  | some (mark, digits) =>
    let e := natOfDigits 10 digits
    if mark.contains '-' then -(e : Int) else e
  | none => 0

/-- The double nearest to the numeral. -/
def Numeral.value (n : Numeral) : Float :=
  let fraction := n.fraction.getD []
  ofDecimal (natOfDigits 10 (n.whole ++ fraction)) (n.power - fraction.length)

/-- The mark of an exponent with its sign, and the rest of the text. -/
def scanMark? : List Char → Option (List Char × List Char)
  | [] => none
  | mark :: rest =>
    if mark = 'e' ∨ mark = 'E' then
      match rest with
      | '+' :: digits => some ([mark, '+'], digits)
      | '-' :: digits => some ([mark, '-'], digits)
      | digits => some ([mark], digits)
    else none

/-- A complete exponent at the head of the text; without a digit there is none. -/
def scanExponent (text : List Char) : Option (List Char × List Char) × List Char :=
  match scanMark? text with
  | none => (none, text)
  | some (mark, rest) =>
    match rest.takeWhile Char.isDigit with
    | [] => (none, text)
    | digit :: digits => (some (mark, digit :: digits), rest.dropWhile Char.isDigit)

/-- A point and the digits behind it. -/
def scanFraction : List Char → Option (List Char) × List Char
  | '.' :: rest => (some (rest.takeWhile Char.isDigit), rest.dropWhile Char.isDigit)
  | text => (none, text)

/-- The longest numeral at the head of the text, and what follows it. -/
def Numeral.scan (text : List Char) : Numeral × List Char :=
  let (fraction, afterFraction) := scanFraction (text.dropWhile Char.isDigit)
  let (exponent, rest) := scanExponent afterFraction
  (⟨text.takeWhile Char.isDigit, fraction, exponent⟩, rest)

/-- The value of a text that is one numeral with at least one digit before the exponent. -/
def Numeral.ofText? (text : List Char) : Option Numeral :=
  let (numeral, rest) := Numeral.scan text
  if rest.isEmpty && numeral.hasDigit then some numeral else none

/-! ## Whole texts -/

/-- A sign at the head of a text, true for minus, and the rest. -/
def takeSign : List Char → Bool × List Char
  | '-' :: rest => (true, rest)
  | '+' :: rest => (false, rest)
  | text => (false, text)

/-- A signed numeral as a double. -/
def decimalOfText? (text : List Char) : Option Float :=
  let (negative, unsigned) := takeSign text
  (Numeral.ofText? unsigned).map fun numeral => signed negative numeral.value

/-- Hexadecimal digits with an optional sign, inside the range of a signed 64-bit integer. -/
def hexOfText? (text : List Char) : Option Int :=
  let (negative, digits) := takeSign text
  if digits.isEmpty || digits.any (digitIn? 16 · |>.isNone) then none
  else
    let n : Int := natOfDigits 16 digits
    let value := if negative then -n else n
    if int64Least ≤ value ∧ value ≤ int64Greatest then some value else none

/-- The word that reads as the largest number. -/
def infinityWord : List Char := "Infinity".toList

/-- The rest of a text behind `0x` or `0X`. -/
def hexDigits? : List Char → Option (List Char)
  | '0' :: 'x' :: rest => some rest
  | '0' :: 'X' :: rest => some rest
  | _ => none

/-- A text as a number. Blanks around it do not count and a blank text is zero; a text that is not
one complete numeral is NaN. -/
def ofText (text : List Char) : Float :=
  let trimmed := Text.trim text
  if trimmed.isEmpty then 0
  else
    let (negative, unsigned) := takeSign trimmed
    if unsigned = infinityWord then signed negative infinity
    else
      match hexDigits? unsigned with
      | some digits =>
        if unsigned.length = trimmed.length then ((hexOfText? digits).map ofInt).getD nan else nan
      | none => ((decimalOfText? unsigned).map (signed negative)).getD nan

/-! ## Leading numbers -/

/-- The number that a text begins with, after blanks and a sign; NaN where it begins with none. -/
def leadingNumber (text : List Char) : Float :=
  let (negative, unsigned) := takeSign (Text.trimStart text)
  if infinityWord.isPrefixOf unsigned then signed negative infinity
  else
    let (numeral, _) := Numeral.scan unsigned
    if numeral.hasDigit then signed negative numeral.value else nan

/-- The digits below `base` at the head of a text, accumulated in double arithmetic. -/
def accumulate (base : Nat) (digits : List Char) : Float :=
  digits.foldl (fun x c => x * Float.ofNat base + Float.ofNat ((digitValue? c).getD 0)) 0

/-- The integer that a text begins with in the given base. Base zero stands for ten, or for sixteen
behind `0x`; in base sixteen that mark may also stand. -/
def leadingInteger (text : List Char) (base : Int) : Float :=
  let (negative, unsigned) := takeSign (Text.trimStart text)
  let (base, digits) :=
    if base = 0 ∨ base = 16 then
      match hexDigits? unsigned with
      | some rest => (16, rest)
      | none => (if base = 0 then 10 else base, unsigned)
    else (base, unsigned)
  if base < 2 ∨ 36 < base then nan
  else
    match digits.takeWhile (digitIn? base.toNat · |>.isSome) with
    | [] => nan
    | found => signed negative (accumulate base.toNat found)

end Formulary.Number
