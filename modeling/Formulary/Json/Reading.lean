import Formulary.Json.Basic

/-!
# Reading JSON

* `Json.maxNesting` : how many brackets may be open at once;
* `Json.Scrutiny` : how closely strings and numbers are looked at;
* `Json.parse?` : the value that a text writes, members in the order of the text;
* `Json.parseRecord?` : the same for a record, of whose unknown members only the shape counts;
* `Json.read?` : the value of a text in canonical form.

A reading function returns what it has read and the rest of the text, or nothing where the text is
malformed.
-/

namespace Formulary.Json

/-- How many brackets may be open at once. -/
def maxNesting : Nat := 127

/-- What stands in for the diagnosis of a malformed text. -/
def faultText : String := "<json>"

/-- Whether a character may stand between the parts of a value. -/
def isGap (c : Char) : Bool :=
  c == ' ' || c == '\n' || c == '\t' || c == '\r'

/-- The text behind leading gaps. -/
def skipGaps (text : List Char) : List Char :=
  text.dropWhile isGap

/-- The value of four hexadecimal digits. -/
def codeUnit? (a b c d : Char) : Option Nat := do
  let digits ← [a, b, c, d].mapM (Number.digitIn? 16)
  return digits.foldl (fun n digit => n * 16 + digit) 0

/-- The character that a letter behind a backslash stands for. -/
def unescape? (c : Char) : Option Char :=
  if c = '"' ∨ c = '\\' ∨ c = '/' then some c
  else if c = 'b' then some (Char.ofNat 8)
  else if c = 'f' then some (Char.ofNat 12)
  else if c = 'n' then some '\n'
  else if c = 'r' then some '\r'
  else if c = 't' then some '\t'
  else none

/-- The body of a string up to its closing quote. Code points beyond 16 bits are written as two
surrogates; a surrogate alone is malformed, and so is a bare control character. -/
def readString : List Char → Option (List Char × List Char)
  | [] => none
  | '"' :: rest => some ([], rest)
  | '\\' :: 'u' :: a :: b :: c :: d :: rest =>
    match codeUnit? a b c d with
    | none => none
    | some unit =>
      if unit < 0xD800 ∨ 0xE000 ≤ unit then
        (readString rest).map fun (body, rest) => (Char.ofNat unit :: body, rest)
      else if 0xDC00 ≤ unit then none
      else
        match rest with
        | '\\' :: 'u' :: a :: b :: c :: d :: rest =>
          match codeUnit? a b c d with
          | none => none
          | some low =>
            if 0xDC00 ≤ low ∧ low < 0xE000 then
              let code := 0x10000 + (unit - 0xD800) * 0x400 + (low - 0xDC00)
              (readString rest).map fun (body, rest) => (Char.ofNat code :: body, rest)
            else none
        | _ => none
  | '\\' :: c :: rest =>
    match unescape? c with
    | none => none
    | some c => (readString rest).map fun (body, rest) => (c :: body, rest)
  | c :: rest =>
    if c.toNat < 32 ∨ c = '\\' then none
    else (readString rest).map fun (body, rest) => (c :: body, rest)

/-- A string up to its closing quote, of which only the shape counts: surrogates may stand alone. -/
def passString : List Char → Option (List Char)
  | [] => none
  | '"' :: rest => some rest
  | '\\' :: 'u' :: a :: b :: c :: d :: rest =>
    if (codeUnit? a b c d).isSome then passString rest else none
  | '\\' :: c :: rest => if (unescape? c).isSome then passString rest else none
  | c :: rest => if c.toNat < 32 ∨ c = '\\' then none else passString rest

/-- An integer that fits 64 bits stays one; another becomes a double, and so does negative zero.
Only a number beyond every double is refused. -/
def ofInteger? (negative : Bool) (n : Nat) : Option JsonNumber :=
  let x := Number.ofDecimal n 0
  if x.isInf then none
  else if negative then
    if n ≠ 0 ∧ n ≤ 0x8000000000000000 then some (.integer (-n)) else some (.real (-x))
  else if n ≤ Number.uint64Greatest then some (.integer n) else some (.real x)

/-- A numeral with its sign at the head of a text, and what follows it: digits without leading
zeros, a fraction and an exponent, each with a digit. -/
def scanNumber? (text : List Char) : Option (Bool × Number.Numeral × List Char) :=
  let (negative, unsigned) :=
    match text with
    | '-' :: rest => (true, rest)
    | rest => (false, rest)
  let (numeral, rest) := Number.Numeral.scan unsigned
  let whole := numeral.whole
  if whole.isEmpty || (whole.length ≠ 1 && whole.head? == some '0') then none
  else if numeral.fraction == some [] then none
  else if numeral.exponent.isNone && (Number.scanMark? rest).isSome then none
  else some (negative, numeral, rest)

/-- The number that a numeral with a sign writes, unless it is beyond every double. -/
def ofNumeral? (negative : Bool) (numeral : Number.Numeral) : Option JsonNumber :=
  if numeral.fraction.isNone && numeral.exponent.isNone then
    ofInteger? negative (Number.natOfDigits 10 numeral.whole)
  else
    let x := numeral.value
    if x.isInf then none else some (.real (Number.signed negative x))

/-- A number. -/
def readNumber (text : List Char) : Option (JsonNumber × List Char) := do
  let (negative, numeral, rest) ← scanNumber? text
  return (← ofNumeral? negative numeral, rest)

/-- The rest of a text behind a word. -/
def readWord (word : List Char) (text : List Char) : Option (List Char) :=
  if word.isPrefixOf text then some (text.drop word.length) else none

/-- How closely strings and numbers are looked at. -/
inductive Scrutiny where
  /-- They are read, and have to denote something. -/
  | content
  /-- They only have to be well formed; something else stands in for them. -/
  | shape
  deriving DecidableEq, Repr

/-- The body of a string up to its closing quote. -/
def Scrutiny.string (scrutiny : Scrutiny) (text : List Char) : Option (List Char × List Char) :=
  match scrutiny with
  | content => readString text
  | shape => (passString text).map fun rest => ([], rest)

/-- A number. -/
def Scrutiny.number (scrutiny : Scrutiny) (text : List Char) : Option (JsonNumber × List Char) :=
  match scrutiny with
  | content => readNumber text
  | shape => (scanNumber? text).map fun (_, _, rest) => (.integer 0, rest)

/-! ## Containers around the reading of what they hold -/

/-- At most `bound` items of an array that is open and not empty, up to its closing bracket. -/
def readItems (value : List Char → Option (Json × List Char)) :
    Nat → List Char → Option (List Json × List Char)
  | 0, _ => none
  | bound + 1, text =>
    match value text with
    | none => none
    | some (item, rest) =>
      match skipGaps rest with
      | ']' :: rest => some ([item], rest)
      | ',' :: rest => (readItems value bound rest).map fun (items, rest) => (item :: items, rest)
      | _ => none

/-- An array behind its opening bracket. -/
def readArray (value : List Char → Option (Json × List Char)) (bound : Nat) (text : List Char) :
    Option (Json × List Char) :=
  match skipGaps text with
  | ']' :: rest => some (array [], rest)
  | rest => (readItems value bound rest).map fun (items, rest) => (array items, rest)

/-- A key between quotes and the colon behind it. -/
def readKey (scrutiny : Scrutiny) (text : List Char) : Option (String × List Char) :=
  match skipGaps text with
  | '"' :: rest =>
    match scrutiny.string rest with
    | none => none
    | some (key, rest) =>
      match skipGaps rest with
      | ':' :: rest => some (String.ofList key, rest)
      | _ => none
  | _ => none

/-- At most `bound` members of an object that is open and not empty, up to its closing bracket. How
a value is read may depend on its key. -/
def readMembers (scrutiny : Scrutiny)
    (value : String → List Char → Option (Json × List Char)) :
    Nat → List Char → Option (List (String × Json) × List Char)
  | 0, _ => none
  | bound + 1, text =>
    match readKey scrutiny text with
    | none => none
    | some (key, rest) =>
      match value key rest with
      | none => none
      | some (item, rest) =>
        match skipGaps rest with
        | '\x7d' :: rest => some ([(key, item)], rest)
        | ',' :: rest =>
          (readMembers scrutiny value bound rest).map fun (members, rest) =>
            ((key, item) :: members, rest)
        | _ => none

/-- An object behind its opening bracket. -/
def readObject (scrutiny : Scrutiny) (value : String → List Char → Option (Json × List Char))
    (bound : Nat) (text : List Char) : Option (Json × List Char) :=
  match skipGaps text with
  | '\x7d' :: rest => some (object [], rest)
  | rest =>
    (readMembers scrutiny value bound rest).map fun (members, rest) => (object members, rest)

/-! ## Values -/

/-- A value behind gaps, with at most `nesting` brackets open at once and at most `bound` items in
each container. -/
def readValue (scrutiny : Scrutiny) (bound nesting : Nat) (text : List Char) :
    Option (Json × List Char) :=
  match skipGaps text with
  | [] => none
  | '"' :: rest =>
    (scrutiny.string rest).map fun (body, rest) => (string (String.ofList body), rest)
  | '[' :: rest =>
    match nesting with
    | 0 => none
    | nesting + 1 => readArray (readValue scrutiny bound nesting) bound rest
  | '\x7b' :: rest =>
    match nesting with
    | 0 => none
    | nesting + 1 => readObject scrutiny (fun _ => readValue scrutiny bound nesting) bound rest
  | 't' :: rest => (readWord ['r', 'u', 'e'] rest).map fun rest => (boolean true, rest)
  | 'f' :: rest => (readWord ['a', 'l', 's', 'e'] rest).map fun rest => (boolean false, rest)
  | 'n' :: rest => (readWord ['u', 'l', 'l'] rest).map fun rest => (null, rest)
  | rest => (scrutiny.number rest).map fun (n, rest) => (number n, rest)
termination_by structural nesting

/-- What has been read, unless more than gaps follows it. -/
def complete? : Option (Json × List Char) → Option Json
  | some (value, rest) => if (skipGaps rest).isEmpty then some value else none
  | none => none

/-- The value that a whole text writes, members in the order of the text. -/
def parse? (text : String) : Option Json :=
  let chars := text.toList
  complete? (readValue .content chars.length maxNesting chars)

/-- The value of a member of a record: of a member that is no field only the shape counts, and its
brackets are not limited. -/
def readField (fields : List (List String)) (bound : Nat) (key : String) :
    List Char → Option (Json × List Char) :=
  if fields.any (·.contains key) then readValue .content bound (maxNesting - 1)
  else readValue .shape bound bound

/-- The record that a whole text writes, members in the order of the text. -/
def parseRecord? (fields : List (List String)) (text : String) : Option Json :=
  let chars := text.toList
  match skipGaps chars with
  | '\x7b' :: rest =>
    complete? (readObject .content (readField fields chars.length) chars.length rest)
  | _ => parse? text

/-- The value that a whole text writes, in canonical form. -/
def read? (text : String) : Option Json :=
  (parse? text).map canonical

end Formulary.Json
