import Formulary.Number.Reading

/-!
# Backslash sequences in strings

* `decode` : the characters that the body of a string denotes;
* `encode` : a body that denotes given characters, for either quote.
-/

namespace Formulary.Source.Escape

/-- The character that a letter behind a backslash denotes. A letter without a meaning of its own
denotes itself. -/
def denoted (c : Char) : Char :=
  if c = 'n' then '\n'
  else if c = 't' then '\t'
  else if c = 'r' then '\r'
  else if c = 'b' then Char.ofNat 8
  else if c = 'f' then Char.ofNat 12
  else if c = 'v' then Char.ofNat 11
  else if c = '0' then Char.ofNat 0
  else c

/-- The digits of a code point: a plus sign may take the first of the four places. -/
def codeDigits : List Char → List Char
  | '+' :: digits => digits
  | digits => digits

/-- The character with the code point that four places write, unless it is a surrogate. -/
def codePoint? (places : List Char) : Option Char :=
  let digits := codeDigits places
  if digits.all (Number.digitIn? 16 · |>.isSome) then
    let code := Number.natOfDigits 16 digits
    if code.isValidChar then some (Char.ofNat code) else none
  else none

/-- The characters that a body denotes, or the sequence that denotes none. -/
def decode : List Char → Except String (List Char)
  | [] => .ok []
  | ['\\'] => .error "\\"
  | '\\' :: 'u' :: a :: b :: c :: d :: rest =>
    match codePoint? [a, b, c, d] with
    | some c => (decode rest).map (c :: ·)
    | none => .error (String.ofList ['\\', 'u', a, b, c, d])
  | '\\' :: 'u' :: rest => .error (String.ofList ('\\' :: 'u' :: rest))
  | '\\' :: c :: rest => (decode rest).map (denoted c :: ·)
  | c :: rest => (decode rest).map (c :: ·)

/-- A body that denotes `text` between two of the given quotes: a backslash before each quote and
each backslash, and the sequence for a line feed. -/
def encode (quote : Char) (text : List Char) : List Char :=
  text.flatMap fun c =>
    if c = '\n' then ['\\', 'n']
    else if c = '\\' ∨ c = quote then ['\\', c]
    else [c]

end Formulary.Source.Escape
