import Formulary.Json.Basic
import Formulary.Number.Layout

/-!
# JSON as text

* `quote` : a string between quotes, with the quote, the backslash and controls escaped;
* `JsonNumber.text` : a number as exchanged text writes it;
* `Json.compact` : a value on one line without blanks;
* `Json.pretty` : a value with one item a line, indented by two spaces a level.
-/

namespace Formulary

/-- A hexadecimal digit in lower case. -/
def hexChar (n : Nat) : Char :=
  Nat.digitChar n

/-- What stands for a character between quotes. -/
def escapeChar (c : Char) : List Char :=
  if c = '"' then ['\\', '"']
  else if c = '\\' then ['\\', '\\']
  else if c = '\n' then ['\\', 'n']
  else if c = '\r' then ['\\', 'r']
  else if c = '\t' then ['\\', 't']
  else if c.toNat = 8 then ['\\', 'b']
  else if c.toNat = 12 then ['\\', 'f']
  else if c.toNat < 32 then
    ['\\', 'u', '0', '0', hexChar (c.toNat / 16), hexChar (c.toNat % 16)]
  else [c]

/-- A string between quotes. -/
def quote (s : String) : String :=
  String.ofList ('"' :: s.toList.flatMap escapeChar ++ ['"'])

/-- The text of a number. A double that is no number is written as null. -/
def JsonNumber.text : JsonNumber → String
  | integer n => (if n < 0 then "-" else "") ++ String.ofList (Number.digitChars n.natAbs)
  | real x =>
    if !x.isFinite then "null"
    else if x == 0 then (if (Number.Binary.ofFloat x).negative then "-0.0" else "0.0")
    else String.ofList (Number.exchangeLayout.write x)

namespace Json

/-- A line break and the indentation of a level. -/
def lineBreak (level : Nat) : String :=
  "\n" ++ String.ofList (List.replicate (2 * level) ' ')

mutual

/-- The value on one line. -/
def compact : Json → String
  | null => "null"
  | boolean b => if b then "true" else "false"
  | number n => n.text
  | string s => quote s
  | array items => "[" ++ String.intercalate "," (compactItems items) ++ "]"
  | object members => "\x7b" ++ String.intercalate "," (compactMembers members) ++ "\x7d"

/-- The items of an array, each on one line. -/
def compactItems : List Json → List String
  | [] => []
  | item :: items => item.compact :: compactItems items

/-- The members of an object, each on one line. -/
def compactMembers : List (String × Json) → List String
  | [] => []
  | (key, value) :: members => (quote key ++ ":" ++ value.compact) :: compactMembers members

end

mutual

/-- The value over several lines, at a level of indentation. Empty containers stay on one line. -/
def prettyAt (level : Nat) : Json → String
  | null => "null"
  | boolean b => if b then "true" else "false"
  | number n => n.text
  | string s => quote s
  | array [] => "[]"
  | array (item :: items) =>
    "[" ++ String.intercalate "," (prettyItems (level + 1) (item :: items)) ++ lineBreak level
      ++ "]"
  | object [] => "\x7b\x7d"
  | object (member :: members) =>
    "\x7b" ++ String.intercalate "," (prettyMembers (level + 1) (member :: members))
      ++ lineBreak level ++ "\x7d"

/-- The items of an array, each behind a line break. -/
def prettyItems (level : Nat) : List Json → List String
  | [] => []
  | item :: items => (lineBreak level ++ item.prettyAt level) :: prettyItems level items

/-- The members of an object, each behind a line break. -/
def prettyMembers (level : Nat) : List (String × Json) → List String
  | [] => []
  | (key, value) :: members =>
    (lineBreak level ++ quote key ++ ": " ++ value.prettyAt level) :: prettyMembers level members

end

/-- The value over several lines. -/
def pretty (value : Json) : String :=
  value.prettyAt 0

end Json

end Formulary
