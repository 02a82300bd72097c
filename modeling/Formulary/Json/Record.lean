import Formulary.Json.Basic

/-!
# Records in JSON

* `fieldValue?` : the value of a field that may have several names;
* `recordValues?` : the values of all fields of a record;
* `orDefault?` : a field that may be left out.

A record is written as an object, in which unknown members do not count, or as an array of its
first fields.
-/

namespace Formulary.Json

/-- The value of a field among members, or none where it is left out. A field that is given more
than once, under whichever of its names, is malformed. -/
def fieldValue? (names : List String) (members : List (String × Json)) : Option (Option Json) :=
  match members.filter fun member => names.contains member.1 with
  | [] => some none
  | [member] => some (some member.2)
  | _ => none

/-- The values of the fields of a record, each field given by its names. -/
def recordValues? (fields : List (List String)) : Json → Option (List (Option Json))
  | object members => fields.mapM fun names => fieldValue? names members
  | array items =>
    if items.length ≤ fields.length then
      some (items.map some ++ List.replicate (fields.length - items.length) none)
    else none
  | _ => none

/-- The value of a field, or the given one where the field is left out. -/
def orDefault? {α : Type} (fallback : α) (read : Json → Option α) : Option Json → Option α
  | some json => read json
  | none => some fallback

/-- An object whose values are all strings. -/
def texts? : Json → Option (List (String × String))
  | object members => members.mapM fun member => do return (member.1, ← member.2.string?)
  | _ => none

/-- Strings as an object. -/
def ofTexts (texts : List (String × String)) : Json :=
  object (texts.map fun entry => (entry.1, string entry.2))

/-- An array of records. -/
def list? {α : Type} (read : Json → Option α) : Json → Option (List α)
  | array items => items.mapM read
  | _ => none

end Formulary.Json
