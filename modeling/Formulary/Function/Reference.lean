import Formulary.Text.Blank

/-!
# References to functions in texts

* `referencesFrom` : every name that is called in a text, in order;
* `references` : the same without repetitions.

A reference is a dollar sign, a name and an opening parenthesis. It is found in the characters of a
text, whether or not the text is a script.
-/

namespace Formulary

/-- Characters that the name behind a dollar sign is made of: all but dollar signs, parentheses and
blanks. -/
def isNamePart (c : Char) : Bool :=
  !(c == '$' || c == '(' || c == ')' || Text.isBlank c)

/-- The name of the reference that continues behind a dollar sign. -/
def referenceName? (text : List Char) : Option (List Char) :=
  match text.takeWhile isNamePart, text.dropWhile isNamePart with
  | [], _ => none
  | name, '(' :: _ => some name
  | _, _ => none

/-- The names called in a text, each with its dollar sign, in order. -/
def referencesFrom : List Char → List String
  | [] => []
  | c :: rest =>
    if c = '$' then
      match referenceName? rest with
      | some name => String.ofList ('$' :: name) :: referencesFrom rest
      | none => referencesFrom rest
    else referencesFrom rest

/-- The names called in a text in the order of their first occurrences. -/
def references (text : String) : List String :=
  (referencesFrom text.toList).eraseDups

end Formulary
