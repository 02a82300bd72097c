/-!
# Finding and cutting

* `indexOf?` : where a text first occurs in another, counted in characters;
* `splitOn` : the pieces of a text between the occurrences of a separator;
* `joinWith` : pieces put together with a separator between them.
-/

namespace Formulary.Text

/-- The least number of characters before an occurrence of `needle` in the text. -/
def indexOf? (needle : List Char) : List Char → Option Nat
  | [] => if needle.isEmpty then some 0 else none
  | c :: rest =>
    if needle.isPrefixOf (c :: rest) then some 0
    else (indexOf? needle rest).map (· + 1)

/-- Puts a character in front of the first piece. -/
def consPiece (c : Char) : List (List Char) → List (List Char)
  | [] => [[c]]
  | piece :: pieces => (c :: piece) :: pieces

/-- The pieces between the leftmost disjoint occurrences of `separator`; the next `skip`
characters belong to an occurrence already found. -/
def splitFrom (separator : List Char) : Nat → List Char → List (List Char)
  | _, [] => [[]]
  | skip + 1, _ :: rest => splitFrom separator skip rest
  | 0, c :: rest =>
    if separator.isPrefixOf (c :: rest) then [] :: splitFrom separator (separator.length - 1) rest
    else consPiece c (splitFrom separator 0 rest)

/-- The pieces of `text` between the occurrences of a separator that is not empty. -/
def splitOn (separator text : List Char) : List (List Char) :=
  splitFrom separator 0 text

/-- The pieces in order with `separator` between neighbours. -/
def joinWith (separator : List Char) : List (List Char) → List Char
  | [] => []
  | [piece] => piece
  | piece :: pieces => piece ++ separator ++ joinWith separator pieces

theorem splitFrom_ne_nil (separator : List Char) (skip : Nat) (text : List Char) :
    splitFrom separator skip text ≠ [] := by
  induction text generalizing skip with
  | nil => simp [splitFrom]
  | cons c rest ih =>
    cases skip with
    | zero =>
      unfold splitFrom
      split
      · simp
      · cases h : splitFrom separator 0 rest <;> simp [consPiece]
    | succ skip => simpa [splitFrom] using ih skip

end Formulary.Text
