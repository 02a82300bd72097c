import Formulary.Text.Blank
import Formulary.Text.CaseTable

/-!
# Upper and lower case of a text

* `upper` : every character replaced by its upper case, which may be several characters;
* `lower` : every character replaced by its lower case; a capital sigma that ends a word becomes
  the final form of the small letter.
-/

namespace Formulary.Text

/-- Whether the run maps code point `n`. -/
def Run.covers (run : Run) (n : Nat) : Bool :=
  run.first ≤ n && n ≤ run.last && (n - run.first) % run.step == 0

/-- The image of `c` under the runs and expansions; `c` itself where neither maps it. -/
def mapCase (runs : List Run) (expansions : List (Nat × List Nat)) (c : Char) : List Char :=
  match runs.find? (·.covers c.toNat) with
  | some run => [Char.ofNat (c.toNat + run.offset).toNat]
  | none =>
    match expansions.lookup c.toNat with
    | some codes => codes.map Char.ofNat
    | none => [c]

/-- The upper case of one character. -/
def upperChar (c : Char) : List Char :=
  mapCase upperRuns upperExpansions c

/-- The lower case of one character, whatever stands around it. -/
def lowerChar (c : Char) : List Char :=
  mapCase lowerRuns lowerExpansions c

/-- Characters that have case. -/
def isCased (c : Char) : Bool :=
  inRanges casedRanges c.toNat

/-- Characters that the search for a neighbouring letter steps over. -/
def isCaseIgnorable (c : Char) : Bool :=
  inRanges ignorableRanges c.toNat

/-- Whether the first character that is not case-ignorable has case. -/
def startsCased (text : List Char) : Bool :=
  match text.dropWhile isCaseIgnorable with
  | [] => false
  | c :: _ => isCased c

/-- A sigma ends a word when a cased character stands before it and none behind it; `before` is
read backwards from the sigma. -/
def isFinalSigma (before after : List Char) : Bool :=
  startsCased before && !startsCased after

/-- Lower case of a text that stands behind `before`, which is given backwards. -/
def lowerFrom (before : List Char) : List Char → List Char
  | [] => []
  | c :: rest =>
    (if c = 'Σ' then [if isFinalSigma before rest then 'ς' else 'σ'] else lowerChar c)
      ++ lowerFrom (c :: before) rest

/-- The upper case of a text. -/
def upper (text : List Char) : List Char :=
  text.flatMap upperChar

/-- The lower case of a text. -/
def lower (text : List Char) : List Char :=
  lowerFrom [] text

end Formulary.Text
