/-!
# Blank characters

* `inRanges` : membership in a list of closed ranges of code points;
* `isBlank` : the Unicode property White_Space;
* `trimStart`, `trimEnd`, `trim` : a text without the blanks at its ends.
-/

namespace Formulary.Text

/-- Whether `n` lies in one of the closed ranges. -/
def inRanges (ranges : List (Nat × Nat)) (n : Nat) : Bool :=
  ranges.any fun range => range.1 ≤ n && n ≤ range.2

/-- The code points with the property White_Space, as closed ranges in ascending order. -/
def blankRanges : List (Nat × Nat) :=
  [(0x09, 0x0D), (0x20, 0x20), (0x85, 0x85), (0xA0, 0xA0), (0x1680, 0x1680), (0x2000, 0x200A),
   (0x2028, 0x2029), (0x202F, 0x202F), (0x205F, 0x205F), (0x3000, 0x3000)]

/-- A character is blank when it has the property White_Space. -/
def isBlank (c : Char) : Bool :=
  inRanges blankRanges c.toNat

/-- The text from its first character that is not blank. -/
def trimStart (text : List Char) : List Char :=
  text.dropWhile isBlank

/-- The text up to its last character that is not blank. -/
def trimEnd (text : List Char) : List Char :=
  (text.reverse.dropWhile isBlank).reverse

/-- The text without the blanks at either end. -/
def trim (text : List Char) : List Char :=
  trimEnd (trimStart text)

theorem trimStart_nil : trimStart [] = [] := rfl

/-- What `trimStart` leaves begins with no blank. -/
theorem not_isBlank_of_trimStart {text rest : List Char} {c : Char}
    (h : trimStart text = c :: rest) : isBlank c = false := by
  induction text with
  | nil => simp [trimStart] at h
  | cons d text ih =>
    by_cases hd : isBlank d
    · exact ih (by simpa [trimStart, List.dropWhile, hd] using h)
    · simp only [trimStart, List.dropWhile, hd] at h
      injection h with h1 h2
      subst h1
      simpa using hd

end Formulary.Text
