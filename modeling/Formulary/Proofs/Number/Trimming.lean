import Formulary.Proofs.Number.Literal

/-!
# Literals are not trimmed

* `Text.trim_eq_trimStart`, `Text.trim_of_not_isBlank` : where nothing is trimmed;
* `not_isBlank_chars`, `not_isBlank_infinityWord` : literals have no blanks;
* `ofText_chars`, `ofText_infinityWord` : they are read as their values, also behind blanks.
-/

namespace Formulary

/-! ## Blanks -/

namespace Text

variable {text : List Char} {c : Char}

theorem dropWhile_of_not_isBlank (h : ∀ c ∈ text, isBlank c = false) :
    text.dropWhile isBlank = text := by
  cases text with
  | nil => rfl
  | cons c text => rw [List.dropWhile_cons_of_neg (by simp [h c List.mem_cons_self])]

/-- Where no blank is left behind those that a text begins with, nothing more is trimmed. -/
theorem trim_eq_trimStart (h : ∀ c ∈ trimStart text, isBlank c = false) :
    trim text = trimStart text := by
  rw [trim, trimEnd, dropWhile_of_not_isBlank (by simpa using h), List.reverse_reverse]

/-- A text without blanks is not trimmed. -/
theorem trim_of_not_isBlank (h : ∀ c ∈ text, isBlank c = false) : trim text = text := by
  have hstart : trimStart text = text := dropWhile_of_not_isBlank h
  rw [trim_eq_trimStart (by rwa [hstart]), hstart]

theorem not_isBlank_of_isDigit (h : c.isDigit = true) : isBlank c = false := by
  obtain ⟨hle, hge⟩ := Char.isDigit_iff_toNat.mp h
  have hle : 48 ≤ c.toNat := hle
  have hge : c.toNat ≤ 57 := hge
  simp only [isBlank, inRanges, blankRanges, List.any_cons, List.any_nil, Bool.or_false,
    Bool.or_eq_false_iff, Bool.and_eq_false_iff, decide_eq_false_iff_not]
  omega

end Text

/-! ## Literals -/

namespace Number

variable {text mark : List Char} {negative : Bool} {n : Numeral}

theorem signs_minus (negative : Bool) : Signs (if negative then ['-'] else []) negative := by
  cases negative with
  | false => exact .none
  | true => exact .minus

/-- A numeral behind a sign has no blanks. -/
theorem not_isBlank_chars (written : n.Written) (sign : Signs mark negative) :
    ∀ c ∈ mark ++ n.chars, Text.isBlank c = false := by
  intro c hc
  rcases isDigit_or_mem written sign c hc with hdigit | hmem
  · exact Text.not_isBlank_of_isDigit hdigit
  · simp only [List.mem_cons, List.not_mem_nil, or_false] at hmem
    rcases hmem with rfl | rfl | rfl | rfl | rfl <;> decide

theorem not_isBlank_infinityWord (sign : Signs mark negative) :
    ∀ c ∈ mark ++ infinityWord, Text.isBlank c = false := by
  have hmark : ∀ c ∈ mark, c ∈ ['+', '-'] := by cases sign <;> simp
  intro c hc
  simp only [infinityWord_eq, List.mem_append, List.mem_cons, List.not_mem_nil, or_false] at hc hmark
  rcases hc with hc | rfl | rfl | rfl | rfl | rfl | rfl | rfl | rfl
  · rcases hmark c hc with rfl | rfl <;> decide
  all_goals decide

/-- **A numeral behind blanks and a sign is read as its value with that sign.** -/
theorem ofText_chars (sign : Signs mark negative) (written : n.Written)
    (hasDigit : n.hasDigit = true) (h : Text.trimStart text = mark ++ n.chars) :
    ofText text = signed negative n.value := by
  refine ofText_numeral sign written hasDigit ?_
  rw [Text.trim_eq_trimStart (by rw [h]; exact not_isBlank_chars written sign), h]

/-- The word for infinity behind blanks and a sign is read as infinity with that sign. -/
theorem ofText_infinityWord (sign : Signs mark negative)
    (h : Text.trimStart text = mark ++ infinityWord) : ofText text = signed negative infinity := by
  refine ofText_infinity sign ?_
  rw [Text.trim_eq_trimStart (by rw [h]; exact not_isBlank_infinityWord sign), h]

end Number

end Formulary
