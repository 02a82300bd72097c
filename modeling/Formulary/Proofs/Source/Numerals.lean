import Formulary.Proofs.Source.Faults
import Formulary.Proofs.Source.Spacing
import Formulary.Proofs.Source.Unscanned

/-!
# Numbers as written

* `Mantissa`, `Power`, `IsDecimal` : decimal literals;
* `isDecimal_iff` : they are the characters of numerals with a digit before the exponent;
* `isDecimal_of_standalone` : every number that is scanned is one;
* `number_tokens` : the numbers of a text are, and no text is refused for one.
-/

namespace Formulary

/-! ## Decimal literals -/

namespace Number

variable {text : List Char}

/-- Digits with an optional point and further digits, or a point and digits. -/
inductive Mantissa : List Char → Prop
  | whole {digits : List Char} (nonempty : digits ≠ [])
    (isDigit : ∀ c ∈ digits, c.isDigit = true) : Mantissa digits
  | pointed {digits further : List Char} (nonempty : digits ≠ [])
    (isDigit : ∀ c ∈ digits, c.isDigit = true) (isDigit' : ∀ c ∈ further, c.isDigit = true) :
    Mantissa (digits ++ '.' :: further)
  | fraction {digits : List Char} (nonempty : digits ≠ [])
    (isDigit : ∀ c ∈ digits, c.isDigit = true) : Mantissa ('.' :: digits)

/-- An optional exponent: its letter, an optional sign and at least one digit. -/
inductive Power : List Char → Prop
  | none : Power []
  | some {letter : Char} {sign digits : List Char} (isLetter : letter = 'e' ∨ letter = 'E')
    (isSign : sign = [] ∨ sign = ['+'] ∨ sign = ['-']) (nonempty : digits ≠ [])
    (isDigit : ∀ c ∈ digits, c.isDigit = true) : Power (letter :: sign ++ digits)

/-- Whether a text is a decimal literal. -/
def IsDecimal (text : List Char) : Prop :=
  ∃ mantissa power, Mantissa mantissa ∧ Power power ∧ text = mantissa ++ power

theorem mantissa_iff : Mantissa text ↔ ∃ (whole : List Char) (fraction : Option (List Char)),
    (∀ c ∈ whole, c.isDigit = true) ∧ (∀ digits ∈ fraction, ∀ c ∈ digits, c.isDigit = true) ∧
      (whole ≠ [] ∨ ∃ digits, fraction = some digits ∧ digits ≠ []) ∧
      text = whole ++ fractionChars fraction := by
  constructor
  · intro h
    cases h with
    | whole nonempty isDigit =>
      exact ⟨text, none, isDigit, nofun, .inl nonempty, (List.append_nil text).symm⟩
    | pointed nonempty isDigit isDigit' =>
      refine ⟨_, some _, isDigit, ?_, .inl nonempty, rfl⟩
      rintro _ ⟨⟩
      exact isDigit'
    | fraction nonempty isDigit =>
      refine ⟨[], some _, nofun, ?_, .inr ⟨_, rfl, nonempty⟩, rfl⟩
      rintro _ ⟨⟩
      exact isDigit
  · rintro ⟨whole, fraction, hwhole, hfraction, hdigit, rfl⟩
    cases fraction with
    | none =>
      rw [fractionChars, List.append_nil]
      refine .whole (hdigit.resolve_right ?_) hwhole
      rintro ⟨_, ⟨⟩, _⟩
    | some digits =>
      by_cases hnil : whole = []
      · subst hnil
        obtain ⟨_, ⟨⟩, nonempty⟩ := hdigit.resolve_left fun h => h rfl
        exact .fraction nonempty (hfraction _ rfl)
      · exact .pointed hnil hwhole (hfraction _ rfl)

theorem power_iff : Power text ↔ ∃ exponent : Option (List Char × List Char),
    (∀ parts ∈ exponent, IsMark parts.1 ∧ parts.2 ≠ [] ∧ ∀ c ∈ parts.2, c.isDigit = true) ∧
      text = exponentChars exponent := by
  constructor
  · intro h
    cases h with
    | none => exact ⟨none, nofun, rfl⟩
    | some isLetter isSign nonempty isDigit =>
      refine ⟨some (_, _), ?_, rfl⟩
      rintro _ ⟨⟩
      refine ⟨⟨_, isLetter, ?_⟩, nonempty, isDigit⟩
      rcases isSign with rfl | rfl | rfl
      · exact .inl rfl
      · exact .inr (.inl rfl)
      · exact .inr (.inr rfl)
  · rintro ⟨exponent, h, rfl⟩
    cases exponent with
    | none => exact .none
    | some parts =>
      obtain ⟨mark, digits⟩ := parts
      obtain ⟨⟨letter, isLetter, hmark⟩, nonempty, isDigit⟩ := h _ rfl
      dsimp only at hmark nonempty isDigit
      rcases hmark with rfl | rfl | rfl
      · exact @Power.some letter [] digits isLetter (.inl rfl) nonempty isDigit
      · exact @Power.some letter ['+'] digits isLetter (.inr (.inl rfl)) nonempty isDigit
      · exact @Power.some letter ['-'] digits isLetter (.inr (.inr rfl)) nonempty isDigit

/-- **Decimal literals are the characters of numerals** that have a digit before the exponent. -/
theorem isDecimal_iff :
    IsDecimal text ↔ ∃ n : Numeral, n.Written ∧ n.hasDigit = true ∧ n.chars = text := by
  have hasDigit_iff (n : Numeral) : n.hasDigit = true ↔
      n.whole ≠ [] ∨ ∃ digits, n.fraction = some digits ∧ digits ≠ [] := by
    simp [Numeral.hasDigit, Option.any_eq_true]
  constructor
  · rintro ⟨_, _, hmantissa, hpower, rfl⟩
    obtain ⟨whole, fraction, hwhole, hfraction, hdigit, rfl⟩ := mantissa_iff.mp hmantissa
    obtain ⟨exponent, hexponent, rfl⟩ := power_iff.mp hpower
    exact ⟨⟨whole, fraction, exponent⟩, ⟨hwhole, hfraction, hexponent⟩, (hasDigit_iff _).mpr hdigit,
      Numeral.chars_eq _⟩
  · rintro ⟨n, written, hdigit, rfl⟩
    exact ⟨_, _, mantissa_iff.mpr ⟨n.whole, n.fraction, written.whole, written.fraction,
      (hasDigit_iff n).mp hdigit, rfl⟩, power_iff.mpr ⟨n.exponent, written.exponent, rfl⟩,
      n.chars_eq⟩

end Number

/-! ## Numbers of a text -/

namespace Source

open Number (IsDecimal Numeral isDecimal_iff)

/-- A number that is scanned is a decimal literal. -/
theorem isDecimal_of_standalone {literal : String} (h : (TokenKind.number literal).Standalone) :
    IsDecimal literal.toList := by
  have hlexes : Lexes literal.toList (.number literal) [] := h.lexes
  obtain ⟨starts, -, hrest⟩ := hlexes.of_number
  obtain ⟨hchars, written⟩ := Numeral.scan_eq literal.toList
  rw [← hrest, List.append_nil] at hchars
  exact isDecimal_iff.mpr ⟨_, written, hasDigit_of_startsNumber starts, hchars.symm⟩

/-- A number of a text is a decimal literal. -/
theorem isDecimal_of_mem {text : List Char} {token : Token} {literal : String}
    (mem : token ∈ (tokenize text).tokens) (kind : token.kind = .number literal) :
    IsDecimal literal.toList := by
  have hstandalone := standalone_of_tokenizeFrom token mem
  rw [kind] at hstandalone
  exact isDecimal_of_standalone hstandalone

/-- A decimal literal is read as a numeral. -/
theorem ofText?_of_isDecimal {literal : List Char} (h : IsDecimal literal) :
    ∃ n, Numeral.ofText? literal = some n ∧ n.chars = literal := by
  obtain ⟨n, written, hasDigit, rfl⟩ := isDecimal_iff.mp h
  exact ⟨n, Numeral.ofText?_eq_some_iff.mpr ⟨rfl, written, hasDigit⟩, rfl⟩

/-- No text is refused for the way in which a number is written. -/
theorem not_faulty_invalidNumber (text : List Char) (literal : String) (position : Nat) :
    ¬ (tokenize text).Faulty (.invalidNumber literal position) := by
  intro h
  cases h with
  | lexical fails =>
    -- Where no token can be scanned, no number has been.
    obtain ⟨_, _, _, -, -, -, hrefused⟩ := tokenize_refused fails
    cases hrefused
  | number mem kind unread =>
    obtain ⟨n, hn, -⟩ := ofText?_of_isDecimal (isDecimal_of_mem mem kind)
    rw [hn] at unread
    cases unread

/-- **The numbers of a text can all be read.** Each number among the tokens is a decimal literal:
digits with an optional point and further digits, or a point and digits, and then an optional
exponent that has a digit. Every decimal literal is read as a numeral with these characters. So no
text is refused for the way in which a number is written. -/
theorem number_tokens (text : String) :
    (∀ token ∈ (tokenize text.toList).tokens, ∀ literal, token.kind = .number literal →
      IsDecimal literal.toList) ∧
    (∀ literal, IsDecimal literal → ∃ n, Numeral.ofText? literal = some n ∧ n.chars = literal) ∧
    ∀ literal position, Program.parse text ≠ .error (.invalidNumber literal position) :=
  ⟨fun _ mem _ kind => isDecimal_of_mem mem kind, fun _ => ofText?_of_isDecimal,
    fun literal position h =>
      not_faulty_invalidNumber text.toList literal position (faulty_of_program h)⟩

end Source

end Formulary
