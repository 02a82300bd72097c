import Formulary.Proofs.Source.Lexing

/-!
# Tokens are scanned from their lexemes again

* `Parted` : texts that keep apart from a token before them, since they begin with a blank;
* `Number.Apart` : texts that keep apart from a numeral before them;
* `Numeral.scan_chars` : a numeral is read from its own characters again;
* `TokenKind.Standalone` : kinds whose lexeme is scanned as the same token wherever such a text
  follows;
* `standalone_of_scan` : every token that is scanned is one of these, and is written with the
  characters that it is scanned from.
-/

namespace Formulary

/-- Whether a text is empty or begins with a space or a line feed. -/
def Source.Parted (rest : List Char) : Prop :=
  rest = [] ∨ ∃ c rest', rest = c :: rest' ∧ (c = ' ' ∨ c = '\n')

namespace Source.Parted

theorem nil : Parted [] := .inl rfl

theorem space (rest : List Char) : Parted (' ' :: rest) := .inr ⟨_, _, rfl, .inl rfl⟩

theorem lineFeed (rest : List Char) : Parted ('\n' :: rest) := .inr ⟨_, _, rfl, .inr rfl⟩

/-- A property of the characters that a blank is not. -/
theorem takeWhile {p : Char → Bool} {rest : List Char} (parted : Parted rest)
    (space : p ' ' = false) (lineFeed : p '\n' = false) :
    rest.takeWhile p = [] ∧ rest.dropWhile p = rest := by
  rcases parted with rfl | ⟨c, rest, rfl, rfl | rfl⟩
  · exact ⟨rfl, rfl⟩
  · simp [space]
  · simp [lineFeed]

end Source.Parted

/-! ## Numerals -/

namespace Number

/-- The marks that an exponent begins with. -/
def IsMark (mark : List Char) : Prop :=
  ∃ letter, (letter = 'e' ∨ letter = 'E') ∧
    (mark = [letter] ∨ mark = [letter, '+'] ∨ mark = [letter, '-'])

/-- Whether the pieces of a numeral are made of the characters that they are read from. -/
structure Numeral.Written (n : Numeral) : Prop where
  whole : ∀ c ∈ n.whole, c.isDigit = true
  fraction : ∀ digits ∈ n.fraction, ∀ c ∈ digits, c.isDigit = true
  exponent : ∀ parts ∈ n.exponent, IsMark parts.1 ∧ parts.2 ≠ [] ∧
    ∀ c ∈ parts.2, c.isDigit = true

/-- The characters of a fraction. -/
def fractionChars : Option (List Char) → List Char
  | some digits => '.' :: digits
  | none => []

/-- The characters of an exponent. -/
def exponentChars : Option (List Char × List Char) → List Char
  | some (mark, digits) => mark ++ digits
  | none => []

/-- Whether a text is empty or begins with nothing that a numeral goes on with. -/
def Apart (rest : List Char) : Prop :=
  rest = [] ∨ ∃ c rest', rest = c :: rest' ∧ c.isDigit = false ∧ c ≠ '.' ∧ c ≠ 'e' ∧ c ≠ 'E'

theorem apart_cons {c : Char} (h : c.isDigit = false ∧ c ≠ '.' ∧ c ≠ 'e' ∧ c ≠ 'E')
    (rest : List Char) : Apart (c :: rest) :=
  .inr ⟨c, rest, rfl, h⟩

theorem apart_of_parted {rest : List Char} (parted : Source.Parted rest) : Apart rest := by
  rcases parted with rfl | ⟨c, rest, rfl, rfl | rfl⟩
  · exact .inl rfl
  · exact apart_cons (by decide) rest
  · exact apart_cons (by decide) rest

theorem Numeral.chars_eq (n : Numeral) :
    n.chars = n.whole ++ fractionChars n.fraction ++ exponentChars n.exponent := rfl

section Scanning

variable {text rest digits : List Char}

theorem takeWhile_digits (h : ∀ c ∈ digits, c.isDigit = true)
    (stops : rest.takeWhile Char.isDigit = [] ∧ rest.dropWhile Char.isDigit = rest) :
    (digits ++ rest).takeWhile Char.isDigit = digits ∧
      (digits ++ rest).dropWhile Char.isDigit = rest := by
  rw [List.takeWhile_append_of_pos h, List.dropWhile_append_of_pos h, stops.1, stops.2,
    List.append_nil]
  exact ⟨rfl, rfl⟩

/-- What a digit does not begin with ends digits. -/
theorem stops_of_head {c : Char} (h : c.isDigit = false) :
    (c :: rest).takeWhile Char.isDigit = [] ∧ (c :: rest).dropWhile Char.isDigit = c :: rest := by
  simp [h]

theorem IsMark.scan {mark : List Char} (h : IsMark mark) (nonempty : digits ≠ [])
    (hdigits : ∀ c ∈ digits, c.isDigit = true) :
    scanMark? (mark ++ digits ++ rest) = some (mark, digits ++ rest) := by
  obtain ⟨digit, digits, rfl⟩ := List.exists_cons_of_ne_nil nonempty
  have hdigit := hdigits digit List.mem_cons_self
  have hplus : digit ≠ '+' := by
    rintro rfl
    exact absurd hdigit (by decide)
  have hminus : digit ≠ '-' := by
    rintro rfl
    exact absurd hdigit (by decide)
  obtain ⟨letter, hletter, rfl | rfl | rfl⟩ := h <;>
    rcases hletter with rfl | rfl <;> simp [scanMark?, hplus, hminus]

theorem isMark_of_scan {mark : List Char} (h : scanMark? text = some (mark, rest)) :
    IsMark mark ∧ text = mark ++ rest := by
  cases text with
  | nil => cases h
  | cons c text =>
    simp only [scanMark?] at h
    split at h
    · next hletter =>
      split at h <;> cases h
      · exact ⟨⟨c, hletter, .inr (.inl rfl)⟩, rfl⟩
      · exact ⟨⟨c, hletter, .inr (.inr rfl)⟩, rfl⟩
      · exact ⟨⟨c, hletter, .inl rfl⟩, rfl⟩
    · cases h

theorem scanMark?_apart (apart : Apart rest) : scanMark? rest = none := by
  rcases apart with rfl | ⟨c, rest, rfl, -, -, hsmall, hlarge⟩
  · rfl
  · simp [scanMark?, hsmall, hlarge]

theorem scanFraction_eq (text : List Char) :
    text = fractionChars (scanFraction text).1 ++ (scanFraction text).2 ∧
      ∀ digits ∈ (scanFraction text).1, ∀ c ∈ digits, c.isDigit = true := by
  unfold scanFraction
  split
  · next rest =>
    refine ⟨by simp [fractionChars], ?_⟩
    rintro _ ⟨⟩ c hc
    exact List.mem_takeWhile_imp hc
  · exact ⟨rfl, fun _ h => nomatch h⟩

theorem scanExponent_eq (text : List Char) :
    text = exponentChars (scanExponent text).1 ++ (scanExponent text).2 ∧
      ∀ parts ∈ (scanExponent text).1, IsMark parts.1 ∧ parts.2 ≠ [] ∧
        ∀ c ∈ parts.2, c.isDigit = true := by
  unfold scanExponent
  split
  · exact ⟨rfl, fun _ h => nomatch h⟩
  · next mark rest hmark =>
    obtain ⟨isMark, htext⟩ := isMark_of_scan hmark
    split
    · exact ⟨rfl, fun _ h => nomatch h⟩
    · next digit digits hdigits =>
      have hall : ∀ c ∈ digit :: digits, c.isDigit = true := fun c hc =>
        List.mem_takeWhile_imp (hdigits ▸ hc)
      constructor
      · rw [exponentChars, ← hdigits, List.append_assoc, List.takeWhile_append_dropWhile, htext]
      · rintro _ ⟨⟩
        exact ⟨isMark, List.cons_ne_nil _ _, hall⟩

/-- A numeral is made of the characters at the head of the text. -/
theorem Numeral.scan_eq (text : List Char) :
    text = (Numeral.scan text).1.chars ++ (Numeral.scan text).2 ∧
      (Numeral.scan text).1.Written := by
  obtain ⟨hfraction, hfractionDigits⟩ := scanFraction_eq (text.dropWhile Char.isDigit)
  obtain ⟨hexponent, hexponentParts⟩ :=
    scanExponent_eq (scanFraction (text.dropWhile Char.isDigit)).2
  refine ⟨?_, fun c hc => List.mem_takeWhile_imp hc, hfractionDigits, hexponentParts⟩
  have hwhole := List.takeWhile_append_dropWhile (p := Char.isDigit) (l := text)
  rw [hfraction, hexponent] at hwhole
  rw [Numeral.chars_eq]
  simpa [Numeral.scan] using hwhole.symm

theorem scanExponent_chars {exponent : Option (List Char × List Char)}
    (h : ∀ parts ∈ exponent, IsMark parts.1 ∧ parts.2 ≠ [] ∧ ∀ c ∈ parts.2, c.isDigit = true)
    (apart : Apart rest) :
    scanExponent (exponentChars exponent ++ rest) = (exponent, rest) := by
  cases exponent with
  | none =>
    unfold scanExponent exponentChars
    rw [List.nil_append, scanMark?_apart apart]
  | some parts =>
    obtain ⟨mark, digits⟩ := parts
    obtain ⟨isMark, nonempty, hdigits⟩ := h _ rfl
    have hstops : rest.takeWhile Char.isDigit = [] ∧ rest.dropWhile Char.isDigit = rest := by
      rcases apart with rfl | ⟨c, rest, rfl, hdigit, -⟩
      · exact ⟨rfl, rfl⟩
      · exact stops_of_head hdigit
    obtain ⟨htake, hdrop⟩ := takeWhile_digits hdigits hstops
    obtain ⟨digit, digits, rfl⟩ := List.exists_cons_of_ne_nil nonempty
    unfold scanExponent exponentChars
    rw [isMark.scan nonempty hdigits]
    dsimp only
    rw [htake, hdrop]

/-- The mark of an exponent begins with neither a digit nor a point. -/
theorem IsMark.head {mark : List Char} (h : IsMark mark) :
    ∃ c mark', mark = c :: mark' ∧ c.isDigit = false ∧ c ≠ '.' := by
  obtain ⟨letter, hletter, hmark⟩ := h
  have hletter : letter.isDigit = false ∧ letter ≠ '.' := by
    rcases hletter with rfl | rfl <;> decide
  rcases hmark with rfl | rfl | rfl <;> exact ⟨letter, _, rfl, hletter⟩

/-- What an exponent, or the text behind one, begins with is neither a digit nor a point. -/
theorem exponentChars_head {exponent : Option (List Char × List Char)}
    (h : ∀ parts ∈ exponent, IsMark parts.1 ∧ parts.2 ≠ [] ∧ ∀ c ∈ parts.2, c.isDigit = true)
    (apart : Apart rest) : exponentChars exponent ++ rest = [] ∨
      ∃ c rest', exponentChars exponent ++ rest = c :: rest' ∧ c.isDigit = false ∧ c ≠ '.' := by
  cases exponent with
  | none =>
    rcases apart with rfl | ⟨c, rest, rfl, hdigit, hpoint, -⟩
    · exact .inl rfl
    · exact .inr ⟨_, _, rfl, hdigit, hpoint⟩
  | some parts =>
    obtain ⟨mark, digits⟩ := parts
    obtain ⟨c, mark, rfl, hc⟩ := (h _ rfl).1.head
    exact .inr ⟨c, _, rfl, hc⟩

theorem scanFraction_chars {fraction : Option (List Char)}
    (h : ∀ digits ∈ fraction, ∀ c ∈ digits, c.isDigit = true)
    (ends : rest = [] ∨ ∃ c rest', rest = c :: rest' ∧ c.isDigit = false ∧ c ≠ '.') :
    scanFraction (fractionChars fraction ++ rest) = (fraction, rest) := by
  cases fraction with
  | none =>
    unfold scanFraction fractionChars
    rw [List.nil_append]
    rcases ends with rfl | ⟨c, rest, rfl, -, hpoint⟩
    · rfl
    · split
      · next heq => exact absurd (List.cons.inj heq).1 hpoint
      · rfl
  | some digits =>
    have hstops : rest.takeWhile Char.isDigit = [] ∧ rest.dropWhile Char.isDigit = rest := by
      rcases ends with rfl | ⟨c, rest, rfl, hdigit, -⟩
      · exact ⟨rfl, rfl⟩
      · exact stops_of_head hdigit
    obtain ⟨htake, hdrop⟩ := takeWhile_digits (h digits rfl) hstops
    simp only [scanFraction, fractionChars, List.cons_append, htake, hdrop]

/-- The digits before a fraction end at its point, and without one at what follows. -/
theorem fractionChars_stops (fraction : Option (List Char))
    (ends : rest = [] ∨ ∃ c rest', rest = c :: rest' ∧ c.isDigit = false ∧ c ≠ '.') :
    (fractionChars fraction ++ rest).takeWhile Char.isDigit = [] ∧
      (fractionChars fraction ++ rest).dropWhile Char.isDigit = fractionChars fraction ++ rest := by
  cases fraction with
  | some digits => exact stops_of_head (by decide)
  | none =>
    rw [fractionChars, List.nil_append]
    rcases ends with rfl | ⟨c, rest, rfl, hdigit, -⟩
    · exact ⟨rfl, rfl⟩
    · exact stops_of_head hdigit

/-- **A numeral is read from its own characters again.** -/
theorem Numeral.scan_chars {n : Numeral} (written : n.Written) (apart : Apart rest) :
    Numeral.scan (n.chars ++ rest) = (n, rest) := by
  obtain ⟨whole, fraction, exponent⟩ := n
  obtain ⟨hwhole, hfraction, hexponent⟩ := written
  have hends := exponentChars_head hexponent apart
  have hscan := scanFraction_chars hfraction hends
  have hstops := fractionChars_stops fraction hends
  obtain ⟨htake, hdrop⟩ := takeWhile_digits hwhole hstops
  unfold Numeral.scan
  rw [Numeral.chars_eq]
  simp only [List.append_assoc, htake, hdrop, hscan, scanExponent_chars hexponent apart]

/-- **A whole text is read as a numeral when it is the characters of one** that has a digit before
the exponent. -/
theorem Numeral.ofText?_eq_some_iff {n : Numeral} :
    Numeral.ofText? text = some n ↔ text = n.chars ∧ n.Written ∧ n.hasDigit = true := by
  unfold Numeral.ofText?
  dsimp only
  constructor
  · intro h
    obtain ⟨htext, written⟩ := Numeral.scan_eq text
    split at h
    · next hwhole =>
      obtain ⟨hrest, hdigit⟩ := Bool.and_eq_true_iff.mp hwhole
      cases h
      rw [List.isEmpty_iff.mp hrest, List.append_nil] at htext
      exact ⟨htext, written, hdigit⟩
    · cases h
  · rintro ⟨rfl, written, hdigit⟩
    have hscan := Numeral.scan_chars written (.inl rfl)
    rw [List.append_nil] at hscan
    rw [hscan, hdigit]
    rfl

end Scanning

end Number

/-! ## Tokens -/

namespace Source

open Number (Numeral)

/-- Whether a numeral begins with a digit, or with a point before one. -/
theorem startsNumber_chars {n : Numeral} (written : n.Written) (h : n.hasDigit = true)
    (rest : List Char) : startsNumber (n.chars ++ rest) = true := by
  obtain ⟨whole, fraction, exponent⟩ := n
  cases whole with
  | cons c whole =>
    have hc := written.whole c List.mem_cons_self
    have hpoint : c ≠ '.' := by
      rintro rfl
      exact absurd hc (by decide)
    simp [Numeral.chars, startsNumber, hpoint, hc]
  | nil =>
    obtain ⟨digits, rfl, hdigits⟩ : ∃ digits, fraction = some digits ∧ digits ≠ [] := by
      simpa [Numeral.hasDigit, Option.any_eq_true] using h
    obtain ⟨c, digits, rfl⟩ := List.exists_cons_of_ne_nil hdigits
    have hc := written.fraction _ rfl c List.mem_cons_self
    simp [Numeral.chars, startsNumber, hc]

/-- A numeral begins with a digit or a point. -/
theorem exists_of_startsNumber {text : List Char} (h : startsNumber text = true) :
    ∃ c rest, text = c :: rest ∧ startsNumber (c :: rest) = true ∧
      (fun c => c.isDigit || c == '.') c = true := by
  cases text with
  | nil => cases h
  | cons c rest =>
    refine ⟨c, rest, rfl, h, ?_⟩
    unfold startsNumber at h
    split at h
    · next heq => simp [(List.cons.inj heq).1]
    · next heq =>
      obtain ⟨rfl, rfl⟩ := List.cons.inj heq
      simp [h]
    · cases h

theorem hasDigit_of_startsNumber {text : List Char} (h : startsNumber text = true) :
    (Numeral.scan text).1.hasDigit = true := by
  unfold startsNumber at h
  split at h
  · next c rest =>
    simp [Numeral.scan, Numeral.hasDigit, Number.scanFraction, h,
      show Char.isDigit '.' = false by decide]
  · next c rest _ => simp [Numeral.scan, Numeral.hasDigit, h]
  · cases h

theorem scanQuoted_cons {quote c : Char} (h : c ≠ '\\') (rest : List Char) :
    scanQuoted quote (c :: rest) =
      if c = quote then some ([], rest)
      else if c = '\n' then none
      else (scanQuoted quote rest).map fun (raw, rest) => (c :: raw, rest) := by
  rw [scanQuoted]
  intro _ _ heq
  exact absurd heq h

/-- The body of a string is scanned again, whatever follows its closing quote. -/
theorem scanQuoted_append {quote : Char} {text raw rest : List Char} (hquote : quote ≠ '\\')
    (h : scanQuoted quote text = some (raw, rest)) :
    text = raw ++ quote :: rest ∧
      ∀ rest', scanQuoted quote (raw ++ quote :: rest') = some (raw, rest') := by
  fun_induction scanQuoted quote text generalizing raw rest with
  | case1 => cases h
  | case2 c text ih =>
    obtain ⟨⟨raw', rest'⟩, htail, heq⟩ := Option.map_eq_some_iff.mp h
    cases heq
    obtain ⟨rfl, hagain⟩ := ih htail
    exact ⟨rfl, fun rest' => by simp [scanQuoted, hagain]⟩
  | case3 text hback =>
    cases h
    exact ⟨rfl, fun rest' => by simp [scanQuoted_cons hquote]⟩
  | case4 => cases h
  | case5 c text hback hnoQuote hnoFeed ih =>
    obtain ⟨⟨raw', rest'⟩, htail, heq⟩ := Option.map_eq_some_iff.mp h
    cases heq
    have hc : c ≠ '\\' := by
      rintro rfl
      cases text with
      | nil => cases htail
      | cons d text => exact hback d text rfl rfl
    obtain ⟨rfl, hagain⟩ := ih htail
    exact ⟨rfl, fun rest' => by simp [scanQuoted_cons hc, hnoQuote, hnoFeed, hagain]⟩

/-- Whether the lexeme of a kind is scanned as that kind wherever a text that keeps apart from it
follows, and no gap begins with it. -/
structure TokenKind.Standalone (kind : TokenKind) : Prop where
  scans : ∀ position rest, Parted rest → scanToken position (kind.lexeme ++ rest) = .ok (kind, rest)
  begins : ∀ position newline rest, Parted rest →
    skipGap .blank (kind.lexeme ++ rest) position newline =
      .ok (kind.lexeme ++ rest, position, newline)

/-- Alone, the lexeme is all that is scanned. -/
theorem TokenKind.Standalone.lexes {kind : TokenKind} (h : kind.Standalone) :
    Lexes kind.lexeme kind [] := by
  have hscan := h.scans 0 [] .nil
  rw [List.append_nil] at hscan
  exact scanToken_eq_ok.mp hscan

theorem TokenKind.Standalone.lexeme_ne_nil {kind : TokenKind} (h : kind.Standalone) :
    kind.lexeme ≠ [] := by
  intro hnil
  have hlexes := h.lexes
  rw [hnil] at hlexes
  cases hlexes

/-- Nothing is skipped before a character that is neither blank nor a slash. -/
theorem skipGap_stop {c : Char} (h : isSpace c = false ∧ c ≠ '/') (rest : List Char)
    (position : Nat) (newline : Bool) :
    skipGap .blank (c :: rest) position newline = .ok (c :: rest, position, newline) := by
  rw [skipGap]
  · rw [if_neg (by simp [h.1])]
  · intro _ heq
    exact absurd heq h.2
  · intro _ heq
    exact absurd heq h.2

/-- A class of characters without blanks and the slash. -/
theorem not_gap {p : Char → Bool} {c : Char}
    (h : [' ', '\n', '\t', '\r', Char.ofNat 11, Char.ofNat 12, '/'].any p = false)
    (hc : p c = true) : isSpace c = false ∧ c ≠ '/' := by
  have hmem : c ∉ [' ', '\n', '\t', '\r', Char.ofNat 11, Char.ofNat 12, '/'] := fun hmem => by
    rw [List.any_eq_false] at h
    exact h c hmem hc
  have htab : c.toNat ≠ 11 := fun heq => by
    rw [← Char.ofNat_toNat c, heq] at hmem
    exact hmem (by decide)
  have hfeed : c.toNat ≠ 12 := fun heq => by
    rw [← Char.ofNat_toNat c, heq] at hmem
    exact hmem (by decide)
  simp only [List.mem_cons, List.not_mem_nil, or_false, not_or] at hmem
  simp [isSpace, hmem, htab, hfeed]

/-- A numeral is scanned wherever a text that keeps apart from it follows, and no gap begins with
it. -/
theorem scanToken_numeral {n : Numeral} (written : n.Written) (h : n.hasDigit = true)
    {rest : List Char} (apart : Number.Apart rest) (position : Nat) (newline : Bool) :
    scanToken position (n.chars ++ rest) = .ok (.number (String.ofList n.chars), rest) ∧
      skipGap .blank (n.chars ++ rest) position newline =
        .ok (n.chars ++ rest, position, newline) := by
  obtain ⟨c, text, htext, hnumber, hc⟩ := exists_of_startsNumber (startsNumber_chars written h rest)
  rw [htext]
  constructor
  · have hlexes := Lexes.number hnumber
    rw [← htext, n.scan_chars written apart, htext] at hlexes
    exact scanToken_eq_ok.mpr hlexes
  · exact skipGap_stop (not_gap (p := fun c => c.isDigit || c == '.') (by decide) hc) _ _ _

theorem standalone_number {n : Numeral} (written : n.Written) (h : n.hasDigit = true) :
    (TokenKind.number (String.ofList n.chars)).Standalone := by
  have hlexeme : (TokenKind.number (String.ofList n.chars)).lexeme = n.chars :=
    String.toList_ofList
  constructor
  · intro position rest parted
    rw [hlexeme]
    exact (scanToken_numeral written h (Number.apart_of_parted parted) position false).1
  · intro position newline rest parted
    rw [hlexeme]
    exact (scanToken_numeral written h (Number.apart_of_parted parted) position newline).2

theorem standalone_string {quote : Char} (hquote : quote = '\'' ∨ quote = '"') {raw : List Char}
    (h : ∀ rest, scanQuoted quote (raw ++ quote :: rest) = some (raw, rest)) :
    (TokenKind.string quote (String.ofList raw)).Standalone := by
  have hlexeme : (TokenKind.string quote (String.ofList raw)).lexeme = quote :: raw ++ [quote] := by
    rw [TokenKind.lexeme, String.toList_ofList]
  constructor
  · intro position rest parted
    rw [hlexeme, List.append_assoc, List.cons_append, List.singleton_append]
    refine scanToken_eq_ok.mpr (.string ?_ hquote (h rest))
    rcases hquote with rfl | rfl <;> simp [startsNumber]
  · intro position newline rest parted
    rw [hlexeme, List.append_assoc, List.cons_append]
    refine skipGap_stop (not_gap (p := fun c => c == '\'' || c == '"') (by decide) ?_) _ _ _
    simpa using hquote

/-- A word: a character that begins a name, and characters that continue it. -/
structure IsWord (name : String) : Prop where
  head : ∃ c rest, name.toList = c :: rest ∧ isNameStart c = true
  parts : ∀ c ∈ name.toList, isNameRest c = true

/-- A keyword is written with its spelling. -/
theorem nameToken_lexeme (name : String) : (nameToken name).lexeme = name.toList := by
  unfold nameToken
  split
  · next word hword =>
    have hspelling := List.find?_some hword
    rw [TokenKind.lexeme, beq_iff_eq.mp hspelling]
  · rfl

theorem not_isDigit_of_isNameStart {c : Char} (h : isNameStart c = true) : c.isDigit = false := by
  have hall : ∀ n < 58, (Char.ofNat n).isDigit = true → isNameStart (Char.ofNat n) = false := by
    decide
  rw [Bool.eq_false_iff]
  intro hdigit
  have hlt : c.toNat < 58 := by
    simp only [Char.isDigit, Bool.and_eq_true, decide_eq_true_eq] at hdigit
    exact Nat.lt_succ_of_le hdigit.2
  have hstart := hall c.toNat hlt
  rw [Char.ofNat_toNat] at hstart
  exact absurd h (by simp [hstart hdigit])

theorem standalone_name {name : String} (word : IsWord name) : (nameToken name).Standalone := by
  obtain ⟨c, cs, hname, hstart⟩ := word.head
  have hgap : isSpace c = false ∧ c ≠ '/' := not_gap (p := isNameStart) (by decide) hstart
  constructor
  · intro position rest parted
    obtain ⟨htake, hdrop⟩ := parted.takeWhile (p := isNameRest) (by decide) (by decide)
    have hdigit := not_isDigit_of_isNameStart hstart
    have hpoint : c ≠ '.' := by
      rintro rfl
      exact absurd hstart (by decide)
    have hnumber : ¬startsNumber (c :: (cs ++ rest)) = true := by
      simp [startsNumber, hpoint, hdigit]
    have hquote : ¬ (c = '\'' ∨ c = '"') := by
      rintro (rfl | rfl) <;> exact absurd hstart (by decide)
    rw [nameToken_lexeme, hname, List.cons_append]
    have hlexes := Lexes.name hnumber hquote hstart
    rw [← List.cons_append, ← hname, List.takeWhile_append_of_pos word.parts,
      List.dropWhile_append_of_pos word.parts, htake, hdrop, List.append_nil,
      String.ofList_toList, hname] at hlexes
    exact scanToken_eq_ok.mpr hlexes
  · intro position newline rest parted
    rw [nameToken_lexeme, hname, List.cons_append]
    exact skipGap_stop hgap _ _ _

@[simp]
theorem standalone_symbol (sign : Symbol) : (TokenKind.symbol sign).Standalone := by
  constructor
  · rintro position rest (rfl | ⟨c, rest, rfl, rfl | rfl⟩) <;> cases sign <;> rfl
  · rintro position newline rest (rfl | ⟨c, rest, rfl, rfl | rfl⟩) <;> cases sign <;> rfl

/-- **Every token that is scanned stands for itself,** and is written with the characters that it is
scanned from. -/
theorem standalone_of_scan {position : Nat} {text rest : List Char} {kind : TokenKind}
    (h : scanToken position text = .ok (kind, rest)) :
    kind.Standalone ∧ text = kind.lexeme ++ rest := by
  cases scanToken_eq_ok.mp h with
  | @number c text starts =>
    obtain ⟨heq, written⟩ := Numeral.scan_eq (c :: text)
    refine ⟨standalone_number written (hasDigit_of_startsNumber starts), ?_⟩
    rw [TokenKind.lexeme, String.toList_ofList]
    exact heq
  | @string c _ _ _ _ quoted body =>
    have hback : c ≠ '\\' := by rcases quoted with rfl | rfl <;> decide
    obtain ⟨rfl, hagain⟩ := scanQuoted_append hback body
    refine ⟨standalone_string quoted hagain, ?_⟩
    simp [TokenKind.lexeme]
  | @name c text _ _ starts =>
    have hpart : isNameRest c = true := by simp [isNameRest, starts]
    have word : IsWord (String.ofList ((c :: text).takeWhile isNameRest)) := by
      constructor
      · exact ⟨c, text.takeWhile isNameRest, by simp [hpart], starts⟩
      · intro d hd
        rw [String.toList_ofList] at hd
        exact List.mem_takeWhile_imp hd
    refine ⟨standalone_name word, ?_⟩
    rw [nameToken_lexeme, String.toList_ofList, List.takeWhile_append_dropWhile]
  | @symbol c text sign _ _ _ found =>
    obtain ⟨rest, hrest⟩ := Symbol.prefix_of_scan? found
    refine ⟨standalone_symbol sign, ?_⟩
    rw [← hrest, List.drop_left]
    rfl

end Source

end Formulary
