import Formulary.Proofs.Source.Spacing
import Formulary.Proofs.Source.Spans

/-!
# The tokens of texts on end

* `skipGap_trivia`, `Trivia.closed` : complete trivia is skipped whatever follows, and a line feed
  completes the trivia at the end of a text;
* `scanToken_append` : a token is scanned as before where a blank and more follow its text;
* `Shows` : texts with given kinds of tokens and line breaks, wherever they stand;
* `Scans.append` : what such texts show on end;
* `shows_joined` : two texts with a semicolon on a line of its own between them.
-/

namespace Formulary

namespace Source

variable {text rest gap more : List Char} {position start stop : Nat} {newline newline' : Bool}
  {tokens : List Token} {ending : Ending} {aspects : List (TokenKind × Bool)}

/-! ## Gaps -/

theorem skipGap_lineBody {body : List Char} (within : '\n' ∉ body) (rest : List Char)
    (position : Nat) (newline : Bool) :
    skipGap .line (body ++ '\n' :: rest) position newline =
      skipGap .blank rest (position + byteLength body + 1) true := by
  induction body generalizing position with
  | nil => simp [skipGap]
  | cons c body ih =>
    obtain ⟨hc, hbody⟩ := List.ne_and_not_mem_of_not_mem_cons within
    rw [List.cons_append, skipGap, if_neg (Ne.symm hc), ih hbody, byteLength_cons,
      ← Nat.add_assoc]

/-- A comment whose line is the last one. -/
theorem skipGap_lastLine {body : List Char} (within : '\n' ∉ body) (position : Nat)
    (newline : Bool) :
    ∃ stop, skipGap .line body position newline = .ok ([], stop, newline) := by
  induction body generalizing position with
  | nil => exact ⟨position, by simp [skipGap]⟩
  | cons c body ih =>
    obtain ⟨hc, hbody⟩ := List.ne_and_not_mem_of_not_mem_cons within
    rw [skipGap, if_neg (Ne.symm hc)]
    exact ih hbody _

theorem skipGap_blockBody {body : List Char} (within : ¬ closing <:+: body) (start : Nat)
    (rest : List Char) (position : Nat) (newline : Bool) :
    skipGap (.block start) (body ++ '*' :: '/' :: rest) position newline =
      skipGap .blank rest (position + byteLength body + 2)
        (newline || decide ('\n' ∈ body)) := by
  induction body generalizing position newline with
  | nil => simp [skipGap]
  | cons c body ih =>
    have hopen : ∀ tail, c = '*' → body ++ '*' :: '/' :: rest = '/' :: tail → False := by
      rintro tail rfl heq
      cases body with
      | nil => exact absurd (List.cons.inj heq).1 (by decide)
      | cons d body =>
        obtain ⟨rfl, -⟩ := List.cons.inj heq
        exact within ⟨[], body, rfl⟩
    have hbody : ¬ closing <:+: body := fun hinfix => within (List.infix_cons hinfix)
    rw [List.cons_append, skipGap]
    · rw [ih hbody, byteLength_cons]
      simp [Nat.add_assoc, Bool.or_assoc, beq_eq_decide, @eq_comm _ c '\n']
    · exact hopen

/-- **Complete trivia is skipped whatever follows it,** and its line feeds are noted. -/
theorem skipGap_trivia (h : Trivia False gap) (rest : List Char) (position : Nat)
    (newline : Bool) :
    skipGap .blank (gap ++ rest) position newline =
      skipGap .blank rest (position + byteLength gap) (newline || decide ('\n' ∈ gap)) := by
  induction h generalizing position newline with
  | nil => simp
  | @space c gap blank _ ih =>
    have hslash : c ≠ '/' := by
      rintro rfl
      exact absurd blank (by decide)
    rw [List.cons_append, skipGap]
    · rw [if_pos blank, ih, byteLength_cons, utf8Size_of_isSpace blank]
      simp [Nat.add_assoc, Bool.or_assoc, beq_eq_decide, @eq_comm _ c '\n']
    · exact fun _ heq => absurd heq hslash
    · exact fun _ heq => absurd heq hslash
  | line within _ ih =>
    rw [List.cons_append, List.cons_append, List.append_assoc, List.cons_append, skipGap,
      skipGap_lineBody within, ih]
    simp
    congr 1
    omega
  | block within _ ih =>
    rw [List.cons_append, List.cons_append, List.append_assoc, List.cons_append,
      List.cons_append, skipGap, skipGap_blockBody within, ih]
    simp [Bool.or_assoc]
    congr 1
    omega
  | lastLine ends => exact ends.elim

/-- Trivia up to the end of the text is skipped. -/
theorem skipGap_ends {last : Prop} (h : Trivia last gap) (position : Nat) (newline : Bool) :
    ∃ stop newline', skipGap .blank gap position newline = .ok ([], stop, newline') := by
  induction h generalizing position newline with
  | nil => exact ⟨position, newline, by simp [skipGap]⟩
  | @space c gap blank _ ih =>
    have hskip := skipGap_trivia (.space blank .nil) gap position newline
    rw [List.singleton_append] at hskip
    exact hskip ▸ ih _ _
  | @line body gap within _ ih =>
    have hskip := skipGap_trivia (.line within .nil) gap position newline
    simp only [List.cons_append, List.append_assoc, List.nil_append] at hskip
    exact hskip ▸ ih _ _
  | @block body gap within _ ih =>
    have hskip := skipGap_trivia (.block within .nil) gap position newline
    simp only [List.cons_append, List.append_assoc, List.nil_append] at hskip
    exact hskip ▸ ih _ _
  | lastLine _ within =>
    rw [skipGap]
    obtain ⟨stop, h⟩ := skipGap_lastLine within (position + 2) newline
    exact ⟨stop, newline, h⟩

/-- A line feed completes trivia at the end of a text. -/
theorem Trivia.closed {last : Prop} (h : Trivia last gap) : Trivia False (gap ++ ['\n']) := by
  induction h with
  | nil => exact .space (by decide) .nil
  | space blank _ ih => exact .space blank ih
  | line within _ ih => simpa using Trivia.line within ih
  | block within _ ih => simpa using Trivia.block within ih
  | lastLine _ within => simpa using Trivia.line within .nil

/-- Where a gap stopped, none begins, and none does when a blank and more follow the text. -/
theorem skipGap_stopped {gap : Gap} {c : Char}
    (h : skipGap gap text position newline = .ok (c :: rest, stop, newline'))
    (parted : Parted more) (position' : Nat) (before : Bool) :
    skipGap .blank (c :: rest ++ more) position' before =
      .ok (c :: rest ++ more, position', before) := by
  fun_induction skipGap gap text position newline with
  | case1 _ _ _ ih => exact ih h
  | case2 _ _ _ ih => exact ih h
  | case3 _ _ _ _ _ _ _ ih => exact ih h
  | case4 d text position newline hline hblock hspace =>
    cases h
    have hopen : ∀ sign, sign ≠ ' ' → sign ≠ '\n' → ∀ tail, rest ++ more = sign :: tail →
        ∃ tail', rest = sign :: tail' := by
      intro sign hblank hfeed tail heq
      cases rest with
      | cons d rest => exact ⟨rest, by rw [(List.cons.inj heq).1]⟩
      | nil =>
        rcases parted with rfl | ⟨d, more, rfl, rfl | rfl⟩
        · cases heq
        · exact absurd (List.cons.inj heq).1.symm hblank
        · exact absurd (List.cons.inj heq).1.symm hfeed
    rw [List.cons_append, skipGap]
    · rw [if_neg hspace]
    · rintro tail rfl heq
      obtain ⟨tail', rfl⟩ := hopen '/' (by decide) (by decide) tail heq
      exact hline tail' rfl rfl
    · rintro tail rfl heq
      obtain ⟨tail', rfl⟩ := hopen '*' (by decide) (by decide) tail heq
      exact hblock tail' rfl rfl
  | case5 _ _ _ ih => exact ih h
  | case6 _ _ _ _ _ ih => exact ih h
  | case7 _ _ _ _ ih => exact ih h
  | case8 _ _ _ _ _ _ ih => exact ih h
  | case9 => cases h
  | case10 => cases h

/-- What is skipped before a token is skipped as before. -/
theorem skipGap_append {c : Char}
    (h : skipGap .blank text position false = .ok (c :: rest, start, newline))
    (parted : Parted more) (position' : Nat) (before : Bool) :
    ∃ start', skipGap .blank (text ++ more) position' before =
      .ok (c :: rest ++ more, start', before || newline) := by
  obtain ⟨skipped, rfl, -, hnewline, htrivia⟩ := skipGap_covers h
  have hfeed : decide ('\n' ∈ skipped) = newline := by
    rw [Bool.eq_iff_iff]
    simpa using hnewline.symm
  refine ⟨position' + byteLength skipped, ?_⟩
  rw [List.append_assoc, skipGap_trivia (by simpa [Gap.Covers] using htrivia), hfeed,
    skipGap_stopped h parted]

/-! ## Tokens -/

section Tokens

variable {p : Char → Bool}

/-- A class of characters without blanks stops where it did. -/
theorem takeWhile_parted (space : p ' ' = false) (lineFeed : p '\n' = false)
    (parted : Parted more) (text : List Char) :
    (text ++ more).takeWhile p = text.takeWhile p ∧
      (text ++ more).dropWhile p = text.dropWhile p ++ more := by
  obtain ⟨htake, hdrop⟩ := parted.takeWhile space lineFeed
  induction text with
  | nil => exact ⟨htake, hdrop⟩
  | cons c text ih =>
    rw [List.cons_append, List.takeWhile_cons, List.takeWhile_cons, List.dropWhile_cons,
      List.dropWhile_cons]
    split
    · exact ⟨congrArg (c :: ·) ih.1, ih.2⟩
    · exact ⟨rfl, rfl⟩

theorem startsNumber_append (parted : Parted more) (h : text ≠ []) :
    startsNumber (text ++ more) = startsNumber text := by
  obtain ⟨c, text, rfl⟩ := List.exists_cons_of_ne_nil h
  cases text with
  | cons d text => by_cases hc : c = '.' <;> simp [startsNumber, hc]
  | nil =>
    rcases parted with rfl | ⟨d, more, rfl, rfl | rfl⟩
    · rfl
    · by_cases hc : c = '.' <;> simp [startsNumber, hc]
    · by_cases hc : c = '.' <;> simp [startsNumber, hc]

theorem isPrefixOf_append_blank {chars : List Char} {blank : Char} (h : blank ∉ chars)
    (text more : List Char) :
    chars.isPrefixOf (text ++ blank :: more) = chars.isPrefixOf text := by
  induction chars generalizing text with
  | nil => simp
  | cons c chars ih =>
    obtain ⟨hc, hchars⟩ := List.ne_and_not_mem_of_not_mem_cons h
    cases text with
    | nil => simp [List.isPrefixOf, Ne.symm hc]
    | cons d text => simp [List.isPrefixOf, ih hchars]

theorem Symbol.blank_notMem (sign : Symbol) : ' ' ∉ sign.chars ∧ '\n' ∉ sign.chars := by
  cases sign <;> decide

theorem Symbol.scan?_append (parted : Parted more) (text : List Char) :
    Symbol.scan? (text ++ more) = Symbol.scan? text := by
  have hprefix : ∀ sign : Symbol,
      sign.chars.isPrefixOf (text ++ more) = sign.chars.isPrefixOf text := by
    intro sign
    rcases parted with rfl | ⟨c, more, rfl, rfl | rfl⟩
    · rw [List.append_nil]
    · exact isPrefixOf_append_blank sign.blank_notMem.1 text more
    · exact isPrefixOf_append_blank sign.blank_notMem.2 text more
  simp only [Symbol.scan?, hprefix]

theorem scanFraction_append (parted : Parted more) (text : List Char) :
    Number.scanFraction (text ++ more) =
      ((Number.scanFraction text).1, (Number.scanFraction text).2 ++ more) := by
  cases text with
  | nil => rcases parted with rfl | ⟨c, more, rfl, rfl | rfl⟩ <;> simp [Number.scanFraction]
  | cons c text =>
    obtain ⟨htake, hdrop⟩ := takeWhile_parted (p := Char.isDigit) (by decide) (by decide) parted
      text
    by_cases hc : c = '.'
    · subst hc
      simp [Number.scanFraction, htake, hdrop]
    · simp [Number.scanFraction, hc]

theorem scanMark?_append (parted : Parted more) (text : List Char) :
    Number.scanMark? (text ++ more) =
      (Number.scanMark? text).map fun (mark, rest) => (mark, rest ++ more) := by
  cases text with
  | nil => exact Number.scanMark?_apart (Number.apart_of_parted parted)
  | cons c text =>
    by_cases hc : c = 'e' ∨ c = 'E'
    · cases text with
      | nil => rcases parted with rfl | ⟨d, more, rfl, rfl | rfl⟩ <;> simp [Number.scanMark?, hc]
      | cons d text =>
        by_cases hplus : d = '+'
        · simp [Number.scanMark?, hc, hplus]
        · by_cases hminus : d = '-'
          · simp [Number.scanMark?, hc, hminus]
          · simp [Number.scanMark?, hc, hplus, hminus]
    · simp [Number.scanMark?, hc]

theorem scanExponent_append (parted : Parted more) (text : List Char) :
    Number.scanExponent (text ++ more) =
      ((Number.scanExponent text).1, (Number.scanExponent text).2 ++ more) := by
  unfold Number.scanExponent
  rw [scanMark?_append parted]
  cases Number.scanMark? text with
  | none => rfl
  | some parts =>
    obtain ⟨mark, rest⟩ := parts
    obtain ⟨htake, hdrop⟩ := takeWhile_parted (p := Char.isDigit) (by decide) (by decide) parted
      rest
    dsimp only [Option.map_some]
    rw [htake, hdrop]
    cases rest.takeWhile Char.isDigit <;> rfl

theorem numeral_scan_append (parted : Parted more) (text : List Char) :
    Number.Numeral.scan (text ++ more) =
      ((Number.Numeral.scan text).1, (Number.Numeral.scan text).2 ++ more) := by
  obtain ⟨htake, hdrop⟩ := takeWhile_parted (p := Char.isDigit) (by decide) (by decide) parted text
  simp only [Number.Numeral.scan, htake, hdrop, scanFraction_append parted,
    scanExponent_append parted]

end Tokens

/-- **A token is scanned as before where a blank and more follow its text.** -/
theorem scanToken_append {kind : TokenKind} (h : scanToken position text = .ok (kind, rest))
    (parted : Parted more) (position' : Nat) :
    scanToken position' (text ++ more) = .ok (kind, rest ++ more) := by
  refine scanToken_eq_ok.mpr ?_
  have hnumber (c : Char) (text : List Char) :
      startsNumber (c :: (text ++ more)) = startsNumber (c :: text) :=
    startsNumber_append parted (List.cons_ne_nil c text)
  cases scanToken_eq_ok.mp h with
  | @number c text starts =>
    have hlexes := Lexes.number ((hnumber c text).trans starts)
    rwa [← List.cons_append, numeral_scan_append parted (c :: text)] at hlexes
  | @string c text raw rest unnumbered quoted body =>
    have hback : c ≠ '\\' := by rcases quoted with rfl | rfl <;> decide
    obtain ⟨rfl, hagain⟩ := scanQuoted_append hback body
    refine .string ((hnumber c _).symm ▸ unnumbered) quoted ?_
    change scanQuoted c (raw ++ c :: rest ++ more) = _
    rw [List.append_assoc, List.cons_append, hagain]
  | @name c text unnumbered unquoted starts =>
    obtain ⟨htake, hdrop⟩ :=
      takeWhile_parted (p := isNameRest) (by decide) (by decide) parted (c :: text)
    have hlexes := Lexes.name ((hnumber c text).symm ▸ unnumbered) unquoted starts
    rwa [← List.cons_append, htake, hdrop] at hlexes
  | @symbol c text sign unnumbered unquoted unnamed found =>
    have hfound : Symbol.scan? (c :: (text ++ more)) = some sign :=
      (Symbol.scan?_append parted (c :: text)).trans found
    have hlexes := Lexes.symbol ((hnumber c text).symm ▸ unnumbered) unquoted unnamed hfound
    rwa [← List.cons_append, List.drop_append_of_le_length (Symbol.prefix_of_scan? found).length_le] at hlexes

/-! ## Texts -/

/-- The kinds and line breaks of tokens that begin on a new line. -/
def onNewLine : List (TokenKind × Bool) → List (TokenKind × Bool)
  | [] => []
  | (kind, _) :: rest => (kind, true) :: rest

/-- Whether a text has the given kinds of tokens and line breaks and ends without an error, wherever
it begins. -/
def Shows (text : List Char) (aspects : List (TokenKind × Bool)) : Prop :=
  ∀ position, ∃ tokens ending, Scans text position tokens ending ∧
    tokens.map Token.aspect = aspects ∧ ending.fault? = none

theorem shows_trivia {last : Prop} (h : Trivia last gap) : Shows gap [] := by
  intro position
  obtain ⟨stop, newline, hgap⟩ := skipGap_ends h position false
  exact ⟨[], .complete stop newline, .ends hgap, rfl, rfl⟩

/-- **Tokens are read as before where a blank and more follow their text.** What the text behind the
last token shows with what follows it is left open. -/
theorem Scans.append (h : Scans text position tokens ending) (complete : ending.fault? = none)
    (parted : Parted more) (behind : ∀ gap, Trivia True gap → Shows (gap ++ more) aspects) :
    Shows (text ++ more) (tokens.map Token.aspect ++ aspects) := by
  induction h with
  | ends gap =>
    obtain ⟨skipped, rfl, -, -, htrivia⟩ := skipGap_covers gap
    rw [List.append_nil]
    exact behind skipped (by simpa [Gap.Covers] using htrivia)
  | unclosed => cases complete
  | refused => cases complete
  | @token text rest after position start newline c kind tokens ending gap head _ ih =>
    intro position'
    obtain ⟨start', hgap⟩ := skipGap_append gap parted position' false
    obtain ⟨tokens', ending', htail, haspects, hending⟩ := ih complete _
    refine ⟨_, ending', .token hgap (scanToken_append head parted start') htail, ?_, hending⟩
    simp [haspects, Token.aspect]

/-- What a text shows, it shows wherever it stands. -/
theorem Scans.shows (h : Scans text position tokens ending) (complete : ending.fault? = none) :
    Shows text (tokens.map Token.aspect) := by
  have hends : ∀ gap, Trivia True gap → Shows (gap ++ []) [] := fun gap htrivia =>
    (List.append_nil gap).symm ▸ shows_trivia htrivia
  have happend := h.append complete .nil hends
  rwa [List.append_nil, List.append_nil] at happend

/-- A gap with a line feed in it puts a text on a new line. -/
theorem Shows.behind (h : Shows text aspects) (trivia : Trivia False gap) (feed : '\n' ∈ gap) :
    Shows (gap ++ text) (onNewLine aspects) := by
  intro position
  have hskip := skipGap_trivia trivia text position false
  rw [Bool.false_or, decide_eq_true feed] at hskip
  obtain ⟨tokens, ending, hscans, rfl, complete⟩ := h (position + byteLength gap)
  cases hscans with
  | ends hgap =>
    obtain ⟨skipped, rfl, -, -, htrivia⟩ := skipGap_covers hgap
    rw [List.append_nil] at hskip ⊢
    obtain ⟨stop, newline, hends⟩ := skipGap_ends htrivia (position + byteLength gap) true
    exact ⟨[], .complete stop newline, .ends (hskip.trans hends), rfl, rfl⟩
  | unclosed => cases complete
  | refused => cases complete
  | token hgap head tail =>
    obtain ⟨start, hstop⟩ := skipGap_append hgap .nil (position + byteLength gap) true
    rw [List.append_nil, List.append_nil] at hstop
    have hhead := scanToken_append head .nil start
    rw [List.append_nil, List.append_nil] at hhead
    obtain ⟨tokens', ending', htail, haspects, hending⟩ := tail.shows complete _
    refine ⟨_, ending', .token (hskip.trans hstop) hhead htail, ?_, hending⟩
    simp [haspects, onNewLine, Token.aspect]

theorem Shows.semicolon (h : Shows text aspects) (parted : Parted text) :
    Shows (';' :: text) ((.symbol .semicolon, false) :: aspects) := by
  intro position
  have standalone := standalone_symbol .semicolon
  obtain ⟨tokens, ending, hscans, haspects, hending⟩ :=
    h (position + byteLength (TokenKind.symbol .semicolon).lexeme)
  refine ⟨_, ending, .token (standalone.begins position false text parted)
    (standalone.scans position text parted) hscans, ?_, hending⟩
  simp [haspects, Token.aspect]

/-- What a text that is read to its end shows. -/
theorem shows_of_complete (h : (tokenize text).ending.fault? = none) :
    Shows text ((tokenize text).tokens.map Token.aspect) :=
  (scans_iff.mpr (rfl : tokenize text = ⟨(tokenize text).tokens, _⟩)).shows h

/-- **Two texts with a semicolon on a line of its own between them** have the tokens of the first
one, the semicolon, and the tokens of the second one, which begin on a new line. A comment that the
end of the first text ends is ended by the line feed. -/
theorem tokenize_joined {first second : List Char}
    (complete : (tokenize first).ending.fault? = none)
    (complete' : (tokenize second).ending.fault? = none) :
    (tokenize (first ++ '\n' :: ';' :: '\n' :: second)).tokens.map Token.aspect =
        (tokenize first).tokens.map Token.aspect ++
          (.symbol .semicolon, true) :: onNewLine ((tokenize second).tokens.map Token.aspect) ∧
      (tokenize (first ++ '\n' :: ';' :: '\n' :: second)).ending.fault? = none := by
  have hfeed : Trivia False ['\n'] := .space (by decide) .nil
  have hsecond := (shows_of_complete complete').behind hfeed List.mem_cons_self
  have hmiddle := hsecond.semicolon (.lineFeed _)
  have hscans := scans_iff.mpr (rfl : tokenize first = ⟨(tokenize first).tokens, _⟩)
  have hjoined := hscans.append complete (.lineFeed (';' :: '\n' :: second)) fun gap htrivia => by
    have hbehind := hmiddle.behind htrivia.closed (by simp)
    rwa [List.append_assoc] at hbehind
  obtain ⟨tokens, ending, hscans', haspects, hending⟩ := hjoined 0
  rw [scans_iff.mp hscans']
  exact ⟨haspects, hending⟩

end Source

end Formulary
