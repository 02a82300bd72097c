import Formulary.Source.Lexeme
import Mathlib.Data.List.TakeWhile

/-!
# Where the tokens of a text stand

* `Skips`, `skipGap_skips`, `scanToken_suffix` : what is left of a text behind a gap and behind a
  token;
* `Lexes`, `scanToken_eq_ok`, `Unlexed` : the cases in which a token is scanned and none is;
* `scanToken_chars` : the characters that a name or a sign is read from;
* `tokenizeFrom_cons` : the first token of a text and the text behind it;
* `chars_of_adjacent` : a sign that begins where a name ends stands behind it in the text.
-/

namespace Formulary.Source

/-! ## Gaps -/

/-- Whether `rest` is left of a text when characters are skipped, each of which moves the position
by at least one. -/
def Skips (text rest : List Char) (position stop : Nat) : Prop :=
  ∃ skipped, text = skipped ++ rest ∧ position + skipped.length ≤ stop

theorem skips_refl (text : List Char) (position : Nat) : Skips text text position position :=
  ⟨[], rfl, Nat.le_refl _⟩

theorem Skips.cons {text rest : List Char} {position step stop : Nat} (c : Char)
    (h : Skips text rest (position + step) stop) (moves : 0 < step) :
    Skips (c :: text) rest position stop := by
  obtain ⟨skipped, rfl, hstop⟩ := h
  refine ⟨c :: skipped, rfl, ?_⟩
  rw [List.length_cons]
  omega

theorem Skips.cons_cons {text rest : List Char} {position stop : Nat} (c d : Char)
    (h : Skips text rest (position + 2) stop) : Skips (c :: d :: text) rest position stop := by
  obtain ⟨skipped, rfl, hstop⟩ := h
  refine ⟨c :: d :: skipped, rfl, ?_⟩
  rw [List.length_cons, List.length_cons]
  omega

/-- A gap leaves the text behind it. -/
theorem skipGap_skips {gap : Gap} {text rest : List Char} {position stop : Nat}
    {newline newline' : Bool} (h : skipGap gap text position newline = .ok (rest, stop, newline')) :
    Skips text rest position stop := by
  fun_induction skipGap gap text position newline with
  | case1 _ _ _ ih => exact (ih h).cons_cons _ _
  | case2 _ _ _ ih => exact (ih h).cons_cons _ _
  | case3 c _ _ _ _ _ _ ih => exact (ih h).cons c Nat.one_pos
  | case4 =>
    cases h
    exact skips_refl _ _
  | case5 _ _ _ ih => exact (ih h).cons _ Nat.one_pos
  | case6 c _ _ _ _ ih => exact (ih h).cons c c.utf8Size_pos
  | case7 _ _ _ _ ih => exact (ih h).cons_cons _ _
  | case8 _ c _ _ _ _ ih => exact (ih h).cons c c.utf8Size_pos
  | case9 => cases h
  | case10 =>
    cases h
    exact skips_refl _ _

theorem Skips.suffix {text rest : List Char} {position stop : Nat}
    (h : Skips text rest position stop) : rest <:+ text := by
  obtain ⟨skipped, rfl, -⟩ := h
  exact List.suffix_append skipped rest

/-- Where the position does not move, nothing is skipped. -/
theorem Skips.eq_of_stop {text rest : List Char} {position : Nat}
    (h : Skips text rest position position) : text = rest := by
  obtain ⟨skipped, rfl, hstop⟩ := h
  rw [List.eq_nil_of_length_eq_zero (by omega : skipped.length = 0), List.nil_append]

/-! ## Tokens -/

theorem scanQuoted_suffix {quote : Char} {text raw rest : List Char}
    (h : scanQuoted quote text = some (raw, rest)) : rest <:+ text := by
  fun_induction scanQuoted quote text generalizing raw rest with
  | case1 => cases h
  | case2 c text ih =>
    obtain ⟨⟨raw', rest'⟩, htail, heq⟩ := Option.map_eq_some_iff.mp h
    cases heq
    exact (ih htail).trans ((List.suffix_cons _ _).trans (List.suffix_cons _ _))
  | case3 =>
    cases h
    exact List.suffix_cons _ _
  | case4 => cases h
  | case5 c text _ _ _ ih =>
    obtain ⟨⟨raw', rest'⟩, htail, heq⟩ := Option.map_eq_some_iff.mp h
    cases heq
    exact (ih htail).trans (List.suffix_cons _ _)

end Formulary.Source

namespace Formulary.Number

theorem scanFraction_suffix (text : List Char) : (scanFraction text).2 <:+ text := by
  unfold scanFraction
  split
  · exact (List.dropWhile_suffix _).trans (List.suffix_cons _ _)
  · exact List.suffix_rfl

theorem scanMark?_suffix {text mark rest : List Char} (h : scanMark? text = some (mark, rest)) :
    rest <:+ text := by
  cases text with
  | nil => cases h
  | cons c text =>
    simp only [scanMark?] at h
    split at h
    · split at h <;> cases h
      · exact (List.suffix_cons _ _).trans (List.suffix_cons _ _)
      · exact (List.suffix_cons _ _).trans (List.suffix_cons _ _)
      · exact List.suffix_cons _ _
    · cases h

theorem scanExponent_suffix (text : List Char) : (scanExponent text).2 <:+ text := by
  unfold scanExponent
  split
  · exact List.suffix_rfl
  · next mark rest hmark =>
    split
    · exact List.suffix_rfl
    · exact (List.dropWhile_suffix _).trans (scanMark?_suffix hmark)

/-- A numeral leaves the text behind it. -/
theorem Numeral.scan_suffix (text : List Char) : (Numeral.scan text).2 <:+ text :=
  (scanExponent_suffix _).trans ((scanFraction_suffix _).trans (List.dropWhile_suffix _))

end Formulary.Number

namespace Formulary.Source

theorem Symbol.prefix_of_scan? {text : List Char} {sign : Symbol}
    (h : Symbol.scan? text = some sign) : sign.chars <+: text :=
  List.isPrefixOf_iff_prefix.mp (by simpa using List.find?_some h)

theorem nameToken_eq (name : String) :
    (∃ word, nameToken name = .keyword word) ∨ nameToken name = .identifier name := by
  unfold nameToken
  split
  · exact .inl ⟨_, rfl⟩
  · exact .inr rfl

/-- Which token stands at the head of a text, and what is left behind it: a number, else a string,
else a name, else a sign. -/
inductive Lexes : List Char → TokenKind → List Char → Prop
  | number {c : Char} {text : List Char} (starts : startsNumber (c :: text) = true) :
    Lexes (c :: text) (.number (String.ofList (Number.Numeral.scan (c :: text)).1.chars))
      (Number.Numeral.scan (c :: text)).2
  | string {c : Char} {text raw rest : List Char} (unnumbered : ¬startsNumber (c :: text) = true)
    (quoted : c = '\'' ∨ c = '"') (body : scanQuoted c text = some (raw, rest)) :
    Lexes (c :: text) (.string c (String.ofList raw)) rest
  | name {c : Char} {text : List Char} (unnumbered : ¬startsNumber (c :: text) = true)
    (unquoted : ¬(c = '\'' ∨ c = '"')) (starts : isNameStart c = true) :
    Lexes (c :: text) (nameToken (String.ofList ((c :: text).takeWhile isNameRest)))
      ((c :: text).dropWhile isNameRest)
  | symbol {c : Char} {text : List Char} {sign : Symbol}
    (unnumbered : ¬startsNumber (c :: text) = true) (unquoted : ¬(c = '\'' ∨ c = '"'))
    (unnamed : ¬isNameStart c = true) (found : Symbol.scan? (c :: text) = some sign) :
    Lexes (c :: text) (.symbol sign) ((c :: text).drop sign.chars.length)

/-- Why no token stands at the head of a text at a position: a string in it is not closed, or it
begins with no sign either. -/
inductive Unlexed (position : Nat) : List Char → SyntaxError → Prop
  | string {c : Char} {text : List Char} (quoted : c = '\'' ∨ c = '"')
    (body : scanQuoted c text = none) : Unlexed position (c :: text) (.unclosedString position)
  | character {c : Char} {text : List Char} (unnumbered : ¬startsNumber (c :: text) = true)
    (unquoted : ¬(c = '\'' ∨ c = '"')) (unnamed : ¬isNameStart c = true)
    (missing : Symbol.scan? (c :: text) = none) :
    Unlexed position (c :: text) (.unexpectedToken (String.ofList [c]) position)

/-- **What is scanned is the token at the head of the text.** -/
theorem scanToken_eq_ok {position : Nat} {text rest : List Char} {kind : TokenKind} :
    scanToken position text = .ok (kind, rest) ↔ Lexes text kind rest := by
  constructor
  · intro h
    cases text with
    | nil => cases h
    | cons c text =>
      unfold scanToken at h
      dsimp only at h
      split at h
      · next starts =>
        cases h
        exact .number starts
      · next unnumbered =>
        split at h
        · next quoted =>
          split at h
          · next body =>
            cases h
            exact .string unnumbered quoted body
          · cases h
        · next unquoted =>
          split at h
          · next starts =>
            cases h
            exact .name unnumbered unquoted starts
          · next unnamed =>
            split at h
            · next found =>
              cases h
              exact .symbol unnumbered unquoted unnamed found
            · cases h
  · intro h
    unfold scanToken
    cases h with
    | number starts => exact if_pos starts
    | string unnumbered quoted body =>
      dsimp only
      rw [if_neg unnumbered, if_pos quoted, body]
    | name unnumbered unquoted starts =>
      dsimp only
      rw [if_neg unnumbered, if_neg unquoted, if_pos starts]
    | symbol unnumbered unquoted unnamed found =>
      dsimp only
      rw [if_neg unnumbered, if_neg unquoted, if_neg unnamed, found]

/-- A text with no token at its head is refused for the reason that there is. -/
theorem unlexed_of_scanToken {position : Nat} {c : Char} {text : List Char} {e : SyntaxError}
    (h : scanToken position (c :: text) = .error e) : Unlexed position (c :: text) e := by
  unfold scanToken at h
  dsimp only at h
  split at h
  · cases h
  · next unnumbered =>
    split at h
    · next quoted =>
      split at h
      · cases h
      · next body =>
        cases h
        exact .string quoted body
    · next unquoted =>
      split at h
      · cases h
      · next unnamed =>
        split at h
        · cases h
        · next missing =>
          cases h
          exact .character unnumbered unquoted unnamed missing

/-- A number is what is scanned of a text that begins with one. -/
theorem Lexes.of_number {text rest : List Char} {literal : String}
    (h : Lexes text (.number literal) rest) :
    startsNumber text = true ∧ literal = String.ofList (Number.Numeral.scan text).1.chars ∧
      rest = (Number.Numeral.scan text).2 := by
  generalize hkind : TokenKind.number literal = kind at h
  cases h with
  | number starts =>
    cases hkind
    exact ⟨starts, rfl, rfl⟩
  | string => cases hkind
  | @name c text =>
    obtain ⟨word, hword⟩ | hname := nameToken_eq (String.ofList ((c :: text).takeWhile isNameRest))
    · cases hkind.trans hword
    · cases hkind.trans hname
  | symbol => cases hkind

/-- An identifier is the name that a text begins with. -/
theorem Lexes.of_identifier {text rest : List Char} {name : String}
    (h : Lexes text (.identifier name) rest) :
    (∃ c after, text = c :: after ∧ isNameStart c = true) ∧
      name = String.ofList (text.takeWhile isNameRest) ∧ nameToken name = .identifier name ∧
      rest = text.dropWhile isNameRest := by
  generalize hkind : TokenKind.identifier name = kind at h
  cases h with
  | number => cases hkind
  | string => cases hkind
  | @name c text _ _ starts =>
    obtain ⟨word, hword⟩ | hname := nameToken_eq (String.ofList ((c :: text).takeWhile isNameRest))
    · cases hkind.trans hword
    · cases hkind.trans hname
      exact ⟨⟨_, _, rfl, starts⟩, rfl, rfl, rfl⟩
  | symbol => cases hkind

/-- A sign is one that a text begins with. -/
theorem Lexes.of_symbol {text rest : List Char} {sign : Symbol}
    (h : Lexes text (.symbol sign) rest) : text = sign.chars ++ rest := by
  generalize hkind : TokenKind.symbol sign = kind at h
  cases h with
  | number => cases hkind
  | string => cases hkind
  | @name c text =>
    obtain ⟨word, hword⟩ | hname := nameToken_eq (String.ofList ((c :: text).takeWhile isNameRest))
    · cases hkind.trans hword
    · cases hkind.trans hname
  | symbol _ _ _ found =>
    cases hkind
    obtain ⟨rest, hrest⟩ := Symbol.prefix_of_scan? found
    rw [← hrest, List.drop_left]

/-- A token leaves the text behind it. -/
theorem scanToken_suffix {position : Nat} {text rest : List Char} {kind : TokenKind}
    (h : scanToken position text = .ok (kind, rest)) : rest <:+ text := by
  cases scanToken_eq_ok.mp h with
  | number => exact Number.Numeral.scan_suffix _
  | string _ _ body => exact (scanQuoted_suffix body).trans (List.suffix_cons _ _)
  | name => exact List.dropWhile_suffix _
  | symbol => exact List.drop_suffix _ _

/-- A token that is no number and no string is written with the characters that it is read from. -/
theorem scanToken_chars {position : Nat} {text rest : List Char} {kind : TokenKind}
    (h : scanToken position text = .ok (kind, rest)) :
    (∀ name, kind = .identifier name →
      text = name.toList ++ rest ∧ ∀ c ∈ name.toList, isNameRest c = true) ∧
    (∀ sign, kind = .symbol sign → text = sign.chars ++ rest) := by
  have hlexes := scanToken_eq_ok.mp h
  constructor
  · rintro name rfl
    obtain ⟨-, rfl, -, rfl⟩ := hlexes.of_identifier
    rw [String.toList_ofList, List.takeWhile_append_dropWhile]
    exact ⟨rfl, fun c hc => List.mem_takeWhile_imp hc⟩
  · rintro sign rfl
    exact hlexes.of_symbol

/-! ## Texts -/

/-- The first token of a text: what is skipped before it, and what follows it. -/
theorem tokenizeFrom_cons {fuel position : Nat} {text : List Char} {token : Token}
    {tokens : List Token} (h : (tokenizeFrom fuel text position).tokens = token :: tokens) :
    ∃ fuel' start rest, Skips text start position token.start ∧
      scanToken token.start start = .ok (token.kind, rest) ∧
      (tokenizeFrom fuel' rest token.stop).tokens = tokens := by
  cases fuel with
  | zero => cases h
  | succ fuel =>
    unfold tokenizeFrom at h
    split at h
    · cases h
    · cases h
    · next c text' start newline hgap =>
      split at h
      · cases h
      · next kind rest htoken =>
        cases h
        exact ⟨fuel, c :: text', rest, skipGap_skips hgap, htoken, rfl⟩

/-- **A sign that begins where a name ends stands behind it in the text.** -/
theorem chars_of_adjacent {fuel position : Nat} {text : List Char} {before after : List Token}
    {callee opening : Token} {name : String} {sign : Symbol}
    (tokens : (tokenizeFrom fuel text position).tokens = before ++ callee :: opening :: after)
    (callee_kind : callee.kind = .identifier name) (opening_kind : opening.kind = .symbol sign)
    (adjacent : opening.start = callee.stop) :
    (∀ c ∈ name.toList, isNameRest c = true) ∧ name.toList ++ sign.chars <:+: text := by
  induction before generalizing fuel position text with
  | nil =>
    obtain ⟨fuel', start, rest, hskips, hcallee, htail⟩ := tokenizeFrom_cons tokens
    obtain ⟨fuel'', start', rest', hskips', hopening, -⟩ := tokenizeFrom_cons htail
    rw [adjacent] at hskips'
    obtain ⟨rfl, hname⟩ := (scanToken_chars hcallee).1 name callee_kind
    obtain rfl := (scanToken_chars hopening).2 sign opening_kind
    obtain rfl := hskips'.eq_of_stop
    refine ⟨hname, List.IsInfix.trans ?_ hskips.suffix.isInfix⟩
    rw [← List.append_assoc]
    exact (List.prefix_append _ _).isInfix
  | cons token before ih =>
    obtain ⟨fuel', start, rest, hskips, htoken, htail⟩ := tokenizeFrom_cons tokens
    obtain ⟨hname, hinfix⟩ := ih htail
    exact ⟨hname, hinfix.trans ((scanToken_suffix htoken).trans hskips.suffix).isInfix⟩

end Formulary.Source
