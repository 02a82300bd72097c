import Formulary.Proofs.Source.Rescanning

/-!
# The bytes that tokens cover

* `Trivia` : blanks and complete comments;
* `skipGap_covers`, `skipGap_unclosed` : what is skipped before a token is trivia;
* `Scans`, `scans_iff` : tokens are read one after the other until the text or a fault ends them;
* `Spans` : a token covers the bytes of its lexeme, and trivia stands before it;
* `tokenize_spans` : the tokens of a text cover it up to trivia.
-/

namespace Formulary.Source

variable {text rest read : List Char} {position start stop fuel : Nat} {newline newline' : Bool}
  {tokens : List Token} {ending : Ending}

/-! ## Bytes -/

@[simp] theorem byteLength_nil : byteLength [] = 0 := rfl

@[simp] theorem byteLength_cons (c : Char) (rest : List Char) :
    byteLength (c :: rest) = c.utf8Size + byteLength rest := rfl

@[simp] theorem byteLength_append (first second : List Char) :
    byteLength (first ++ second) = byteLength first + byteLength second := by
  induction first with
  | nil => simp
  | cons c first ih => rw [List.cons_append, byteLength_cons, byteLength_cons, ih, Nat.add_assoc]

theorem byteLength_pos (h : text ≠ []) : 0 < byteLength text := by
  obtain ⟨c, rest, rfl⟩ := List.exists_cons_of_ne_nil h
  have hc := c.utf8Size_pos
  rw [byteLength_cons]
  omega

@[simp] theorem utf8Size_slash : '/'.utf8Size = 1 := by decide

@[simp] theorem utf8Size_star : '*'.utf8Size = 1 := by decide

@[simp] theorem utf8Size_lineFeed : '\n'.utf8Size = 1 := by decide

/-- Every blank is one byte. -/
theorem utf8Size_of_isSpace {c : Char} (h : isSpace c = true) : c.utf8Size = 1 := by
  have hlt : c.toNat < 128 := by
    simp only [isSpace, Bool.or_eq_true, beq_iff_eq] at h
    rcases h with ((((rfl | rfl) | rfl) | rfl) | h) | h
    · decide
    · decide
    · decide
    · decide
    · omega
    · omega
  exact Char.utf8Size_eq_one_iff.mpr (UInt32.le_iff_toNat_le.mpr (Nat.le_of_lt_succ hlt))

/-! ## Trivia -/

/-- What ends a comment that may span lines. -/
def closing : List Char := ['*', '/']

/-- What has no closing mark in it has none either behind a character that begins none. -/
theorem not_closing_infix_cons {c : Char} (within : ¬ closing <:+: text)
    (hc : ∀ tail, c = '*' → text = '/' :: tail → False) : ¬ closing <:+: c :: text := by
  intro hinfix
  rcases List.infix_cons_iff.mp hinfix with ⟨tail, heq⟩ | hinfix
  · obtain ⟨hstar, hslash⟩ := List.cons.inj heq
    exact hc tail hstar.symm hslash.symm
  · exact within hinfix

/-- Blanks and complete comments. A comment that ends with its line needs no line feed where the
text ends behind it. -/
inductive Trivia (last : Prop) : List Char → Prop
  | nil : Trivia last []
  | space {c : Char} {rest : List Char} (blank : isSpace c = true) (after : Trivia last rest) :
    Trivia last (c :: rest)
  | line {body rest : List Char} (within : '\n' ∉ body) (after : Trivia last rest) :
    Trivia last ('/' :: '/' :: (body ++ '\n' :: rest))
  | block {body rest : List Char} (within : ¬ closing <:+: body) (after : Trivia last rest) :
    Trivia last ('/' :: '*' :: (body ++ '*' :: '/' :: rest))
  | lastLine {body : List Char} (ends : last) (within : '\n' ∉ body) :
    Trivia last ('/' :: '/' :: body)

/-- What is skipped from some point of a gap on. -/
def Gap.Covers (last : Prop) : Gap → List Char → Prop
  | .blank, skipped => Trivia last skipped
  | .line, skipped =>
    (∃ body rest, skipped = body ++ '\n' :: rest ∧ '\n' ∉ body ∧ Trivia last rest) ∨
      (last ∧ '\n' ∉ skipped)
  | .block _, skipped =>
    ∃ body rest, skipped = body ++ '*' :: '/' :: rest ∧ ¬ closing <:+: body ∧ Trivia last rest

namespace Gap.Covers

variable {last : Prop} {skipped : List Char} {c : Char}

theorem line (h : Gap.line.Covers last skipped) : Trivia last ('/' :: '/' :: skipped) := by
  rcases h with ⟨body, rest, rfl, within, after⟩ | ⟨ends, within⟩
  · exact .line within after
  · exact .lastLine ends within

theorem block (h : (Gap.block start).Covers last skipped) :
    Trivia last ('/' :: '*' :: skipped) := by
  obtain ⟨body, rest, rfl, within, after⟩ := h
  exact .block within after

/-- A comment goes on to the end of its line. -/
theorem line_cons (h : Gap.line.Covers last skipped) (hc : c ≠ '\n') :
    Gap.line.Covers last (c :: skipped) := by
  rcases h with ⟨body, rest, rfl, within, after⟩ | ⟨ends, within⟩
  · exact .inl ⟨c :: body, rest, rfl, by simp [hc.symm, within], after⟩
  · exact .inr ⟨ends, by simp [hc.symm, within]⟩

/-- A comment goes on to its closing mark, which does not begin with its next character. -/
theorem block_cons (h : (Gap.block start).Covers last skipped)
    (hc : ∀ tail, c = '*' → skipped ++ rest = '/' :: tail → False) :
    (Gap.block start).Covers last (c :: skipped) := by
  obtain ⟨body, tail, rfl, within, after⟩ := h
  refine ⟨c :: body, tail, rfl, not_closing_infix_cons within fun tail' hstar heq => ?_, after⟩
  exact hc (tail' ++ '*' :: '/' :: tail ++ rest) hstar (by simp [heq])

end Gap.Covers

/-- **What is skipped before a token is trivia,** and the line feeds in it are noted. -/
theorem skipGap_covers {gap : Gap}
    (h : skipGap gap text position newline = .ok (rest, stop, newline')) :
    ∃ skipped, text = skipped ++ rest ∧ stop = position + byteLength skipped ∧
      (newline' = true ↔ newline = true ∨ '\n' ∈ skipped) ∧ gap.Covers (rest = []) skipped := by
  fun_induction skipGap gap text position newline with
  | case1 text position newline ih =>
    obtain ⟨skipped, rfl, rfl, hnewline, hcovers⟩ := ih h
    refine ⟨'/' :: '/' :: skipped, rfl, ?_, by simp [hnewline], hcovers.line⟩
    simp
    omega
  | case2 text position newline ih =>
    obtain ⟨skipped, rfl, rfl, hnewline, hcovers⟩ := ih h
    refine ⟨'/' :: '*' :: skipped, rfl, ?_, by simp [hnewline], hcovers.block⟩
    simp
    omega
  | case3 c text position newline hline hblock hspace ih =>
    obtain ⟨skipped, rfl, rfl, hnewline, hcovers⟩ := ih h
    refine ⟨c :: skipped, rfl, ?_, ?_, .space hspace hcovers⟩
    · rw [byteLength_cons, utf8Size_of_isSpace hspace]
      omega
    · simp [hnewline, or_assoc, @eq_comm _ c '\n']
  | case4 =>
    cases h
    exact ⟨[], rfl, rfl, by simp, .nil⟩
  | case5 text position newline ih =>
    obtain ⟨skipped, rfl, rfl, hnewline, hcovers⟩ := ih h
    refine ⟨'\n' :: skipped, rfl, ?_, by simp [hnewline],
      .inl ⟨[], skipped, rfl, List.not_mem_nil, hcovers⟩⟩
    simp
    omega
  | case6 c text position newline hfeed ih =>
    obtain ⟨skipped, rfl, rfl, hnewline, hcovers⟩ := ih h
    refine ⟨c :: skipped, rfl, ?_, by simp [hnewline, Ne.symm hfeed], hcovers.line_cons hfeed⟩
    rw [byteLength_cons]
    omega
  | case7 start text position newline ih =>
    obtain ⟨skipped, rfl, rfl, hnewline, hcovers⟩ := ih h
    refine ⟨'*' :: '/' :: skipped, rfl, ?_, by simp [hnewline],
      ⟨[], skipped, rfl, by simp [closing], hcovers⟩⟩
    simp
    omega
  | case8 start c text position newline hclose ih =>
    obtain ⟨skipped, rfl, rfl, hnewline, hcovers⟩ := ih h
    refine ⟨c :: skipped, rfl, ?_, ?_, hcovers.block_cons hclose⟩
    · rw [byteLength_cons]
      omega
    · simp [hnewline, or_assoc, @eq_comm _ c '\n']
  | case9 => cases h
  | case10 gap position newline hblock =>
    cases h
    refine ⟨[], rfl, rfl, by simp, ?_⟩
    cases gap with
    | blank => exact .nil
    | line => exact .inr ⟨rfl, List.not_mem_nil⟩
    | block start => exact absurd rfl (hblock start)

/-- Before a comment that is never closed stands trivia, unless the gap began inside it. -/
theorem skipGap_unclosed {gap : Gap} {e : SyntaxError}
    (h : skipGap gap text position newline = .error e) :
    (∃ start, gap = .block start ∧ e = .unclosedComment start ∧ ¬ closing <:+: text) ∨
      ∃ skipped rest, text = skipped ++ '/' :: '*' :: rest ∧ ¬ closing <:+: rest ∧
        e = .unclosedComment (position + byteLength skipped) ∧ gap.Covers False skipped := by
  fun_induction skipGap gap text position newline with
  | case1 text position newline ih =>
    obtain ⟨start, hgap, -⟩ | ⟨skipped, rest, rfl, hrest, rfl, hcovers⟩ := ih h
    · cases hgap
    · refine .inr ⟨'/' :: '/' :: skipped, rest, rfl, hrest, ?_, hcovers.line⟩
      simp
      omega
  | case2 text position newline ih =>
    obtain ⟨start, hgap, rfl, hrest⟩ | ⟨skipped, rest, rfl, hrest, rfl, hcovers⟩ := ih h
    · cases hgap
      exact .inr ⟨[], text, rfl, hrest, rfl, .nil⟩
    · refine .inr ⟨'/' :: '*' :: skipped, rest, rfl, hrest, ?_, hcovers.block⟩
      simp
      omega
  | case3 c text position newline hline hblock hspace ih =>
    obtain ⟨start, hgap, -⟩ | ⟨skipped, rest, rfl, hrest, rfl, hcovers⟩ := ih h
    · cases hgap
    · refine .inr ⟨c :: skipped, rest, rfl, hrest, ?_, .space hspace hcovers⟩
      rw [byteLength_cons, utf8Size_of_isSpace hspace, Nat.add_assoc]
  | case4 => cases h
  | case5 text position newline ih =>
    obtain ⟨start, hgap, -⟩ | ⟨skipped, rest, rfl, hrest, rfl, hcovers⟩ := ih h
    · cases hgap
    · refine .inr ⟨'\n' :: skipped, rest, rfl, hrest, ?_,
        .inl ⟨[], skipped, rfl, List.not_mem_nil, hcovers⟩⟩
      simp [Nat.add_assoc]
  | case6 c text position newline hfeed ih =>
    obtain ⟨start, hgap, -⟩ | ⟨skipped, rest, rfl, hrest, rfl, hcovers⟩ := ih h
    · cases hgap
    · refine .inr ⟨c :: skipped, rest, rfl, hrest, ?_, hcovers.line_cons hfeed⟩
      rw [byteLength_cons, Nat.add_assoc]
  | case7 start text position newline ih =>
    obtain ⟨start, hgap, -⟩ | ⟨skipped, rest, rfl, hrest, rfl, hcovers⟩ := ih h
    · cases hgap
    · refine .inr ⟨'*' :: '/' :: skipped, rest, rfl, hrest, ?_,
        ⟨[], skipped, rfl, by simp [closing], hcovers⟩⟩
      simp
      omega
  | case8 start c text position newline hclose ih =>
    obtain ⟨start, hgap, rfl, hrest⟩ | ⟨skipped, rest, rfl, hrest, rfl, hcovers⟩ := ih h
    · exact .inl ⟨_, rfl, by cases hgap; rfl, not_closing_infix_cons hrest hclose⟩
    · refine .inr ⟨c :: skipped, rest, rfl, hrest, ?_, hcovers.block_cons hclose⟩
      rw [byteLength_cons, Nat.add_assoc]
  | case9 start =>
    cases h
    exact .inl ⟨start, rfl, rfl, by simp [closing]⟩
  | case10 => cases h

/-- A text with no token at its head is refused where it begins. -/
theorem position?_of_scanToken {c : Char} {e : SyntaxError}
    (h : scanToken position (c :: text) = .error e) : e.position? = some position := by
  cases unlexed_of_scanToken h with
  | string => rfl
  | character => rfl

/-! ## One token after the other -/

/-- How a text is read from a position on: a token behind each gap, until the text or a fault ends
it. -/
inductive Scans : List Char → Nat → List Token → Ending → Prop
  | ends {text : List Char} {position stop : Nat} {newline : Bool}
    (gap : skipGap .blank text position false = .ok ([], stop, newline)) :
    Scans text position [] (.complete stop newline)
  | unclosed {text : List Char} {position : Nat} {e : SyntaxError}
    (gap : skipGap .blank text position false = .error e) :
    Scans text position [] (.failed e)
  | refused {text rest : List Char} {position start : Nat} {newline : Bool} {c : Char}
    {e : SyntaxError}
    (gap : skipGap .blank text position false = .ok (c :: rest, start, newline))
    (fault : scanToken start (c :: rest) = .error e) :
    Scans text position [] (.failed e)
  | token {text rest after : List Char} {position start : Nat} {newline : Bool} {c : Char}
    {kind : TokenKind} {tokens : List Token} {ending : Ending}
    (gap : skipGap .blank text position false = .ok (c :: rest, start, newline))
    (head : scanToken start (c :: rest) = .ok (kind, after))
    (tail : Scans after (start + byteLength kind.lexeme) tokens ending) :
    Scans text position (⟨kind, start, start + byteLength kind.lexeme, newline⟩ :: tokens) ending

/-- A token leaves a shorter text. -/
theorem length_lt_of_scanToken {kind : TokenKind} (h : scanToken position text = .ok (kind, rest)) :
    rest.length < text.length := by
  obtain ⟨standalone, rfl⟩ := standalone_of_scan h
  have hlexeme := List.length_pos_iff.mpr standalone.lexeme_ne_nil
  rw [List.length_append]
  omega

/-- The fuel of a text suffices. -/
theorem scans_tokenizeFrom (enough : text.length < fuel) :
    Scans text position (tokenizeFrom fuel text position).tokens
      (tokenizeFrom fuel text position).ending := by
  induction fuel generalizing text position with
  | zero => omega
  | succ fuel ih =>
    unfold tokenizeFrom
    split
    · next hgap => exact .unclosed hgap
    · next hgap => exact .ends hgap
    · next c rest start newline hgap =>
      split
      · next htoken => exact .refused hgap htoken
      · next kind rest' htoken =>
        refine .token hgap htoken (ih ?_)
        have hshorter := length_lt_of_scanToken htoken
        obtain ⟨skipped, rfl, -⟩ := skipGap_skips hgap
        rw [List.length_append] at enough
        omega

/-- A text is read in one way. -/
theorem Scans.eq_tokenizeFrom (h : Scans text position tokens ending)
    (enough : text.length < fuel) :
    tokenizeFrom fuel text position = ⟨tokens, ending⟩ := by
  induction h generalizing fuel with
  | ends gap =>
    obtain ⟨fuel, rfl⟩ := Nat.exists_eq_add_one_of_ne_zero (Nat.ne_zero_of_lt enough)
    rw [tokenizeFrom, gap]
  | unclosed gap =>
    obtain ⟨fuel, rfl⟩ := Nat.exists_eq_add_one_of_ne_zero (Nat.ne_zero_of_lt enough)
    rw [tokenizeFrom, gap]
  | refused gap fault =>
    obtain ⟨fuel, rfl⟩ := Nat.exists_eq_add_one_of_ne_zero (Nat.ne_zero_of_lt enough)
    rw [tokenizeFrom, gap]
    dsimp only
    rw [fault]
  | token gap head _ ih =>
    obtain ⟨fuel, rfl⟩ := Nat.exists_eq_add_one_of_ne_zero (Nat.ne_zero_of_lt enough)
    have hshorter := length_lt_of_scanToken head
    obtain ⟨skipped, rfl, -⟩ := skipGap_skips gap
    rw [List.length_append] at enough
    rw [tokenizeFrom, gap]
    dsimp only
    rw [head]
    dsimp only
    rw [ih (by omega)]

/-- **Reading one token after the other ends, and is what `tokenize` does.** -/
theorem scans_iff : Scans text 0 tokens ending ↔ tokenize text = ⟨tokens, ending⟩ := by
  constructor
  · intro h
    exact h.eq_tokenizeFrom (Nat.lt_succ_self _)
  · intro h
    have hscans : Scans text 0 (tokenize text).tokens (tokenize text).ending :=
      scans_tokenizeFrom (Nat.lt_succ_self _)
    rwa [h] at hscans

/-! ## Spans -/

/-- Where tokens end that begin a text. -/
def stopOf (tokens : List Token) : Nat :=
  (tokens.getLast?.map Token.stop).getD 0

/-- Whether a token stands in a text between `read` and `rest`, behind a gap of trivia: it covers
the bytes of its lexeme, one or more, and notes the line feeds of the gap. -/
structure Token.Spans (token : Token) (text read gap rest : List Char) : Prop where
  text_eq : text = read ++ gap ++ token.kind.lexeme ++ rest
  trivia : Trivia False gap
  start_eq : token.start = byteLength (read ++ gap)
  stop_eq : token.stop = byteLength (read ++ gap ++ token.kind.lexeme)
  nonempty : token.start < token.stop
  newline_iff : token.newlineBefore = true ↔ '\n' ∈ gap

/-- Whether a text ends as it is said to, behind what is read of it: with trivia, or with a fault
right behind some. -/
def Ending.Closes (ending : Ending) (text read : List Char) : Prop :=
  match ending with
  | .complete stop newline => ∃ gap, text = read ++ gap ∧ Trivia True gap ∧
      stop = byteLength text ∧ (newline = true ↔ '\n' ∈ gap)
  | .failed e => ∃ gap rest, text = read ++ gap ++ rest ∧ Trivia False gap ∧ rest ≠ [] ∧
      e.position? = some (byteLength (read ++ gap))

/-- Without tokens nothing is read. -/
theorem stopOf_eq (tokens : List Token) :
    (if tokens = [] then 0 else stopOf tokens) = stopOf tokens := by
  cases tokens with
  | nil => rfl
  | cons => rfl

theorem stopOf_cons (token : Token) (tokens : List Token) :
    stopOf (token :: tokens) = if tokens = [] then token.stop else stopOf tokens := by
  cases tokens with
  | nil => rfl
  | cons => simp [stopOf, List.getLast?_cons_cons]

/-- The first token that is read behind `read`. -/
theorem spans_of_scanToken {c : Char} {kind : TokenKind} {after : List Char}
    (gap : skipGap .blank text (byteLength read) false = .ok (c :: rest, start, newline))
    (head : scanToken start (c :: rest) = .ok (kind, after)) :
    ∃ skipped, Token.Spans ⟨kind, start, start + byteLength kind.lexeme, newline⟩ (read ++ text)
      read skipped after := by
  obtain ⟨skipped, rfl, rfl, hnewline, htrivia⟩ := skipGap_covers gap
  obtain ⟨standalone, hlexeme⟩ := standalone_of_scan head
  refine ⟨skipped, ?_, ?_, ?_, ?_, ?_, ?_⟩
  · rw [hlexeme, List.append_assoc, List.append_assoc]
  · simpa [Gap.Covers] using htrivia
  · exact (byteLength_append _ _).symm
  · rw [byteLength_append, byteLength_append]
  · exact Nat.lt_add_of_pos_right (byteLength_pos standalone.lexeme_ne_nil)
  · simpa using hnewline

/-- Tokens are read behind each other. -/
theorem Scans.pairwise (h : Scans text position tokens ending) :
    (∀ token ∈ tokens, position ≤ token.start) ∧
      tokens.Pairwise fun earlier later => earlier.stop ≤ later.start := by
  induction h with
  | ends => exact ⟨by simp, .nil⟩
  | unclosed => exact ⟨by simp, .nil⟩
  | refused => exact ⟨by simp, .nil⟩
  | token gap head tail ih =>
    obtain ⟨hbehind, hpairwise⟩ := ih
    obtain ⟨skipped, -, hstart, -⟩ := skipGap_covers gap
    refine ⟨?_, .cons hbehind hpairwise⟩
    intro token hmem
    rcases List.mem_cons.mp hmem with rfl | hmem
    · dsimp only
      omega
    · have hle := hbehind token hmem
      omega

/-- What is read from a position on, behind `read`, covers the text up to trivia. -/
theorem Scans.spans (h : Scans text position tokens ending) (hread : position = byteLength read) :
    (∀ before token after, tokens = before ++ token :: after →
      ∃ read' gap rest, token.Spans (read ++ text) read' gap rest ∧
        byteLength read' = if before = [] then position else stopOf before) ∧
    ∃ read', ending.Closes (read ++ text) read' ∧
      byteLength read' = if tokens = [] then position else stopOf tokens := by
  induction h generalizing read with
  | ends gap =>
    obtain ⟨skipped, rfl, rfl, hnewline, htrivia⟩ := skipGap_covers gap
    refine ⟨fun before token after heq => absurd heq (by simp), read, ?_, hread.symm⟩
    refine ⟨skipped, by simp, ?_, by simp [hread], by simpa using hnewline⟩
    simpa [Gap.Covers] using htrivia
  | unclosed gap =>
    refine ⟨fun before token after heq => absurd heq (by simp), read, ?_, hread.symm⟩
    obtain ⟨start, hgap, -⟩ | ⟨skipped, rest, rfl, -, rfl, hcovers⟩ := skipGap_unclosed gap
    · cases hgap
    · exact ⟨skipped, '/' :: '*' :: rest, by simp, hcovers, List.cons_ne_nil _ _,
        by simp [SyntaxError.position?, hread]⟩
  | refused gap fault =>
    refine ⟨fun before token after heq => absurd heq (by simp), read, ?_, hread.symm⟩
    obtain ⟨skipped, rfl, rfl, -, htrivia⟩ := skipGap_covers gap
    refine ⟨skipped, _, (List.append_assoc _ _ _).symm, ?_, List.cons_ne_nil _ _, ?_⟩
    · simpa [Gap.Covers] using htrivia
    · rw [position?_of_scanToken fault, byteLength_append, hread]
  | token gap head tail ih =>
    subst hread
    obtain ⟨skipped, first⟩ := spans_of_scanToken gap head
    obtain ⟨htokens, read', hcloses, hstop⟩ := ih first.stop_eq
    rw [← first.text_eq] at htokens hcloses
    constructor
    · intro before token after heq
      cases before with
      | nil =>
        obtain ⟨rfl, rfl⟩ := List.cons.inj heq
        exact ⟨read, skipped, _, first, rfl⟩
      | cons opening before =>
        obtain ⟨rfl, htail⟩ := List.cons.inj heq
        obtain ⟨read'', gap', rest', hspans, hstop'⟩ := htokens before token after htail
        exact ⟨read'', gap', rest', hspans, by simpa [stopOf_cons] using hstop'⟩
    · exact ⟨read', hcloses, by simpa [stopOf_cons] using hstop⟩

/-- **Tokens cover a text up to trivia.** Reading one token after the other ends, in one way. Each
token begins where trivia ends that begins where the token before it ended, or at the start of the
text; it covers the bytes of its lexeme, one or more, which for a number or a name is its text and
for a string its text between two quotes; and it notes whether a line feed stands in the trivia.
No two tokens share a byte. Behind the last token the text ends with trivia, or trivia stands before
the fault that ends it. -/
theorem tokenize_spans (text : List Char) :
    (∀ tokens ending, Scans text 0 tokens ending ↔ tokenize text = ⟨tokens, ending⟩) ∧
    (∀ before token after, (tokenize text).tokens = before ++ token :: after →
      ∃ read gap rest, token.Spans text read gap rest ∧ byteLength read = stopOf before) ∧
    ((tokenize text).tokens.Pairwise fun earlier later => earlier.stop ≤ later.start) ∧
    ∃ read, (tokenize text).ending.Closes text read ∧
      byteLength read = stopOf (tokenize text).tokens := by
  have hscans : Scans text 0 (tokenize text).tokens (tokenize text).ending := scans_iff.mpr rfl
  obtain ⟨htokens, read, hcloses, hstop⟩ := hscans.spans (show 0 = byteLength [] from rfl)
  refine ⟨fun tokens ending => scans_iff, ?_, hscans.pairwise.2, read, hcloses, ?_⟩
  · intro before token after heq
    obtain ⟨read', gap, rest, hspans, hstop'⟩ := htokens before token after heq
    exact ⟨read', gap, rest, hspans, hstop'.trans (stopOf_eq before)⟩
  · exact hstop.trans (stopOf_eq _)

end Formulary.Source
