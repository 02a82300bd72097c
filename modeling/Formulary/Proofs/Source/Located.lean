import Formulary.Proofs.Source.Numerals

/-!
# Where errors stand

* `TokenKind.StandsAt`, `BehindTokens` : a token, and the end of all tokens, between what is read of a
  text and the rest;
* `Located` : what an error that names a position stands before;
* `located_of_faulty` : the errors that the tokens of a text can be refused with stand there;
* `Program.parse_located` : so do those of texts that are no program, and a text can be split where
  they stand.
-/

namespace Formulary

namespace Source

variable {text read rest : List Char} {e : SyntaxError} {position : Nat}

/-! ## Places -/

/-- Whether a token of a kind begins between two parts of a text. -/
def TokenKind.StandsAt (kind : TokenKind) (text read rest : List Char) : Prop :=
  ∃ token ∈ (tokenize text).tokens, token.kind = kind ∧ token.start = byteLength read ∧
    kind.lexeme <+: rest

/-- Whether what is read of a text ends with the trivia behind its last token. -/
def BehindTokens (text read : List Char) : Prop :=
  ∃ covered gap, read = covered ++ gap ∧ Trivia False gap ∧
    byteLength covered = stopOf (tokenize text).tokens

/-- Whether an error names the place between two parts of a text, and what it says of the place is
so: a token begins there, or the text ends, or what follows begins with no token. -/
inductive Located (text : List Char) : List Char → List Char → SyntaxError → Prop
  | token {kind : TokenKind} {read rest : List Char} (stands : kind.StandsAt text read rest) :
    Located text read rest (.unexpectedToken kind.label (byteLength read))
  | string {quote : Char} {raw sequence : String} {read rest : List Char}
    (stands : (TokenKind.string quote raw).StandsAt text read rest)
    (undecoded : Escape.decode raw.toList = .error sequence) :
    Located text read rest (.invalidEscape sequence (byteLength read))
  | target {sign : Symbol} {read rest : List Char}
    (stands : (TokenKind.symbol sign).StandsAt text read rest) (writes : sign.Writes) :
    Located text read rest (.invalidTarget (byteLength read))
  | deep {kind : TokenKind} {read rest : List Char} (stands : kind.StandsAt text read rest) :
    Located text read rest (.nestingTooDeep nestingLimit (byteLength read))
  | deepEnd {read : List Char} :
    Located text read [] (.nestingTooDeep nestingLimit (byteLength read))
  | refused {read rest : List Char} {e : SyntaxError} (behind : BehindTokens text read)
    (refused : Refused rest (byteLength read) e) : Located text read rest e

theorem byteLength_eq (chars : List Char) : byteLength chars = (String.ofList chars).utf8ByteSize := by
  induction chars with
  | nil => rfl
  | cons c chars ih => simp [ih, String.ofList_cons]

/-- The tokens of a text are in it, and it ends as it is said to. -/
theorem spans_of_tokenize (text : List Char) :
    (∀ token ∈ (tokenize text).tokens, ∃ read gap rest, token.Spans text read gap rest) ∧
      ∃ read, (tokenize text).ending.Closes text read := by
  have hscans : Scans text 0 (tokenize text).tokens (tokenize text).ending := scans_iff.mpr rfl
  obtain ⟨htokens, read, hcloses, -⟩ := hscans.spans (show 0 = byteLength [] from rfl)
  refine ⟨fun token mem => ?_, read, hcloses⟩
  obtain ⟨before, after, heq⟩ := List.append_of_mem mem
  obtain ⟨read', gap, rest, spans, -⟩ := htokens before token after heq
  exact ⟨read', gap, rest, spans⟩

/-- Where a token of a text begins, its lexeme follows. -/
theorem standsAt_of_mem {token : Token} (mem : token ∈ (tokenize text).tokens) :
    ∃ read rest, text = read ++ rest ∧ byteLength read = token.start ∧
      token.kind.StandsAt text read rest := by
  obtain ⟨read, gap, rest, spans⟩ := (spans_of_tokenize text).1 token mem
  refine ⟨read ++ gap, token.kind.lexeme ++ rest, ?_, spans.start_eq.symm, token, mem, rfl,
    spans.start_eq, List.prefix_append _ _⟩
  rw [spans.text_eq, List.append_assoc]

/-- An error at a token of a text stands where the token begins. -/
theorem located_of_mem {token : Token} {e : Nat → SyntaxError} (mem : token ∈ (tokenize text).tokens)
    (h : ∀ read rest, token.kind.StandsAt text read rest →
      Located text read rest (e (byteLength read))) :
    ∃ read rest, text = read ++ rest ∧ byteLength read = token.start ∧
      Located text read rest (e token.start) := by
  obtain ⟨read, rest, htext, hstart, stands⟩ := standsAt_of_mem mem
  exact ⟨read, rest, htext, hstart, hstart ▸ h read rest stands⟩

/-- **The errors that the tokens of a text can be refused with name a place in it.** -/
theorem located_of_faulty (h : (tokenize text).Faulty e) (named : e.position? = some position) :
    ∃ read rest, text = read ++ rest ∧ byteLength read = position ∧ Located text read rest e := by
  cases h with
  | lexical fails =>
    obtain ⟨covered, gap, rest, htext, htrivia, hstop, hrefused⟩ := tokenize_refused fails
    rw [hrefused.position?_eq] at named
    exact ⟨covered ++ gap, rest, htext, Option.some.inj named,
      .refused ⟨covered, gap, rfl, htrivia, hstop⟩ hrefused⟩
  | token mem =>
    cases named
    exact located_of_mem mem fun _ _ stands => .token stands
  | ended => cases named
  | number mem kind unread =>
    exact absurd (.number mem kind unread) (not_faulty_invalidNumber text _ _)
  | string mem kind undecoded =>
    cases named
    exact located_of_mem mem fun _ _ stands => .string (kind ▸ stands) undecoded
  | target mem kind writes =>
    cases named
    exact located_of_mem mem fun _ _ stands => .target (kind ▸ stands) writes
  | deep mem =>
    cases named
    exact located_of_mem mem fun _ _ stands => .deep stands
  | deepEnd ends =>
    cases named
    obtain ⟨read, hcloses⟩ := (spans_of_tokenize text).2
    rw [ends] at hcloses
    obtain ⟨gap, -, -, rfl, -⟩ := hcloses
    exact ⟨text, [], (List.append_nil text).symm, rfl, .deepEnd⟩

end Source

open Source

/-- **An error that names a position stands at a place of the text,** whatever characters come
before it. The position is within the bytes of the text and between two characters, so that the text
can be split there. What follows begins with a token, with a string or a comment that is never
closed, or with a character that is in the way of every token, and it is what the error says; or the
text ends there. -/
theorem Program.parse_located (text : String) (e : SyntaxError) (position : Nat)
    (failed : Program.parse text = .error e) (named : e.position? = some position) :
    position ≤ text.utf8ByteSize ∧ (String.Pos.Raw.mk position).IsValid text ∧
      ∃ before after : String, text = before ++ after ∧ before.utf8ByteSize = position ∧
        Located text.toList before.toList after.toList e := by
  obtain ⟨read, rest, htext, hposition, hlocated⟩ :=
    located_of_faulty (faulty_of_program failed) named
  have hsplit : text = String.ofList read ++ String.ofList rest := by
    rw [← String.ofList_append, ← htext, String.ofList_toList]
  rw [byteLength_eq] at hposition
  refine ⟨?_, ?_, String.ofList read, String.ofList rest, hsplit, hposition, ?_⟩
  · rw [hsplit, String.utf8ByteSize_append, hposition]
    exact Nat.le_add_right _ _
  · refine String.Pos.Raw.isValid_iff_exists_append.mpr ⟨_, _, hsplit, ?_⟩
    rw [← hposition]
    rfl
  · rw [String.toList_ofList, String.toList_ofList]
    exact hlocated

/-- A step behind a string, which is no place to write to, in a text with a character of two bytes. -/
theorem Program.parse_located_step :
    Program.parse "é = 'a' ++ 2" = .error (.invalidTarget 9) ∧
      9 ≤ "é = 'a' ++ 2".utf8ByteSize ∧ (String.Pos.Raw.mk 9).IsValid "é = 'a' ++ 2" ∧
      ∃ before after : String, "é = 'a' ++ 2" = before ++ after ∧ before.utf8ByteSize = 9 ∧
        Located "é = 'a' ++ 2".toList before.toList after.toList (.invalidTarget 9) := by
  have failed : Program.parse "é = 'a' ++ 2" = .error (.invalidTarget 9) := rfl
  exact ⟨failed, Program.parse_located _ _ 9 failed rfl⟩

end Formulary
