import Formulary.Proofs.Source.Spans

/-!
# Texts that begin with no token

* `Body`, `scanQuoted_eq_some_iff` : the bodies of strings, and where a string is closed;
* `Refused` : strings and comments that are never closed, and characters that no token begins with;
* `scanToken_refused`, `tokenize_refused` : a text that cannot be cut into tokens has one of these
  behind the trivia after its last token.
-/

namespace Formulary.Source

variable {text raw rest read : List Char} {position : Nat} {tokens : List Token} {e : SyntaxError}

/-! ## Strings -/

/-- The bodies of strings: characters other than the quote, the backslash and the line feed, and
backslashes with any character behind them. -/
inductive Body (quote : Char) : List Char → Prop
  | nil : Body quote []
  | plain {c : Char} {rest : List Char} (quote_ne : c ≠ quote) (backslash_ne : c ≠ '\\')
    (feed_ne : c ≠ '\n') (after : Body quote rest) : Body quote (c :: rest)
  | escaped {c : Char} {rest : List Char} (after : Body quote rest) :
    Body quote ('\\' :: c :: rest)

/-- **A string is closed by the first quote behind a body.** -/
theorem scanQuoted_eq_some_iff {quote : Char} (hquote : quote ≠ '\\') :
    scanQuoted quote text = some (raw, rest) ↔ Body quote raw ∧ text = raw ++ quote :: rest := by
  constructor
  · intro h
    refine ⟨?_, (scanQuoted_append hquote h).1⟩
    fun_induction scanQuoted quote text generalizing raw rest with
    | case1 => cases h
    | case2 c text ih =>
      obtain ⟨⟨raw', rest'⟩, htail, heq⟩ := Option.map_eq_some_iff.mp h
      cases heq
      exact .escaped (ih htail)
    | case3 =>
      cases h
      exact .nil
    | case4 => cases h
    | case5 c text hback hnoQuote hnoFeed ih =>
      obtain ⟨⟨raw', rest'⟩, htail, heq⟩ := Option.map_eq_some_iff.mp h
      cases heq
      refine .plain hnoQuote ?_ hnoFeed (ih htail)
      rintro rfl
      cases text with
      | nil => cases htail
      | cons d text => exact hback d text rfl rfl
  · rintro ⟨hbody, rfl⟩
    induction hbody with
    | nil => simp [scanQuoted_cons hquote]
    | plain quote_ne backslash_ne feed_ne _ ih =>
      simp [scanQuoted_cons backslash_ne, quote_ne, feed_ne, ih]
    | escaped _ ih => simp [scanQuoted, ih]

/-! ## Faults -/

/-- The texts that begin with no token, and the errors that say so at a position: a string or a
comment that is never closed, and a character that is in the way of every token. -/
inductive Refused : List Char → Nat → SyntaxError → Prop
  | string {quote : Char} {body : List Char} {position : Nat} (isQuote : quote = '\'' ∨ quote = '"')
    (unclosed : ∀ raw rest, Body quote raw → body ≠ raw ++ quote :: rest) :
    Refused (quote :: body) position (.unclosedString position)
  | comment {body : List Char} {position : Nat} (unclosed : ¬ closing <:+: body) :
    Refused ('/' :: '*' :: body) position (.unclosedComment position)
  | character {c : Char} {rest : List Char} {position : Nat}
    (unrecognised : ∀ kind : TokenKind, kind.Standalone → ¬ kind.lexeme <+: c :: rest) :
    Refused (c :: rest) position (.unexpectedToken (String.ofList [c]) position)

theorem Refused.position?_eq (h : Refused text position e) : e.position? = some position := by
  cases h <;> rfl

theorem startsNumber_mono (h : startsNumber text = true) (longer : text <+: rest) :
    startsNumber rest = true := by
  obtain ⟨more, rfl⟩ := longer
  unfold startsNumber at h
  split at h
  · exact h
  · next c tail hpoint =>
    have hc : c ≠ '.' := by
      rintro rfl
      exact absurd h (by decide)
    rw [List.cons_append, startsNumber]
    · exact h
    · rintro _ _ rfl _
      exact hc rfl
  · cases h

/-- No token begins with a character that is refused. -/
theorem not_prefix_of_unrecognised {c : Char} (number : ¬ startsNumber (c :: rest) = true)
    (quoted : ¬ (c = '\'' ∨ c = '"')) (name : ¬ isNameStart c = true)
    (sign : Symbol.scan? (c :: rest) = none) {kind : TokenKind} (standalone : kind.Standalone) :
    ¬ kind.lexeme <+: c :: rest := by
  rintro ⟨after, hafter⟩
  have hlexes := standalone.lexes
  generalize kind.lexeme = lexeme at hlexes hafter
  generalize [] = left at hlexes
  cases hlexes with
  | @number d text starts =>
    obtain ⟨rfl, rfl⟩ := List.cons.inj hafter
    exact number (startsNumber_mono starts ⟨after, rfl⟩)
  | string _ isQuoted =>
    exact quoted ((List.cons.inj hafter).1 ▸ isQuoted)
  | name _ _ starts =>
    exact name ((List.cons.inj hafter).1 ▸ starts)
  | @symbol d text found _ _ _ hfound =>
    have hlonger : found.chars <+: c :: rest :=
      hafter ▸ (Symbol.prefix_of_scan? hfound).trans (List.prefix_append _ _)
    exact List.find?_eq_none.mp sign found (Symbol.mem_all found)
      (List.isPrefixOf_iff_prefix.mpr hlonger)

/-- **A text that no token is scanned from begins with none.** -/
theorem scanToken_refused {c : Char} (h : scanToken position (c :: rest) = .error e) :
    Refused (c :: rest) position e := by
  cases unlexed_of_scanToken h with
  | string quoted body =>
    refine .string quoted fun raw rest' hbody heq => ?_
    have hback : c ≠ '\\' := by rcases quoted with rfl | rfl <;> decide
    rw [(scanQuoted_eq_some_iff hback).mpr ⟨hbody, heq⟩] at body
    cases body
  | character unnumbered unquoted unnamed missing =>
    exact .character fun kind => not_prefix_of_unrecognised unnumbered unquoted unnamed missing

/-- What ends a text that is read from a position on, behind `read`. -/
theorem Scans.ends_refused (h : Scans text position tokens (.failed e))
    (hread : position = byteLength read) :
    ∃ covered gap rest, read ++ text = covered ++ gap ++ rest ∧ Trivia False gap ∧
      (byteLength covered = if tokens = [] then position else stopOf tokens) ∧
      Refused rest (byteLength (covered ++ gap)) e := by
  generalize hending : Ending.failed e = ending at h
  induction h generalizing read with
  | ends gap => cases hending
  | unclosed gap =>
    cases hending
    obtain ⟨start, hgap, -⟩ | ⟨skipped, rest, rfl, hrest, rfl, hcovers⟩ := skipGap_unclosed gap
    · cases hgap
    · refine ⟨read, skipped, '/' :: '*' :: rest, by simp, hcovers, hread.symm, ?_⟩
      rw [byteLength_append, hread]
      exact .comment hrest
  | refused gap fault =>
    cases hending
    obtain ⟨skipped, rfl, rfl, -, htrivia⟩ := skipGap_covers gap
    refine ⟨read, skipped, _, (List.append_assoc _ _ _).symm, ?_, hread.symm, ?_⟩
    · simpa [Gap.Covers] using htrivia
    · rw [byteLength_append, ← hread]
      exact scanToken_refused fault
  | token gap head tail ih =>
    subst hread
    obtain ⟨skipped, first⟩ := spans_of_scanToken gap head
    obtain ⟨covered, gap', rest', htext, htrivia, hstop, hrefused⟩ := ih first.stop_eq hending
    rw [← first.text_eq] at htext
    exact ⟨covered, gap', rest', htext, htrivia, by simpa [stopOf_cons] using hstop, hrefused⟩

/-- **What is in the way of the tokens of a text** stands behind the trivia after the last one. -/
theorem tokenize_refused (h : (tokenize text).ending = .failed e) :
    ∃ covered gap rest, text = covered ++ gap ++ rest ∧ Trivia False gap ∧
      byteLength covered = stopOf (tokenize text).tokens ∧
      Refused rest (byteLength (covered ++ gap)) e := by
  have hscans : Scans text 0 (tokenize text).tokens (.failed e) := scans_iff.mpr (by rw [← h])
  obtain ⟨covered, gap, rest, htext, htrivia, hstop, hrefused⟩ :=
    hscans.ends_refused (show 0 = byteLength [] from rfl)
  exact ⟨covered, gap, rest, htext, htrivia, hstop.trans (stopOf_eq _), hrefused⟩

end Formulary.Source
