import Formulary.Proofs.Source.Agreement
import Formulary.Proofs.Source.Rescanning

/-!
# Layout does not count

* `spaced` : lexemes on end, with one space between them, or one line feed where a line break stood;
* `tokenize_spaced` : the tokens of such a text;
* `Program.parse_congr` : texts with the same tokens and line breaks are the same program;
* `Program.parse_spaced` : a text and its lexemes with blanks between them are the same program.
-/

namespace Formulary

namespace Source

/-- The blank before a token. -/
def blankBefore (newline : Bool) : Char :=
  if newline then '\n' else ' '

/-- Lexemes, each with one blank before it. -/
def spacedFrom (aspects : List (TokenKind × Bool)) : List Char :=
  aspects.flatMap fun aspect => blankBefore aspect.2 :: aspect.1.lexeme

/-- Lexemes with one space between them, or one line feed where a line break precedes the token. The
first one has no space before it. -/
def spaced : List (TokenKind × Bool) → List Char
  | [] => []
  | (kind, newline) :: rest => (if newline then ['\n'] else []) ++ kind.lexeme ++ spacedFrom rest

/-- Whether a text ends without an error behind its last token. -/
def Lexed.Complete (lexed : Lexed) : Prop :=
  ∃ position newline, lexed.ending = .complete position newline

theorem Lexed.Complete.fault? {lexed : Lexed} (h : lexed.Complete) :
    lexed.ending.fault? = none := by
  obtain ⟨position, newline, h⟩ := h
  rw [h]
  rfl

section Spaced

variable {aspects : List (TokenKind × Bool)}

theorem parted_spacedFrom (aspects : List (TokenKind × Bool)) : Parted (spacedFrom aspects) := by
  cases aspects with
  | nil => exact .nil
  | cons aspect rest =>
    obtain ⟨kind, newline⟩ := aspect
    cases newline with
    | false => exact .space _
    | true => exact .lineFeed _

theorem length_le_spacedFrom (aspects : List (TokenKind × Bool)) :
    aspects.length ≤ (spacedFrom aspects).length := by
  induction aspects with
  | nil => exact Nat.le_refl 0
  | cons aspect rest ih =>
    simp only [spacedFrom, List.flatMap_cons, List.length_append, List.length_cons] at ih ⊢
    omega

/-- A blank is skipped, and a line feed is noted. -/
theorem skipGap_blank (newline before : Bool) (text : List Char) (position : Nat) :
    skipGap .blank (blankBefore newline :: text) position before =
      skipGap .blank text (position + 1) (before || newline) := by
  cases newline <;> rfl

/-- The first token of a text that begins with its lexeme. -/
theorem tokenizeFrom_lexeme (fuel : Nat) {kind : TokenKind} (standalone : kind.Standalone)
    {rest : List Char} (parted : Parted rest) {text : List Char} {position start : Nat}
    {newline : Bool}
    (gap : skipGap .blank text position false =
      skipGap .blank (kind.lexeme ++ rest) start newline) :
    ∃ stop, tokenizeFrom (fuel + 1) text position =
      ⟨⟨kind, start, stop, newline⟩ :: (tokenizeFrom fuel rest stop).tokens,
        (tokenizeFrom fuel rest stop).ending⟩ := by
  have hscan := standalone.scans start rest parted
  have hbegin := standalone.begins start newline rest parted
  refine ⟨start + byteLength kind.lexeme, ?_⟩
  obtain ⟨c, cs, hlexeme⟩ := List.exists_cons_of_ne_nil standalone.lexeme_ne_nil
  rw [tokenizeFrom, gap, hbegin]
  rw [hlexeme, List.cons_append] at hscan ⊢
  dsimp only
  rw [hscan, ← hlexeme]

theorem tokenizeFrom_spacedFrom (h : ∀ aspect ∈ aspects, aspect.1.Standalone) {fuel : Nat}
    (enough : aspects.length < fuel) (position : Nat) :
    (tokenizeFrom fuel (spacedFrom aspects) position).tokens.map Token.aspect = aspects ∧
      (tokenizeFrom fuel (spacedFrom aspects) position).Complete := by
  induction aspects generalizing fuel position with
  | nil =>
    obtain ⟨fuel, rfl⟩ := Nat.exists_eq_add_one_of_ne_zero (Nat.ne_of_gt enough)
    exact ⟨rfl, position, false, rfl⟩
  | cons aspect rest ih =>
    obtain ⟨kind, newline⟩ := aspect
    obtain ⟨fuel, rfl⟩ := Nat.exists_eq_add_one_of_ne_zero (by omega : fuel ≠ 0)
    obtain ⟨hkind, hrest⟩ := List.forall_mem_cons.mp h
    have hgap : skipGap .blank (spacedFrom ((kind, newline) :: rest)) position false = _ :=
      skipGap_blank newline false (kind.lexeme ++ spacedFrom rest) position
    obtain ⟨stop, htokens⟩ := tokenizeFrom_lexeme fuel hkind (parted_spacedFrom rest) hgap
    obtain ⟨haspects, hcomplete⟩ := ih hrest (by simpa using enough) stop
    rw [htokens]
    exact ⟨by rw [List.map_cons, haspects]; rfl, hcomplete⟩

/-- **The tokens of lexemes with blanks between them.** -/
theorem tokenize_spaced (h : ∀ aspect ∈ aspects, aspect.1.Standalone) :
    (tokenize (spaced aspects)).tokens.map Token.aspect = aspects ∧
      (tokenize (spaced aspects)).Complete := by
  cases aspects with
  | nil => exact ⟨rfl, 0, false, rfl⟩
  | cons aspect rest =>
    obtain ⟨kind, newline⟩ := aspect
    obtain ⟨hkind, hrest⟩ := List.forall_mem_cons.mp h
    have hlength : rest.length < (spaced ((kind, newline) :: rest)).length := by
      have hlexeme : 0 < kind.lexeme.length := List.length_pos_iff.mpr hkind.lexeme_ne_nil
      have hle := length_le_spacedFrom rest
      simp only [spaced, List.length_append]
      omega
    have hgap : ∃ start, skipGap .blank (spaced ((kind, newline) :: rest)) 0 false =
        skipGap .blank (kind.lexeme ++ spacedFrom rest) start newline := by
      cases newline with
      | false => exact ⟨0, rfl⟩
      | true => exact ⟨1, skipGap_blank true false _ 0⟩
    obtain ⟨start, hgap⟩ := hgap
    obtain ⟨stop, htokens⟩ := tokenizeFrom_lexeme (spaced ((kind, newline) :: rest)).length hkind
      (parted_spacedFrom rest) hgap
    obtain ⟨haspects, hcomplete⟩ := tokenizeFrom_spacedFrom hrest hlength stop
    rw [tokenize, htokens]
    exact ⟨by rw [List.map_cons, haspects]; rfl, hcomplete⟩

end Spaced

/-- Every token of a text stands for itself. -/
theorem standalone_of_tokenizeFrom {fuel position : Nat} {text : List Char} :
    ∀ token ∈ (tokenizeFrom fuel text position).tokens, token.kind.Standalone := by
  induction fuel generalizing text position with
  | zero => exact fun _ h => nomatch h
  | succ fuel ih =>
    unfold tokenizeFrom
    split
    · exact fun _ h => nomatch h
    · exact fun _ h => nomatch h
    · split
      · exact fun _ h => nomatch h
      · next hscan => exact List.forall_mem_cons.mpr ⟨(standalone_of_scan hscan).1, ih⟩

end Source

open Source

/-- Texts with the same tokens and line breaks are the same program. -/
theorem Program.parse_congr {text text' : String} (complete : (tokenize text.toList).Complete)
    (complete' : (tokenize text'.toList).Complete)
    (aspects : (tokenize text.toList).tokens.map Token.aspect =
      (tokenize text'.toList).tokens.map Token.aspect) :
    (Program.parse text).mapError SyntaxError.unplaced =
      (Program.parse text').mapError SyntaxError.unplaced :=
  program_congr aspects (complete.fault?.trans complete'.fault?.symm)

/-- **Nothing of the layout of a text counts but the line breaks between its tokens.** The lexemes
of a text that has tokens only, with one space or line feed between them, have the same tokens with
the same line breaks; and any two texts with the same tokens and line breaks are the same program,
or none for the same reason, up to positions. -/
theorem Program.parse_spaced {text : String} (complete : (tokenize text.toList).Complete) :
    let respaced := String.ofList (spaced ((tokenize text.toList).tokens.map Token.aspect))
    ((tokenize respaced.toList).tokens.map Token.aspect =
        (tokenize text.toList).tokens.map Token.aspect ∧ (tokenize respaced.toList).Complete) ∧
      (Program.parse respaced).mapError SyntaxError.unplaced =
        (Program.parse text).mapError SyntaxError.unplaced ∧
      ∀ other : String, (tokenize other.toList).Complete →
        (tokenize other.toList).tokens.map Token.aspect =
          (tokenize text.toList).tokens.map Token.aspect →
        (Program.parse other).mapError SyntaxError.unplaced =
          (Program.parse text).mapError SyntaxError.unplaced := by
  intro respaced
  have standalone : ∀ aspect ∈ (tokenize text.toList).tokens.map Token.aspect,
      aspect.1.Standalone := by
    intro aspect hmem
    obtain ⟨token, htoken, rfl⟩ := List.mem_map.mp hmem
    exact standalone_of_tokenizeFrom token htoken
  have tokens := tokenize_spaced standalone
  rw [← String.toList_ofList (l := spaced _)] at tokens
  exact ⟨tokens, parse_congr tokens.2 complete tokens.1,
    fun other hother aspects => parse_congr hother complete aspects⟩

/-- A text with comments, line breaks in them, and tokens that touch. -/
def crowdedText : String := "\n a/* \n */++b//c\n-.5.x/ /*d*/'\\\\'"

/-- Its lexemes with blanks between them. -/
def respacedText : String := "\na\n++ b\n- .5 . x / '\\\\'"

theorem parse_spaced_crowded :
    (tokenize crowdedText.toList).Complete ∧
      String.ofList (spaced ((tokenize crowdedText.toList).tokens.map Token.aspect)) =
        respacedText ∧
      (Program.parse respacedText).mapError SyntaxError.unplaced =
        (Program.parse crowdedText).mapError SyntaxError.unplaced := by
  have complete : (tokenize crowdedText.toList).Complete := ⟨33, false, by decide +kernel⟩
  have respaced : String.ofList
      (spaced ((tokenize crowdedText.toList).tokens.map Token.aspect)) = respacedText := by
    decide +kernel
  have hparse := (Program.parse_spaced complete).2.1
  rw [respaced] at hparse
  exact ⟨complete, respaced, hparse⟩

end Formulary
