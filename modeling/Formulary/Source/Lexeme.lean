import Formulary.Number.Reading
import Formulary.Source.Error
import Formulary.Source.Token

/-!
# From text to tokens

* `skipGap` : the blanks and comments before a token;
* `scanToken` : the token at the head of a text;
* `Lexed`, `tokenize` : all tokens of a text and how the text ends after them.
-/

namespace Formulary.Source

/-- What a gap between tokens is made of at one point. -/
inductive Gap where
  /-- Between comments. -/
  | blank
  /-- In a comment that ends with the line. -/
  | line
  /-- In a comment that began at `start` and ends with its closing mark. -/
  | block (start : Nat)
  deriving DecidableEq, Repr

/-- Characters that separate tokens. The line feed is one of them. -/
def isSpace (c : Char) : Bool :=
  c == ' ' || c == '\n' || c == '\t' || c == '\r' || c.toNat == 11 || c.toNat == 12

/-- The text behind a gap, its position, and whether a line feed was seen in the gap. -/
def skipGap : Gap → List Char → Nat → Bool → Except SyntaxError (List Char × Nat × Bool)
  | .blank, '/' :: '/' :: rest, position, newline => skipGap .line rest (position + 2) newline
  | .blank, '/' :: '*' :: rest, position, newline =>
    skipGap (.block position) rest (position + 2) newline
  | .blank, c :: rest, position, newline =>
    if isSpace c then skipGap .blank rest (position + 1) (newline || c == '\n')
    else .ok (c :: rest, position, newline)
  | .line, c :: rest, position, newline =>
    if c = '\n' then skipGap .blank rest (position + 1) true
    else skipGap .line rest (position + c.utf8Size) newline
  | .block _, '*' :: '/' :: rest, position, newline => skipGap .blank rest (position + 2) newline
  | .block start, c :: rest, position, newline =>
    skipGap (.block start) rest (position + c.utf8Size) (newline || c == '\n')
  | .block start, [], _, _ => .error (.unclosedComment start)
  | _, [], position, newline => .ok ([], position, newline)

/-- Characters that begin an identifier: letters, the underscore, the dollar sign, and every
character beyond ASCII. -/
def isNameStart (c : Char) : Bool :=
  c.isAlpha || c == '_' || c == '$' || 0x80 ≤ c.toNat

/-- Characters that continue an identifier. -/
def isNameRest (c : Char) : Bool :=
  isNameStart c || c.isDigit

/-- The body of a string up to its closing quote, and the text behind the quote. A backslash takes
the next character with it; a bare line feed ends the search. -/
def scanQuoted (quote : Char) : List Char → Option (List Char × List Char)
  | [] => none
  | '\\' :: c :: rest => (scanQuoted quote rest).map fun (raw, rest) => ('\\' :: c :: raw, rest)
  | c :: rest =>
    if c = quote then some ([], rest)
    else if c = '\n' then none
    else (scanQuoted quote rest).map fun (raw, rest) => (c :: raw, rest)

/-- Whether a numeral begins here: with a digit, or with a point before a digit. -/
def startsNumber : List Char → Bool
  | '.' :: c :: _ => c.isDigit
  | c :: _ => c.isDigit
  | [] => false

/-- The keyword or identifier with the given spelling. -/
def nameToken (name : String) : TokenKind :=
  match Keyword.ofText? name with
  | some word => .keyword word
  | none => .identifier name

/-- The token at the head of a text that begins with no gap, and the text behind it. -/
def scanToken (position : Nat) (text : List Char) :
    Except SyntaxError (TokenKind × List Char) :=
  match text with
  | [] => .error (.unexpectedEnd "token")
  | c :: rest =>
    if startsNumber text then
      let (numeral, rest) := Number.Numeral.scan text
      .ok (.number (String.ofList numeral.chars), rest)
    else if c = '\'' ∨ c = '"' then
      match scanQuoted c rest with
      | some (raw, rest) => .ok (.string c (String.ofList raw), rest)
      | none => .error (.unclosedString position)
    else if isNameStart c then
      .ok (nameToken (String.ofList (text.takeWhile isNameRest)), text.dropWhile isNameRest)
    else
      match Symbol.scan? text with
      | some sign => .ok (.symbol sign, text.drop sign.chars.length)
      | none => .error (.unexpectedToken (String.ofList [c]) position)

/-- How a text ends after its last token. -/
inductive Ending where
  /-- With a gap that reaches to `position`, the end of the text. -/
  | complete (position : Nat) (newlineBefore : Bool)
  /-- With characters that are neither a gap nor a token. -/
  | failed (error : SyntaxError)
  deriving DecidableEq, Repr

/-- The tokens of a text in order, and how the text ends after them. -/
structure Lexed where
  tokens : List Token
  ending : Ending
  deriving DecidableEq, Repr

/-- The tokens of the text from `position` on. Every token takes at least one character, so that
`fuel` need not exceed the length of the text by more than one. -/
def tokenizeFrom : Nat → List Char → Nat → Lexed
  | 0, _, position => ⟨[], .complete position false⟩
  | fuel + 1, text, position =>
    match skipGap .blank text position false with
    | .error e => ⟨[], .failed e⟩
    | .ok ([], stop, newline) => ⟨[], .complete stop newline⟩
    | .ok (c :: rest, start, newline) =>
      match scanToken start (c :: rest) with
      | .error e => ⟨[], .failed e⟩
      | .ok (kind, rest) =>
        let stop := start + byteLength kind.lexeme
        let tail := tokenizeFrom fuel rest stop
        ⟨⟨kind, start, stop, newline⟩ :: tail.tokens, tail.ending⟩

/-- The tokens of a text. -/
def tokenize (text : List Char) : Lexed :=
  tokenizeFrom (text.length + 1) text 0

end Formulary.Source
