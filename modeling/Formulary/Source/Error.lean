/-!
# Why a text is no script

* `SyntaxError` : the causes;
* `SyntaxError.position?` : where in the text, as a count of bytes;
* `SyntaxError.message` : the wording.
-/

namespace Formulary

/-- The causes for which a text is no script. Positions count bytes from the start of the text. -/
inductive SyntaxError where
  /-- A token, or a character that begins none, where the grammar has no place for it. -/
  | unexpectedToken (token : String) (position : Nat)
  /-- The text ends where something is expected. -/
  | unexpectedEnd (expected : String)
  /-- No closing quote follows on the line. -/
  | unclosedString (position : Nat)
  /-- No end of the comment follows. -/
  | unclosedComment (position : Nat)
  /-- A number without digits. -/
  | invalidNumber (literal : String) (position : Nat)
  /-- A backslash sequence that denotes no character; the position is that of the string. -/
  | invalidEscape (sequence : String) (position : Nat)
  /-- An assignment or a step whose target is no place to write to. -/
  | invalidTarget (position : Nat)
  /-- More levels inside each other than a script may have. -/
  | nestingTooDeep (limit : Nat) (position : Nat)
  deriving DecidableEq, Repr

namespace SyntaxError

/-- The position that an error names. -/
def position? : SyntaxError → Option Nat
  | unexpectedToken _ position => some position
  | unexpectedEnd _ => none
  | unclosedString position => some position
  | unclosedComment position => some position
  | invalidNumber _ position => some position
  | invalidEscape _ position => some position
  | invalidTarget position => some position
  | nestingTooDeep _ position => some position

/-- The wording of an error. -/
def message : SyntaxError → String
  | unexpectedToken token position =>
    "Unexpected token '" ++ token ++ "' at position " ++ toString position
  | unexpectedEnd expected => "Unexpected end of input, expected " ++ expected
  | unclosedString position => "Unclosed string literal starting at position " ++ toString position
  | unclosedComment position => "Unclosed comment starting at position " ++ toString position
  | invalidNumber literal position =>
    "Invalid number literal '" ++ literal ++ "' at position " ++ toString position
  | invalidEscape sequence position =>
    "Invalid escape sequence at position " ++ toString position ++ ": " ++ sequence
  | invalidTarget position => "Invalid assignment target at position " ++ toString position
  | nestingTooDeep limit position =>
    "Nesting deeper than " ++ toString limit ++ " levels at position " ++ toString position

end SyntaxError

end Formulary
