import Formulary.Source.Lexeme

/-!
# Reading tokens one at a time

* `Cursor` : the tokens still to read and the nesting of what is being read;
* `Parse` : a step that reads tokens, or fails with a syntax error;
* `descend`, `nested`, `restoring` : the budget that bounds the nesting;
* `commaList`, `statementList`, `declaratorList` : repetitions.
-/

namespace Formulary.Source

/-- The tokens still to read, the first one being the current one, and how the text ends after
them. `depth` is what the constructs around the current token have taken from the nesting
budget. -/
structure Cursor where
  tokens : List Token
  ending : Ending
  depth : Nat

/-- A step that reads tokens. -/
abbrev Parse := EStateM SyntaxError Cursor

/-- The nesting budget. -/
def nestingLimit : Nat := 256

/-- What a statement, an expression or an operand inside another one takes from the budget. -/
def descentCost : Nat := 3

/-- What an operator or a suffix takes from the budget while its chain is read. -/
def linkCost : Nat := 1

/-- Where the current token starts; at the end, where the text ends. -/
def Cursor.position (cursor : Cursor) : Nat :=
  match cursor.tokens, cursor.ending with
  | token :: _, _ => token.start
  | [], .complete position _ => position
  | [], .failed e => e.position?.getD 0

/-- The cursor before the given tokens; a text that ends in an error cannot be read to its end. -/
def Cursor.moveTo (cursor : Cursor) (tokens : List Token) : Except SyntaxError Cursor :=
  match tokens, cursor.ending with
  | [], .failed e => .error e
  | _, _ => .ok { cursor with tokens := tokens }

/-- Reads the current token. -/
def advance : Parse Unit := fun cursor =>
  match cursor.moveTo cursor.tokens.tail with
  | .ok next => .ok () next
  | .error e => .error e cursor

/-- The current token. -/
def peek : Parse (Option TokenKind) :=
  return (← get).tokens.head?.map Token.kind

/-- Where the current token starts. -/
def position : Parse Nat :=
  return (← get).position

/-- Whether a line feed precedes the current token. -/
def newlineBefore : Parse Bool :=
  return ((← get).tokens.head?.map Token.newlineBefore).getD false

/-- Fails because something else is expected here. -/
def unexpected {α : Type} (expected : String) : Parse α := do
  match ← peek with
  | some kind => throw (.unexpectedToken kind.label (← position))
  | none => throw (.unexpectedEnd expected)

/-- Whether the current token is the given sign. -/
def atSign (sign : Symbol) : Parse Bool :=
  return (← peek) == some (.symbol sign)

/-- Whether the current token is the given word. -/
def atWord (word : Keyword) : Parse Bool :=
  return (← peek) == some (.keyword word)

/-- Reads the given sign. -/
def expectSign (sign : Symbol) : Parse Unit := do
  if ← atSign sign then advance else unexpected ("'" ++ sign.text ++ "'")

/-- Reads an identifier. -/
def identifier : Parse String := do
  match ← peek with
  | some (.identifier name) =>
    advance
    return name
  | _ => unexpected "identifier"

/-- Reads the end of a statement: a semicolon, or nothing before a closing brace, before the end of
the text, or at a line break. -/
def endStatement : Parse Unit := do
  match ← peek with
  | some (.symbol .semicolon) => advance
  | none => return ()
  | some (.symbol .closeBrace) => return ()
  | some _ => if ← newlineBefore then return () else unexpected "';'"

/-! ## The nesting budget -/

/-- Fails because the nesting budget is used up. -/
def tooDeep {α : Type} : Parse α := do
  throw (.nestingTooDeep nestingLimit (← position))

/-- Takes `cost` from the nesting budget. -/
def descend (cost : Nat) : Parse Unit := do
  let cursor ← get
  if nestingLimit < cursor.depth + cost then tooDeep
  else set { cursor with depth := cursor.depth + cost }

/-- Gives the cursor after a step the depth that it had before. -/
def restoring {α : Type} (step : Parse α) : Parse α := fun cursor =>
  match step cursor with
  | .ok a after => .ok a { after with depth := cursor.depth }
  | .error e after => .error e { after with depth := cursor.depth }

/-- Runs a step one level further inside. -/
def nested {α : Type} (step : Parse α) : Parse α :=
  restoring do
    descend descentCost
    step

/-! ## Repetitions

Every round reads at least one token, so that the number of tokens bounds the rounds. -/

/-- One more than the number of tokens still to read. -/
def rounds : Parse Nat :=
  return (← get).tokens.length + 1

/-- Items separated by commas before a closing sign; a comma may follow the last one. -/
def commaListWithin {α : Type} (close : Symbol) (item : Parse α) : Nat → Parse (List α)
  | 0 => return []
  | fuel + 1 => do
    if ← atSign close then return []
    let first ← item
    if ← atSign .comma then
      advance
      return first :: (← commaListWithin close item fuel)
    else return [first]

/-- Items separated by commas, and the closing sign. -/
def commaList {α : Type} (close : Symbol) (item : Parse α) : Parse (List α) := do
  let items ← commaListWithin close item (← rounds)
  expectSign close
  return items

/-- Statements up to a closing brace. -/
def blockWithin (statement : Parse Stmt) : Nat → Parse (List Stmt)
  | 0 => return []
  | fuel + 1 => do
    if ← atSign .closeBrace then return []
    if (← peek).isNone then unexpected "'\x7d'"
    let first ← statement
    return first :: (← blockWithin statement fuel)

/-- Statements between braces. -/
def block (statement : Parse Stmt) : Parse (List Stmt) := do
  expectSign .openBrace
  let body ← blockWithin statement (← rounds)
  expectSign .closeBrace
  return body

/-- Statements up to the end of the text. -/
def statementsWithin (statement : Parse Stmt) : Nat → Parse (List Stmt)
  | 0 => return []
  | fuel + 1 => do
    if (← peek).isNone then return []
    let first ← statement
    return first :: (← statementsWithin statement fuel)

/-- A variable with its initial value, if it has one. -/
def declarator (value : Parse Expr) : Parse (String × Option Expr) := do
  let name ← identifier
  if ← atSign .assign then
    advance
    return (name, some (← value))
  else return (name, none)

/-- Declarators separated by commas. -/
def declaratorsWithin (value : Parse Expr) : Nat → Parse (List (String × Option Expr))
  | 0 => return []
  | fuel + 1 => do
    let first ← declarator value
    if ← atSign .comma then
      advance
      return first :: (← declaratorsWithin value fuel)
    else return [first]

/-- A declaration without the end of its statement. -/
def declaration (value : Parse Expr) : Parse Stmt := do
  advance
  return .declaration (← declaratorsWithin value (← rounds))

end Formulary.Source
