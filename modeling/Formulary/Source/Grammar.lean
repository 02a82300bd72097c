import Formulary.Source.Cursor
import Formulary.Source.Escape

/-!
# The grammar of scripts

Recursive descent, with binary operators read by precedence climbing.

* `statement`, `assignment`, `unary`, `primary`, ... : one reading step for each construct;
* `Program.parse` : the program that a text writes.

The steps call one another with one unit of `fuel` less each time. `recursionFuel` is more than the
nesting budget lets them use.
-/

namespace Formulary.Source

/-! ## Constructs around given parts -/

/-- The characters that the body of a string denotes. -/
def stringValue (raw : String) : Parse String := do
  match Escape.decode raw.toList with
  | .ok chars => return String.ofList chars
  | .error sequence => throw (.invalidEscape sequence (← position))

/-- The value of a number as written. -/
def numberValue (literal : String) : Parse Float := do
  match Number.Numeral.ofText? literal.toList with
  | some numeral => return numeral.value
  | none => throw (.invalidNumber literal (← position))

/-- Reads the current token as the literal `value`. -/
def literal (value : Literal) : Parse Expr := do
  advance
  return .literal value

/-- The name of a property behind a point: an identifier or any word. -/
def propertyName : Parse String := do
  match ← peek with
  | some (.identifier name) =>
    advance
    return name
  | some (.keyword word) =>
    advance
    return word.text
  | _ => unexpected "property name"

/-- The key of a property in an object: a name, a number as written, or a string. -/
def propertyKey : Parse String := do
  match ← peek with
  | some (.identifier name) =>
    advance
    return name
  | some (.number text) =>
    advance
    return text
  | some (.string _ raw) =>
    let key ← stringValue raw
    advance
    return key
  | some (.keyword word) =>
    advance
    return word.text
  | _ => unexpected "property key"

/-- A key, a colon and a value. -/
def property (value : Parse Expr) : Parse (String × Expr) := do
  let key ← propertyKey
  expectSign .colon
  return (key, ← value)

/-- A function: the word, an optional name, parameters and a body. -/
def functionDef (statement : Parse Stmt) : Parse FunctionDef := do
  advance
  let name ← match ← peek with
    | some (.identifier name) =>
      advance
      pure (some name)
    | _ => pure none
  expectSign .openParen
  let parameters ← commaList .closeParen identifier
  return .mk name parameters (← block statement)

/-- An expression between parentheses. -/
def parenthesized (expression : Parse Expr) : Parse Expr := do
  expectSign .openParen
  let inner ← expression
  expectSign .closeParen
  return inner

/-- A condition with two branches, or an operand alone. -/
def conditional (operand branch : Parse Expr) : Parse Expr := do
  let test ← operand
  if ← atSign .question then
    advance
    let consequent ← branch
    expectSign .colon
    return .conditional test consequent (← branch)
  else return test

/-- An assignment to a place, or an expression alone. -/
def assignmentTo (target value : Parse Expr) : Parse Expr := do
  let target ← target
  match (← peek).bind fun | .symbol sign => sign.assignment? | _ => none with
  | none => return target
  | some op =>
    if target.isAssignable then
      advance
      return .assign op target (← value)
    else throw (.invalidTarget (← position))

/-- A step by one before its target. -/
def updateBefore (op : UpdateOp) (operand : Parse Expr) : Parse Expr := do
  let start ← position
  advance
  let target ← operand
  if target.isAssignable then return .update op true target
  else throw (.invalidTarget start)

/-- A step by one behind its target. -/
def updateBehind (op : UpdateOp) (target : Expr) : Parse Expr := do
  if target.isAssignable then
    advance
    return .update op false target
  else throw (.invalidTarget (← position))

/-- An operator before its operand. -/
def unaryOf (op : UnaryOp) (operand : Parse Expr) : Parse Expr := do
  advance
  return .unary op (← operand)

/-! ## Statements around given parts -/

/-- A declaration of variables. -/
def declarationStatement (value : Parse Expr) : Parse Stmt := do
  let result ← declaration value
  endStatement
  return result

/-- A test between parentheses and two branches, the second of them optional. -/
def ifStatement (expression : Parse Expr) (statement : Parse Stmt) : Parse Stmt := do
  advance
  let test ← parenthesized expression
  let consequent ← statement
  if ← atWord .elseWord then
    advance
    return .ifElse test consequent (some (← statement))
  else return .ifElse test consequent none

/-- A test between parentheses and a body. -/
def whileStatement (expression : Parse Expr) (statement : Parse Stmt) : Parse Stmt := do
  advance
  let test ← parenthesized expression
  return .whileLoop test (← statement)

/-- An expression, unless the given sign stands in its place. -/
def optionalBefore (sign : Symbol) (expression : Parse Expr) : Parse (Option Expr) := do
  if ← atSign sign then return none else return some (← expression)

/-- What a `for` loop begins with. -/
def forStart (expression : Parse Expr) : Parse (Option Stmt) := do
  match ← peek with
  | some (.symbol .semicolon) => return none
  | some (.keyword .varWord) => return some (← declaration expression)
  | some (.keyword .letWord) => return some (← declaration expression)
  | some (.keyword .constWord) => return some (← declaration expression)
  | _ => return some (.expression (← expression))

/-- Three optional parts between parentheses and a body. -/
def forStatement (expression : Parse Expr) (statement : Parse Stmt) : Parse Stmt := do
  advance
  expectSign .openParen
  let start ← forStart expression
  expectSign .semicolon
  let test ← optionalBefore .semicolon expression
  expectSign .semicolon
  let step ← optionalBefore .closeParen expression
  expectSign .closeParen
  return .forLoop start test step (← statement)

/-- The value of a `return`; a line break ends the statement before it. -/
def returnStatement (expression : Parse Expr) : Parse Stmt := do
  advance
  let value ← match ← peek with
    | none => pure none
    | some (.symbol .semicolon) => pure none
    | some (.symbol .closeBrace) => pure none
    | some _ => if ← newlineBefore then pure none else some <$> expression
  endStatement
  return .ret value

/-- A named function is a declaration; one without a name begins an expression. -/
def functionStatement (statement : Parse Stmt) (suffixes : Expr → Parse Expr) : Parse Stmt := do
  let definition ← functionDef statement
  if definition.name.isSome then return .function definition
  let value ← suffixes (.function definition)
  endStatement
  return .expression value

/-- An expression that is a statement. -/
def expressionStatement (expression : Parse Expr) : Parse Stmt := do
  let value ← expression
  endStatement
  return .expression value

/-- A word that is a statement by itself. -/
def wordStatement (result : Stmt) : Parse Stmt := do
  advance
  endStatement
  return result

/-! ## Recursive constructs -/

mutual

/-- A statement. -/
def statement : Nat → Parse Stmt
  | 0 => tooDeep
  | fuel + 1 => nested do
    match ← peek with
    | none => unexpected "statement"
    | some (.symbol .semicolon) =>
      advance
      return .empty
    | some (.symbol .openBrace) => return .block (← block (statement fuel))
    | some (.keyword .varWord) => declarationStatement (assignment fuel)
    | some (.keyword .letWord) => declarationStatement (assignment fuel)
    | some (.keyword .constWord) => declarationStatement (assignment fuel)
    | some (.keyword .function) =>
      functionStatement (statement fuel) (fun value => restoring (suffixes fuel value))
    | some (.keyword .ret) => returnStatement (assignment fuel)
    | some (.keyword .ifWord) => ifStatement (assignment fuel) (statement fuel)
    | some (.keyword .whileWord) => whileStatement (assignment fuel) (statement fuel)
    | some (.keyword .forWord) => forStatement (assignment fuel) (statement fuel)
    | some (.keyword .breakWord) => wordStatement .breakLoop
    | some (.keyword .continueWord) => wordStatement .continueLoop
    | some _ => expressionStatement (assignment fuel)

/-- An expression of any kind: an assignment binds loosest and groups to the right. -/
def assignment : Nat → Parse Expr
  | 0 => tooDeep
  | fuel + 1 => nested <|
    assignmentTo (conditional (climb fuel loosestLevel) (assignment fuel)) (assignment fuel)

/-- Operands joined by operators of at least the given level. -/
def climb : Nat → Nat → Parse Expr
  | 0, _ => tooDeep
  | fuel + 1, level => restoring do
    let left ← unary fuel
    chain fuel level left

/-- Joins operands to `left` as long as operators of at least the given level follow. -/
def chain : Nat → Nat → Expr → Parse Expr
  | 0, _, _ => tooDeep
  | fuel + 1, level, left => do
    match (← peek).bind fun | .symbol sign => sign.connective? | _ => none with
    | none => return left
    | some connective =>
      if connective.level < level then return left
      descend linkCost
      advance
      let right ← climb fuel (connective.level + 1)
      chain fuel level (connective.join left right)

/-- An operand with the operators before it. -/
def unary : Nat → Parse Expr
  | 0 => tooDeep
  | fuel + 1 => do
    match ← peek with
    | some (.symbol .not) => unaryOf .not (nested (unary fuel))
    | some (.symbol .minus) => unaryOf .minus (nested (unary fuel))
    | some (.symbol .plus) => unaryOf .plus (nested (unary fuel))
    | some (.keyword .typeOf) => unaryOf .typeOf (nested (unary fuel))
    | some (.symbol .increment) => updateBefore .increment (nested (unary fuel))
    | some (.symbol .decrement) => updateBefore .decrement (nested (unary fuel))
    | _ =>
      let value ← primary fuel
      restoring (suffixes fuel value)

/-- Members, indexes, calls and a step by one behind an expression. -/
def suffixes : Nat → Expr → Parse Expr
  | 0, _ => tooDeep
  | fuel + 1, value => do
    match ← peek with
    | some (.symbol .dot) =>
      descend linkCost
      advance
      let name ← propertyName
      suffixes fuel (.member value name)
    | some (.symbol .openBracket) =>
      descend linkCost
      advance
      let key ← assignment fuel
      expectSign .closeBracket
      suffixes fuel (.index value key)
    | some (.symbol .openParen) =>
      descend linkCost
      advance
      let arguments ← commaList .closeParen (assignment fuel)
      suffixes fuel (.call value arguments)
    | some (.symbol .increment) =>
      if ← newlineBefore then return value else updateBehind .increment value
    | some (.symbol .decrement) =>
      if ← newlineBefore then return value else updateBehind .decrement value
    | _ => return value

/-- An expression without operators around it. -/
def primary : Nat → Parse Expr
  | 0 => tooDeep
  | fuel + 1 => do
    match ← peek with
    | some (.number text) => literal (.number (← numberValue text))
    | some (.string _ raw) => literal (.string (← stringValue raw))
    | some (.keyword .trueWord) => literal (.boolean true)
    | some (.keyword .falseWord) => literal (.boolean false)
    | some (.keyword .null) => literal .null
    | some (.keyword .undefined) => literal .undefined
    | some (.keyword .function) => return .function (← functionDef (statement fuel))
    | some (.identifier name) =>
      advance
      return .identifier name
    | some (.symbol .openParen) => parenthesized (assignment fuel)
    | some (.symbol .openBracket) =>
      advance
      return .array (← commaList .closeBracket (assignment fuel))
    | some (.symbol .openBrace) =>
      advance
      return .object (← commaList .closeBrace (property (assignment fuel)))
    | _ => unexpected "expression"

end

/-- More steps inside one another than the nesting budget allows. -/
def recursionFuel : Nat := 16 * nestingLimit

/-- The statements that tokens write. -/
def program (lexed : Lexed) : Except SyntaxError Program := do
  let cursor ← Cursor.moveTo ⟨lexed.tokens, lexed.ending, 0⟩ lexed.tokens
  match statementsWithin (statement recursionFuel) (lexed.tokens.length + 1) cursor with
  | .ok body _ => .ok ⟨body⟩
  | .error e _ => .error e

end Formulary.Source

/-- The program that a text writes. -/
def Formulary.Program.parse (text : String) : Except Formulary.SyntaxError Formulary.Program :=
  Formulary.Source.program (Formulary.Source.tokenize text.toList)
