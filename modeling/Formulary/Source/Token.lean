import Formulary.Source.Program

/-!
# Tokens

* `Keyword`, `Symbol` : the words and the signs of the language, with their spelling;
* `TokenKind` : what a token is, and `TokenKind.lexeme`, the characters it is written with;
* `Token` : a token with the bytes it covers and whether a line feed precedes it;
* `Connective` : what a sign between two operands does and how tightly it binds.
-/

namespace Formulary.Source

/-- Words that are no identifiers. -/
inductive Keyword where
  | varWord
  | letWord
  | constWord
  | function
  | ret
  | ifWord
  | elseWord
  | whileWord
  | forWord
  | breakWord
  | continueWord
  | trueWord
  | falseWord
  | null
  | undefined
  | typeOf
  deriving DecidableEq, Repr

namespace Keyword

/-- The spelling of a word. -/
def text : Keyword → String
  | varWord => "var"
  | letWord => "let"
  | constWord => "const"
  | function => "function"
  | ret => "return"
  | ifWord => "if"
  | elseWord => "else"
  | whileWord => "while"
  | forWord => "for"
  | breakWord => "break"
  | continueWord => "continue"
  | trueWord => "true"
  | falseWord => "false"
  | null => "null"
  | undefined => "undefined"
  | typeOf => "typeof"

/-- All words. -/
def all : List Keyword :=
  [varWord, letWord, constWord, function, ret, ifWord, elseWord, whileWord, forWord, breakWord,
   continueWord, trueWord, falseWord, null, undefined, typeOf]

/-- The word with the given spelling. -/
def ofText? (text : String) : Option Keyword :=
  all.find? fun word => word.text == text

theorem mem_all (word : Keyword) : word ∈ all := by
  cases word <;> decide

end Keyword

/-- Signs. -/
inductive Symbol where
  | plus
  | minus
  | times
  | slash
  | percent
  | increment
  | decrement
  | assign
  | plusAssign
  | minusAssign
  | timesAssign
  | slashAssign
  | percentAssign
  | equal
  | notEqual
  | strictEqual
  | strictNotEqual
  | less
  | lessEqual
  | greater
  | greaterEqual
  | and
  | or
  | not
  | question
  | colon
  | openParen
  | closeParen
  | openBracket
  | closeBracket
  | openBrace
  | closeBrace
  | dot
  | comma
  | semicolon
  deriving DecidableEq, Repr

namespace Symbol

/-- The characters of a sign. -/
def chars : Symbol → List Char
  | plus => ['+']
  | minus => ['-']
  | times => ['*']
  | slash => ['/']
  | percent => ['%']
  | increment => ['+', '+']
  | decrement => ['-', '-']
  | assign => ['=']
  | plusAssign => ['+', '=']
  | minusAssign => ['-', '=']
  | timesAssign => ['*', '=']
  | slashAssign => ['/', '=']
  | percentAssign => ['%', '=']
  | equal => ['=', '=']
  | notEqual => ['!', '=']
  | strictEqual => ['=', '=', '=']
  | strictNotEqual => ['!', '=', '=']
  | less => ['<']
  | lessEqual => ['<', '=']
  | greater => ['>']
  | greaterEqual => ['>', '=']
  | and => ['&', '&']
  | or => ['|', '|']
  | not => ['!']
  | question => ['?']
  | colon => [':']
  | openParen => ['(']
  | closeParen => [')']
  | openBracket => ['[']
  | closeBracket => [']']
  | openBrace => ['\x7b']
  | closeBrace => ['\x7d']
  | dot => ['.']
  | comma => [',']
  | semicolon => [';']

/-- The spelling of a sign. -/
def text (sign : Symbol) : String :=
  String.ofList sign.chars

/-- All signs, longer ones first. -/
def all : List Symbol :=
  [strictEqual, strictNotEqual, increment, decrement, plusAssign, minusAssign, timesAssign,
   slashAssign, percentAssign, equal, notEqual, lessEqual, greaterEqual, and, or, plus, minus,
   times, slash, percent, assign, less, greater, not, question, colon, openParen, closeParen,
   openBracket, closeBracket, openBrace, closeBrace, dot, comma, semicolon]

/-- The longest sign at the head of a text. -/
def scan? (text : List Char) : Option Symbol :=
  all.find? fun sign => sign.chars.isPrefixOf text

theorem mem_all (sign : Symbol) : sign ∈ all := by
  cases sign <;> decide

end Symbol

/-- What a token is. A string keeps its quote and its body as written. -/
inductive TokenKind where
  | number (text : String)
  | string (quote : Char) (raw : String)
  | identifier (name : String)
  | keyword (word : Keyword)
  | symbol (sign : Symbol)
  deriving DecidableEq, Repr

namespace TokenKind

/-- The characters that a token is written with. -/
def lexeme : TokenKind → List Char
  | number text => text.toList
  | string quote raw => quote :: raw.toList ++ [quote]
  | identifier name => name.toList
  | keyword word => word.text.toList
  | symbol sign => sign.chars

/-- How an error names a token. -/
def label : TokenKind → String
  | number text => text
  | string _ raw => "\"" ++ raw ++ "\""
  | identifier name => name
  | keyword word => word.text
  | symbol sign => sign.text

end TokenKind

/-- The bytes that characters take in UTF-8. -/
def byteLength (chars : List Char) : Nat :=
  chars.foldr (fun c rest => c.utf8Size + rest) 0

/-- A token with the range of bytes it covers and whether a line feed stands in the gap before
it. -/
structure Token where
  kind : TokenKind
  start : Nat
  stop : Nat
  newlineBefore : Bool
  deriving DecidableEq, Repr

/-! ## Operators between operands -/

/-- What a sign between two operands does. -/
inductive Connective where
  | binary (op : BinaryOp)
  | logical (op : LogicalOp)
  deriving DecidableEq, Repr

namespace Connective

/-- How tightly an operator binds; a higher level binds tighter. -/
def level : Connective → Nat
  | logical .or => 1
  | logical .and => 2
  | binary .equal => 3
  | binary .notEqual => 3
  | binary .strictEqual => 3
  | binary .strictNotEqual => 3
  | binary .less => 4
  | binary .lessEqual => 4
  | binary .greater => 4
  | binary .greaterEqual => 4
  | binary .add => 5
  | binary .subtract => 5
  | binary .multiply => 6
  | binary .divide => 6
  | binary .modulo => 6

/-- The expression that joins two operands. -/
def join (connective : Connective) (left right : Expr) : Expr :=
  match connective with
  | binary op => .binary op left right
  | logical op => .logical op left right

end Connective

/-- The level of the loosest operators. -/
def loosestLevel : Nat := 1

/-- The operator that a sign between two operands stands for. -/
def Symbol.connective? : Symbol → Option Connective
  | plus => some (.binary .add)
  | minus => some (.binary .subtract)
  | times => some (.binary .multiply)
  | slash => some (.binary .divide)
  | percent => some (.binary .modulo)
  | equal => some (.binary .equal)
  | notEqual => some (.binary .notEqual)
  | strictEqual => some (.binary .strictEqual)
  | strictNotEqual => some (.binary .strictNotEqual)
  | less => some (.binary .less)
  | lessEqual => some (.binary .lessEqual)
  | greater => some (.binary .greater)
  | greaterEqual => some (.binary .greaterEqual)
  | and => some (.logical .and)
  | or => some (.logical .or)
  | _ => none

/-- The assignment that a sign stands for. -/
def Symbol.assignment? : Symbol → Option AssignOp
  | assign => some .set
  | plusAssign => some .add
  | minusAssign => some .subtract
  | timesAssign => some .multiply
  | slashAssign => some .divide
  | percentAssign => some .modulo
  | _ => none

end Formulary.Source
