/-!
# Programs

The trees that scripts are read into.

* `Expr`, `Stmt`, `FunctionDef` : expressions, statements and functions, one inside the other;
* `Program` : the statements of a script in order;
* `Expr.isAssignable` : the expressions that name a place to write to.
-/

namespace Formulary

/-- Operators before an operand. -/
inductive UnaryOp where
  | not
  | minus
  | plus
  | typeOf
  deriving DecidableEq, Repr

/-- Operators that always evaluate both operands. -/
inductive BinaryOp where
  | add
  | subtract
  | multiply
  | divide
  | modulo
  | equal
  | notEqual
  | strictEqual
  | strictNotEqual
  | less
  | lessEqual
  | greater
  | greaterEqual
  deriving DecidableEq, Repr

/-- Operators that may leave their right operand alone. -/
inductive LogicalOp where
  | and
  | or
  deriving DecidableEq, Repr

/-- Assignments: plain, or combining the old value with the new one. -/
inductive AssignOp where
  | set
  | add
  | subtract
  | multiply
  | divide
  | modulo
  deriving DecidableEq, Repr

/-- Steps by one. -/
inductive UpdateOp where
  | increment
  | decrement
  deriving DecidableEq, Repr

/-- Values written out in a script. -/
inductive Literal where
  | number (x : Float)
  | string (s : String)
  | boolean (b : Bool)
  | null
  | undefined

mutual

/-- Expressions. -/
inductive Expr where
  | literal (value : Literal)
  | identifier (name : String)
  | array (elements : List Expr)
  | object (properties : List (String × Expr))
  | member (object : Expr) (property : String)
  | index (object : Expr) (key : Expr)
  | call (callee : Expr) (arguments : List Expr)
  | unary (op : UnaryOp) (operand : Expr)
  | binary (op : BinaryOp) (left : Expr) (right : Expr)
  | logical (op : LogicalOp) (left : Expr) (right : Expr)
  | conditional (test : Expr) (consequent : Expr) (alternate : Expr)
  | assign (op : AssignOp) (target : Expr) (value : Expr)
  /-- A step by one; when `before`, the operator stands before its target and the expression has
  the new value. -/
  | update (op : UpdateOp) (before : Bool) (target : Expr)
  | function (definition : FunctionDef)

/-- Statements. -/
inductive Stmt where
  | expression (value : Expr)
  | declaration (declarators : List (String × Option Expr))
  | function (definition : FunctionDef)
  | ret (value : Option Expr)
  | ifElse (test : Expr) (consequent : Stmt) (alternate : Option Stmt)
  | whileLoop (test : Expr) (body : Stmt)
  | forLoop (start : Option Stmt) (test : Option Expr) (step : Option Expr) (body : Stmt)
  | block (body : List Stmt)
  | breakLoop
  | continueLoop
  | empty

/-- A function with its parameters and its body; the name is optional. -/
inductive FunctionDef where
  | mk (name : Option String) (parameters : List String) (body : List Stmt)

end

instance : Inhabited Expr := ⟨.literal .undefined⟩
instance : Inhabited Stmt := ⟨.empty⟩

namespace FunctionDef

/-- The name, if the function has one. -/
def name : FunctionDef → Option String
  | mk name _ _ => name

/-- The names that arguments are bound to, in order. -/
def parameters : FunctionDef → List String
  | mk _ parameters _ => parameters

/-- The statements that a call runs. -/
def body : FunctionDef → List Stmt
  | mk _ _ body => body

end FunctionDef

/-- The statements of a script in order. -/
structure Program where
  body : List Stmt

instance : Inhabited Program := ⟨⟨[]⟩⟩

/-- Names, members and indexed elements can be written to. -/
def Expr.isAssignable : Expr → Bool
  | identifier _ => true
  | member _ _ => true
  | index _ _ => true
  | _ => false

/-- The operation that an assignment combines old and new value with; plain assignment has none. -/
def AssignOp.binary? : AssignOp → Option BinaryOp
  | set => none
  | add => some .add
  | subtract => some .subtract
  | multiply => some .multiply
  | divide => some .divide
  | modulo => some .modulo

/-- The name that a statement declares as a function. -/
def Stmt.functionName? : Stmt → Option String
  | function definition => definition.name
  | _ => none

/-- The names of the functions that a program declares outside any other statement. -/
def Program.functionNames (program : Program) : List String :=
  program.body.filterMap Stmt.functionName?

/-! ## Spelling of operators -/

/-- How an operator is written. -/
def UnaryOp.text : UnaryOp → String
  | not => "!"
  | minus => "-"
  | plus => "+"
  | typeOf => "typeof"

/-- How an operator is written. -/
def BinaryOp.text : BinaryOp → String
  | add => "+"
  | subtract => "-"
  | multiply => "*"
  | divide => "/"
  | modulo => "%"
  | equal => "=="
  | notEqual => "!="
  | strictEqual => "==="
  | strictNotEqual => "!=="
  | less => "<"
  | lessEqual => "<="
  | greater => ">"
  | greaterEqual => ">="

/-- How an operator is written. -/
def LogicalOp.text : LogicalOp → String
  | and => "&&"
  | or => "||"

/-- How an assignment is written. -/
def AssignOp.text : AssignOp → String
  | set => "="
  | add => "+="
  | subtract => "-="
  | multiply => "*="
  | divide => "/="
  | modulo => "%="

/-- How a step is written. -/
def UpdateOp.text : UpdateOp → String
  | increment => "++"
  | decrement => "--"

end Formulary
