import Formulary.Source.Program

/-!
# The expressions of a program

* `Expr.expressions`, `Stmt.expressions`, `FunctionDef.expressions` : all expressions inside, at any
  depth and in inner functions too;
* `Program.expressions` : all expressions of a program;
* `Avoid` : expressions that mention none of some names.
-/

namespace Formulary

mutual

/-- The expressions inside an expression at any depth, itself first. -/
def Expr.expressions : Expr → List Expr
  | .literal value => [.literal value]
  | .identifier name => [.identifier name]
  | .array elements => .array elements :: expressionsOfAll elements
  | .object properties => .object properties :: expressionsOfProperties properties
  | .member object name => .member object name :: object.expressions
  | .index object key => .index object key :: (object.expressions ++ key.expressions)
  | .call callee arguments =>
    .call callee arguments :: (callee.expressions ++ expressionsOfAll arguments)
  | .unary op operand => .unary op operand :: operand.expressions
  | .binary op left right => .binary op left right :: (left.expressions ++ right.expressions)
  | .logical op left right => .logical op left right :: (left.expressions ++ right.expressions)
  | .conditional test consequent alternate =>
    .conditional test consequent alternate ::
      (test.expressions ++ consequent.expressions ++ alternate.expressions)
  | .assign op target value => .assign op target value :: (target.expressions ++ value.expressions)
  | .update op before target => .update op before target :: target.expressions
  | .function definition => .function definition :: definition.expressions

/-- The expressions inside a list of expressions. -/
def expressionsOfAll : List Expr → List Expr
  | [] => []
  | e :: rest => e.expressions ++ expressionsOfAll rest

/-- The expressions inside the properties of an object. -/
def expressionsOfProperties : List (String × Expr) → List Expr
  | [] => []
  | (_, value) :: rest => value.expressions ++ expressionsOfProperties rest

/-- The expressions inside an optional expression. -/
def expressionsOfOption : Option Expr → List Expr
  | some e => e.expressions
  | none => []

/-- The expressions inside declarators. -/
def expressionsOfDeclarators : List (String × Option Expr) → List Expr
  | [] => []
  | (_, initial) :: rest => expressionsOfOption initial ++ expressionsOfDeclarators rest

/-- The expressions inside a statement. -/
def Stmt.expressions : Stmt → List Expr
  | .expression value => value.expressions
  | .declaration declarators => expressionsOfDeclarators declarators
  | .function definition => definition.expressions
  | .ret value => expressionsOfOption value
  | .ifElse test consequent alternate =>
    test.expressions ++ consequent.expressions ++ expressionsOfBranch alternate
  | .whileLoop test body => test.expressions ++ body.expressions
  | .forLoop start test step body =>
    expressionsOfBranch start ++ expressionsOfOption test ++ expressionsOfOption step
      ++ body.expressions
  | .block body => expressionsOfBody body
  | .breakLoop => []
  | .continueLoop => []
  | .empty => []

/-- The expressions inside an optional statement. -/
def expressionsOfBranch : Option Stmt → List Expr
  | some statement => statement.expressions
  | none => []

/-- The expressions inside statements. -/
def expressionsOfBody : List Stmt → List Expr
  | [] => []
  | statement :: rest => statement.expressions ++ expressionsOfBody rest

/-- The expressions inside the body of a function. -/
def FunctionDef.expressions : FunctionDef → List Expr
  | .mk _ _ body => expressionsOfBody body

end

/-- The expressions inside a program. -/
def Program.expressions (program : Program) : List Expr :=
  expressionsOfBody program.body

section Inside

variable {P : Expr → Prop}

theorem forall_expressionsOfAll {elements : List Expr} :
    (∀ e ∈ expressionsOfAll elements, P e) ↔ ∀ e ∈ elements, ∀ inner ∈ e.expressions, P inner := by
  induction elements with
  | nil => simp [expressionsOfAll]
  | cons e rest ih => rw [expressionsOfAll, List.forall_mem_append, ih, List.forall_mem_cons]

theorem forall_expressionsOfProperties {properties : List (String × Expr)} :
    (∀ e ∈ expressionsOfProperties properties, P e) ↔
      ∀ property ∈ properties, ∀ inner ∈ property.2.expressions, P inner := by
  induction properties with
  | nil => simp [expressionsOfProperties]
  | cons property rest ih =>
    rw [expressionsOfProperties, List.forall_mem_append, ih, List.forall_mem_cons]

theorem forall_expressionsOfBody {body : List Stmt} :
    (∀ e ∈ expressionsOfBody body, P e) ↔ ∀ s ∈ body, ∀ inner ∈ s.expressions, P inner := by
  induction body with
  | nil => simp [expressionsOfBody]
  | cons statement rest ih =>
    rw [expressionsOfBody, List.forall_mem_append, ih, List.forall_mem_cons]

theorem FunctionDef.expressions_eq (definition : FunctionDef) :
    definition.expressions = expressionsOfBody definition.body := by
  cases definition
  rfl

end Inside

/-! ## Names that are mentioned -/

/-- The name that an expression is. -/
def Expr.identifier? : Expr → Option String
  | .identifier name => some name
  | _ => none

/-- Whether expressions mention none of some names. -/
def Avoid (names : List String) (expressions : List Expr) : Prop :=
  ∀ e ∈ expressions, ∀ name ∈ e.identifier?, name ∉ names

instance (names : List String) (expressions : List Expr) : Decidable (Avoid names expressions) :=
  inferInstanceAs (Decidable (∀ e ∈ expressions, ∀ name ∈ e.identifier?, name ∉ names))

section Avoid

variable {names names' : List String} {e : Expr} {expressions expressions' : List Expr}

theorem avoid_append :
    Avoid names (expressions ++ expressions') ↔
      Avoid names expressions ∧ Avoid names expressions' :=
  List.forall_mem_append

theorem avoid_cons :
    Avoid names (e :: expressions) ↔
      (∀ name ∈ e.identifier?, name ∉ names) ∧ Avoid names expressions :=
  List.forall_mem_cons

theorem Avoid.mono (h : Avoid names expressions) (sub : names' ⊆ names) :
    Avoid names' expressions :=
  fun e hmem name hname hin => h e hmem name hname (sub hin)

end Avoid

end Formulary
