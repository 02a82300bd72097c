import Formulary.Proofs.Source.Expressions
import Mathlib.Tactic.Tauto

/-!
# Everything inside a program

* `Expr.statements`, `Stmt.statements`, `Program.statements` : all statements inside, at any depth
  and in functions too;
* `Expr.All`, `Stmt.All`, `FunctionDef.All`, `Program.All` : whether all expressions and all
  statements inside have given properties;
* `all_array`, `all_binary`, ... : what that says of each construct and its parts.
-/

namespace Formulary

mutual

/-- The statements of the functions inside an expression, at any depth. -/
def Expr.statements : Expr → List Stmt
  | .literal _ => []
  | .identifier _ => []
  | .array elements => statementsOfAll elements
  | .object properties => statementsOfProperties properties
  | .member object _ => object.statements
  | .index object key => object.statements ++ key.statements
  | .call callee arguments => callee.statements ++ statementsOfAll arguments
  | .unary _ operand => operand.statements
  | .binary _ left right => left.statements ++ right.statements
  | .logical _ left right => left.statements ++ right.statements
  | .conditional test consequent alternate =>
    test.statements ++ consequent.statements ++ alternate.statements
  | .assign _ target value => target.statements ++ value.statements
  | .update _ _ target => target.statements
  | .function definition => definition.statements

/-- The statements inside a list of expressions. -/
def statementsOfAll : List Expr → List Stmt
  | [] => []
  | e :: rest => e.statements ++ statementsOfAll rest

/-- The statements inside the properties of an object. -/
def statementsOfProperties : List (String × Expr) → List Stmt
  | [] => []
  | (_, value) :: rest => value.statements ++ statementsOfProperties rest

/-- The statements inside an optional expression. -/
def statementsOfOption : Option Expr → List Stmt
  | some e => e.statements
  | none => []

/-- The statements inside declarators. -/
def statementsOfDeclarators : List (String × Option Expr) → List Stmt
  | [] => []
  | (_, initial) :: rest => statementsOfOption initial ++ statementsOfDeclarators rest

/-- The statements inside a statement at any depth, itself first. -/
def Stmt.statements : Stmt → List Stmt
  | .expression value => .expression value :: value.statements
  | .declaration declarators => .declaration declarators :: statementsOfDeclarators declarators
  | .function definition => .function definition :: definition.statements
  | .ret value => .ret value :: statementsOfOption value
  | .ifElse test consequent alternate =>
    .ifElse test consequent alternate ::
      (test.statements ++ consequent.statements ++ statementsOfBranch alternate)
  | .whileLoop test body => .whileLoop test body :: (test.statements ++ body.statements)
  | .forLoop start test step body =>
    .forLoop start test step body ::
      (statementsOfBranch start ++ statementsOfOption test ++ statementsOfOption step
        ++ body.statements)
  | .block body => .block body :: statementsOfBody body
  | .breakLoop => [.breakLoop]
  | .continueLoop => [.continueLoop]
  | .empty => [.empty]

/-- The statements inside an optional statement. -/
def statementsOfBranch : Option Stmt → List Stmt
  | some statement => statement.statements
  | none => []

/-- The statements inside statements. -/
def statementsOfBody : List Stmt → List Stmt
  | [] => []
  | statement :: rest => statement.statements ++ statementsOfBody rest

/-- The statements inside the body of a function. -/
def FunctionDef.statements : FunctionDef → List Stmt
  | .mk _ _ body => statementsOfBody body

end

/-- The statements inside a program. -/
def Program.statements (program : Program) : List Stmt :=
  statementsOfBody program.body

attribute [simp] Expr.expressions Expr.statements Stmt.expressions Stmt.statements

section All

variable (Q : Expr → Prop) (R : Stmt → Prop)

/-- Whether all expressions and statements inside an expression have given properties. -/
def Expr.All (e : Expr) : Prop :=
  (∀ inner ∈ e.expressions, Q inner) ∧ ∀ s ∈ e.statements, R s

/-- Whether all expressions and statements inside a statement have given properties. -/
def Stmt.All (s : Stmt) : Prop :=
  (∀ inner ∈ s.expressions, Q inner) ∧ ∀ inner ∈ s.statements, R inner

/-- Whether all expressions and statements inside a function have given properties. -/
def FunctionDef.All (definition : FunctionDef) : Prop :=
  (∀ inner ∈ definition.expressions, Q inner) ∧ ∀ s ∈ definition.statements, R s

/-- Whether all expressions and statements inside a program have given properties. -/
def Program.All (program : Program) : Prop :=
  (∀ inner ∈ program.expressions, Q inner) ∧ ∀ s ∈ program.statements, R s

variable {Q R}

/-! ## Lists -/

section Lists

variable {elements : List Expr} {properties : List (String × Expr)}
  {declarators : List (String × Option Expr)} {body : List Stmt} {e : Option Expr} {s : Option Stmt}

theorem all_elements :
    ((∀ inner ∈ expressionsOfAll elements, Q inner) ∧ ∀ s ∈ statementsOfAll elements, R s) ↔
      ∀ e ∈ elements, e.All Q R := by
  induction elements with
  | nil => simp [expressionsOfAll, statementsOfAll]
  | cons e rest ih =>
    rw [expressionsOfAll, statementsOfAll, List.forall_mem_append, List.forall_mem_append,
      List.forall_mem_cons, ← ih, Expr.All]
    tauto

theorem all_properties :
    ((∀ inner ∈ expressionsOfProperties properties, Q inner) ∧
        ∀ s ∈ statementsOfProperties properties, R s) ↔
      ∀ property ∈ properties, property.2.All Q R := by
  induction properties with
  | nil => simp [expressionsOfProperties, statementsOfProperties]
  | cons property rest ih =>
    rw [expressionsOfProperties, statementsOfProperties, List.forall_mem_append,
      List.forall_mem_append, List.forall_mem_cons, ← ih, Expr.All]
    tauto

theorem all_option :
    ((∀ inner ∈ expressionsOfOption e, Q inner) ∧ ∀ s ∈ statementsOfOption e, R s) ↔
      ∀ inner ∈ e, inner.All Q R := by
  cases e with
  | none => simp [expressionsOfOption, statementsOfOption]
  | some e => simp [expressionsOfOption, statementsOfOption, Expr.All]

theorem all_branch :
    ((∀ inner ∈ expressionsOfBranch s, Q inner) ∧ ∀ inner ∈ statementsOfBranch s, R inner) ↔
      ∀ inner ∈ s, inner.All Q R := by
  cases s with
  | none => simp [expressionsOfBranch, statementsOfBranch]
  | some s => simp [expressionsOfBranch, statementsOfBranch, Stmt.All]

theorem all_declarators :
    ((∀ inner ∈ expressionsOfDeclarators declarators, Q inner) ∧
        ∀ s ∈ statementsOfDeclarators declarators, R s) ↔
      ∀ declarator ∈ declarators, ∀ inner ∈ declarator.2, inner.All Q R := by
  induction declarators with
  | nil => simp [expressionsOfDeclarators, statementsOfDeclarators]
  | cons declarator rest ih =>
    rw [expressionsOfDeclarators, statementsOfDeclarators, List.forall_mem_append,
      List.forall_mem_append, List.forall_mem_cons, ← ih, ← all_option]
    tauto

theorem all_body :
    ((∀ inner ∈ expressionsOfBody body, Q inner) ∧ ∀ s ∈ statementsOfBody body, R s) ↔
      ∀ s ∈ body, s.All Q R := by
  induction body with
  | nil => simp [expressionsOfBody, statementsOfBody]
  | cons s rest ih =>
    rw [expressionsOfBody, statementsOfBody, List.forall_mem_append, List.forall_mem_append,
      List.forall_mem_cons, ← ih, Stmt.All]
    tauto

end Lists

/-! ## Expressions -/

section Expressions

variable {object key callee operand left right test consequent alternate target value : Expr}
  {name : String} {elements arguments : List Expr} {properties : List (String × Expr)}

theorem all_literal {value : Literal} : (Expr.literal value).All Q R ↔ Q (.literal value) := by
  simp [Expr.All, Expr.expressions, Expr.statements]

theorem all_identifier : (Expr.identifier name).All Q R ↔ Q (.identifier name) := by
  simp [Expr.All, Expr.expressions, Expr.statements]

theorem all_array :
    (Expr.array elements).All Q R ↔ Q (.array elements) ∧ ∀ e ∈ elements, e.All Q R := by
  rw [Expr.All, Expr.expressions, Expr.statements, List.forall_mem_cons, and_assoc, all_elements]

theorem all_object :
    (Expr.object properties).All Q R ↔
      Q (.object properties) ∧ ∀ property ∈ properties, property.2.All Q R := by
  rw [Expr.All, Expr.expressions, Expr.statements, List.forall_mem_cons, and_assoc, all_properties]

theorem all_member :
    (Expr.member object name).All Q R ↔ Q (.member object name) ∧ object.All Q R := by
  rw [Expr.All, Expr.expressions, Expr.statements, List.forall_mem_cons, and_assoc, Expr.All]

theorem all_index :
    (Expr.index object key).All Q R ↔ Q (.index object key) ∧ object.All Q R ∧ key.All Q R := by
  simp only [Expr.All, Expr.expressions, Expr.statements, List.forall_mem_cons,
    List.forall_mem_append]
  tauto

theorem all_call :
    (Expr.call callee arguments).All Q R ↔
      Q (.call callee arguments) ∧ callee.All Q R ∧ ∀ e ∈ arguments, e.All Q R := by
  rw [← all_elements]
  simp only [Expr.All, Expr.expressions, Expr.statements, List.forall_mem_cons,
    List.forall_mem_append]
  tauto

theorem all_unary {op : UnaryOp} :
    (Expr.unary op operand).All Q R ↔ Q (.unary op operand) ∧ operand.All Q R := by
  rw [Expr.All, Expr.expressions, Expr.statements, List.forall_mem_cons, and_assoc, Expr.All]

theorem all_binary {op : BinaryOp} :
    (Expr.binary op left right).All Q R ↔
      Q (.binary op left right) ∧ left.All Q R ∧ right.All Q R := by
  simp only [Expr.All, Expr.expressions, Expr.statements, List.forall_mem_cons,
    List.forall_mem_append]
  tauto

theorem all_logical {op : LogicalOp} :
    (Expr.logical op left right).All Q R ↔
      Q (.logical op left right) ∧ left.All Q R ∧ right.All Q R := by
  simp only [Expr.All, Expr.expressions, Expr.statements, List.forall_mem_cons,
    List.forall_mem_append]
  tauto

theorem all_conditional :
    (Expr.conditional test consequent alternate).All Q R ↔
      Q (.conditional test consequent alternate) ∧ test.All Q R ∧ consequent.All Q R ∧
        alternate.All Q R := by
  simp only [Expr.All, Expr.expressions, Expr.statements, List.forall_mem_cons,
    List.forall_mem_append]
  tauto

theorem all_assign {op : AssignOp} :
    (Expr.assign op target value).All Q R ↔
      Q (.assign op target value) ∧ target.All Q R ∧ value.All Q R := by
  simp only [Expr.All, Expr.expressions, Expr.statements, List.forall_mem_cons,
    List.forall_mem_append]
  tauto

theorem all_update {op : UpdateOp} {before : Bool} :
    (Expr.update op before target).All Q R ↔ Q (.update op before target) ∧ target.All Q R := by
  rw [Expr.All, Expr.expressions, Expr.statements, List.forall_mem_cons, and_assoc, Expr.All]

theorem all_function {definition : FunctionDef} :
    (Expr.function definition).All Q R ↔ Q (.function definition) ∧ definition.All Q R := by
  rw [Expr.All, Expr.expressions, Expr.statements, List.forall_mem_cons, and_assoc,
    FunctionDef.All]

theorem FunctionDef.all_mk {name : Option String} {parameters : List String} {body : List Stmt} :
    (FunctionDef.mk name parameters body).All Q R ↔ ∀ s ∈ body, s.All Q R :=
  all_body

end Expressions

/-! ## Statements -/

namespace Stmt

variable {value test : Expr} {declarators : List (String × Option Expr)}
  {result e step : Option Expr} {consequent body : Stmt}
  {alternate start : Option Stmt} {statements : List Stmt}
  {definition : FunctionDef}

theorem all_expression : (expression value).All Q R ↔ R (.expression value) ∧ value.All Q R := by
  rw [Stmt.All, Stmt.expressions, Stmt.statements, List.forall_mem_cons, Expr.All]
  tauto

theorem all_declaration :
    (declaration declarators).All Q R ↔ R (.declaration declarators) ∧
      ∀ declarator ∈ declarators, ∀ inner ∈ declarator.2, inner.All Q R := by
  rw [Stmt.All, Stmt.expressions, Stmt.statements, List.forall_mem_cons, ← all_declarators]
  tauto

theorem all_function :
    (function definition).All Q R ↔ R (.function definition) ∧ definition.All Q R := by
  rw [Stmt.All, Stmt.expressions, Stmt.statements, List.forall_mem_cons, FunctionDef.All]
  tauto

theorem all_ret : (ret result).All Q R ↔ R (.ret result) ∧ ∀ e ∈ result, e.All Q R := by
  rw [Stmt.All, Stmt.expressions, Stmt.statements, List.forall_mem_cons, ← all_option]
  tauto

theorem all_ifElse :
    (ifElse test consequent alternate).All Q R ↔ R (.ifElse test consequent alternate) ∧
      test.All Q R ∧ consequent.All Q R ∧ ∀ s ∈ alternate, s.All Q R := by
  rw [Stmt.All, Stmt.expressions, Stmt.statements, List.forall_mem_cons, ← all_branch]
  simp only [Expr.All, Stmt.All, List.forall_mem_append]
  tauto

theorem all_whileLoop :
    (whileLoop test body).All Q R ↔ R (.whileLoop test body) ∧ test.All Q R ∧ body.All Q R := by
  simp only [Stmt.All, Stmt.expressions, Stmt.statements, Expr.All, List.forall_mem_cons,
    List.forall_mem_append]
  tauto

theorem all_forLoop :
    (forLoop start e step body).All Q R ↔ R (.forLoop start e step body) ∧
      (∀ s ∈ start, s.All Q R) ∧ (∀ inner ∈ e, inner.All Q R) ∧ (∀ inner ∈ step, inner.All Q R) ∧
        body.All Q R := by
  rw [← all_branch, ← all_option, ← all_option]
  simp only [Stmt.All, Stmt.expressions, Stmt.statements, List.forall_mem_cons,
    List.forall_mem_append]
  tauto

theorem all_block :
    (block statements).All Q R ↔ R (.block statements) ∧ ∀ s ∈ statements, s.All Q R := by
  rw [Stmt.All, Stmt.expressions, Stmt.statements, List.forall_mem_cons, ← all_body]
  tauto

theorem all_breakLoop : breakLoop.All Q R ↔ R .breakLoop := by
  simp [Stmt.All, Stmt.expressions, Stmt.statements]

theorem all_continueLoop : continueLoop.All Q R ↔ R .continueLoop := by
  simp [Stmt.All, Stmt.expressions, Stmt.statements]

theorem all_empty : empty.All Q R ↔ R .empty := by
  simp [Stmt.All, Stmt.expressions, Stmt.statements]

end Stmt

theorem Program.all_iff {program : Program} :
    program.All Q R ↔ ∀ s ∈ program.body, s.All Q R :=
  all_body

end All

end Formulary
