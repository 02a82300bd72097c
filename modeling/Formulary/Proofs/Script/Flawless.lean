import Formulary.Proofs.Source.Parts
import Formulary.Proofs.Value.Held
import Formulary.Script.Evaluation
import Mathlib.Data.Set.Basic

/-!
# Scripts without flaws

* `Flaw` : what can be wrong with a script by its shape alone, and `Halt.flaw?`, the failures that
  come of it;
* `Stmt.jumps` : the jumps with which a statement may end;
* `Stmt.Flawless`, `FunctionDef.Flawless`, `Program.Flawless` : scripts without flaws of some kinds;
* `Expr.Fits` : expressions without them that are evaluated inside a number of others.
-/

namespace Formulary

/-- What can be wrong with a script by its shape alone. -/
inductive Flaw where
  /-- Too many expressions inside one another. -/
  | depth
  /-- A write to an expression that names no place. -/
  | target
  /-- A jump with nothing around it to leave. -/
  | jump
  deriving DecidableEq, Repr

/-- The flaw that an error comes of. -/
def EvalError.flaw? : EvalError → Option Flaw
  | nesting _ => some .depth
  | invalidTarget => some .target
  | illegalJump _ => some .jump
  | _ => none

/-- The flaw that ends a run. -/
def Halt.flaw? : Halt → Option Flaw
  | error e => e.flaw?
  | outOfFuel => none

/-- Whether a run does not end because of some flaws. -/
def Halt.Spares (flaws : Set Flaw) (halt : Halt) : Prop :=
  ∀ flaw ∈ halt.flaw?, flaw ∉ flaws

/-! ## Jumps -/

/-- The jump that a statement has ended with. -/
def Flow.jump? : Flow → Option Jump
  | normal _ => none
  | ret _ => some .ret
  | breakLoop => some .breakLoop
  | continueLoop => some .continueLoop

mutual

/-- The jumps with which a statement may end. Those inside a loop leave the loop, `return` apart. -/
def Stmt.jumps : Stmt → List Jump
  | .ret _ => [.ret]
  | .ifElse _ consequent alternate => consequent.jumps ++ jumpsOfBranch alternate
  | .whileLoop _ body => body.jumps.filter (· = .ret)
  | .forLoop _ _ _ body => body.jumps.filter (· = .ret)
  | .block body => jumpsOfBody body
  | .breakLoop => [.breakLoop]
  | .continueLoop => [.continueLoop]
  | .expression _ => []
  | .declaration _ => []
  | .function _ => []
  | .empty => []

/-- The jumps with which an optional statement may end. -/
def jumpsOfBranch : Option Stmt → List Jump
  | some statement => statement.jumps
  | none => []

/-- The jumps with which statements may end. -/
def jumpsOfBody : List Stmt → List Jump
  | [] => []
  | statement :: rest => statement.jumps ++ jumpsOfBody rest

end

attribute [simp] Stmt.jumps

/-- Whether a function is left by `return` only. -/
def FunctionDef.Contained (definition : FunctionDef) : Prop :=
  ∀ jump ∈ jumpsOfBody definition.body, jump = .ret

/-! ## Scripts -/

section Scripts

variable (flaws : Set Flaw)

/-- Whether an expression, apart from what is inside it, lacks some flaws. -/
def Expr.Lacks : Expr → Prop
  | .assign _ target _ => .target ∈ flaws → target.isAssignable = true
  | .update _ _ target => .target ∈ flaws → target.isAssignable = true
  | .function definition => .jump ∈ flaws → definition.Contained
  | _ => True

/-- Whether a statement, apart from what is inside it, lacks some flaws. -/
structure Stmt.Lacks (s : Stmt) : Prop where
  depth : .depth ∈ flaws → ∀ e ∈ s.roots, e.depth ≤ Run.nestingLimit
  jump : .jump ∈ flaws → ∀ definition, s = .function definition → definition.Contained

/-- Whether a statement and all inside it lack some flaws. -/
abbrev Stmt.Flawless (s : Stmt) : Prop :=
  s.All (Expr.Lacks flaws) (Stmt.Lacks flaws)

/-- Whether a function lacks some flaws. -/
structure FunctionDef.Flawless (definition : FunctionDef) : Prop where
  all : definition.All (Expr.Lacks flaws) (Stmt.Lacks flaws)
  jump : .jump ∈ flaws → definition.Contained

/-- Whether a program lacks some flaws. -/
structure Program.Flawless (program : Program) : Prop where
  all : program.All (Expr.Lacks flaws) (Stmt.Lacks flaws)
  jump : .jump ∈ flaws → jumpsOfBody program.body = []

/-- Whether what a function stands for lacks some flaws. -/
def Callable.Flawless : Callable → Prop
  | script definition _ => definition.Flawless flaws
  | intrinsic _ => True
  | builtin _ _ => True

/-- Whether an expression that is evaluated inside `level` others lacks some flaws. -/
structure Expr.Fits (level : Nat) (e : Expr) : Prop where
  all : e.All (Expr.Lacks flaws) (Stmt.Lacks flaws)
  depth : .depth ∈ flaws → level + e.depth ≤ Run.nestingLimit

end Scripts

variable {flaws : Set Flaw}

theorem FunctionDef.Flawless.body {definition : FunctionDef} (h : definition.Flawless flaws) :
    ∀ s ∈ definition.body, s.Flawless flaws := by
  cases definition with
  | mk name parameters body => exact all_mk.mp h.all

namespace Expr.Fits

variable {level : Nat} {e : Expr}

theorem mono {level' : Nat} (h : e.Fits flaws level) (hlevel : level' ≤ level) :
    e.Fits flaws level' :=
  ⟨h.all, fun hdepth => Nat.le_trans (Nat.add_le_add_right hlevel _) (h.depth hdepth)⟩

theorem parts (h : e.Fits flaws level) : ∀ part ∈ e.parts, part.Fits flaws (level + 1) := by
  refine fun part hpart => ⟨h.all.parts part hpart, fun hdepth => ?_⟩
  have := h.depth hdepth
  have := depth_part hpart
  omega

/-- The parts of a place are evaluated inside as many expressions as the place. -/
theorem inner (h : e.Fits flaws level) : ∀ part ∈ e.parts, part.Fits flaws level :=
  fun part hpart => (h.parts part hpart).mono (Nat.le_succ level)

theorem function {definition : FunctionDef} (h : (Expr.function definition).Fits flaws level) :
    definition.Flawless flaws :=
  ⟨(all_function.mp h.all).2, (all_function.mp h.all).1⟩

end Expr.Fits

namespace Stmt.All

variable {s : Stmt}

/-- The expressions of a statement itself are evaluated inside no others. -/
theorem fits (h : s.Flawless flaws) : ∀ e ∈ s.roots, e.Fits flaws 0 := by
  refine fun e he => ⟨h.roots e he, fun hdepth => ?_⟩
  rw [Nat.zero_add]
  exact h.node.depth hdepth e he

theorem function {definition : FunctionDef} (h : (Stmt.function definition).Flawless flaws) :
    definition.Flawless flaws :=
  ⟨(Stmt.all_function.mp h).2, fun hjump => h.node.jump hjump definition rfl⟩

end Stmt.All

end Formulary
