import Formulary.Proofs.Source.Lawful

/-!
# What is directly inside expressions and statements

* `Expr.parts`, `Stmt.parts` : the expressions directly inside an expression, and the statements
  directly inside a statement;
* `Expr.depth_part` : a part is not as deep as the whole;
* `Expr.All.parts`, `Stmt.All.parts`, `Stmt.All.roots` : what all nodes have, the nodes of the
  parts have.
-/

namespace Formulary

/-- The expressions directly inside an expression. Those of a function are inside its body. -/
def Expr.parts : Expr → List Expr
  | .array elements => elements
  | .object properties => properties.map Prod.snd
  | .member target _ => [target]
  | .index target key => [target, key]
  | .call callee arguments => callee :: arguments
  | .unary _ operand => [operand]
  | .binary _ left right => [left, right]
  | .logical _ left right => [left, right]
  | .conditional test consequent alternate => [test, consequent, alternate]
  | .assign _ target value => [target, value]
  | .update _ _ target => [target]
  | .literal _ => []
  | .identifier _ => []
  | .function _ => []

/-- The statements directly inside a statement. Those of a function are inside its body. -/
def Stmt.parts : Stmt → List Stmt
  | .ifElse _ consequent alternate => consequent :: alternate.toList
  | .whileLoop _ body => [body]
  | .forLoop start _ _ body => body :: start.toList
  | .block body => body
  | _ => []

/-- A part of an expression is not as deep as the expression. -/
theorem Expr.depth_part {e part : Expr} (h : part ∈ e.parts) : part.depth < e.depth := by
  unfold depth
  cases e with
  | array elements =>
    have : part.height _ ≤ heightOfAll (fun _ => 1) elements := height_le_heightOfAll h
    rw [height]
    omega
  | object properties =>
    have : part.height _ ≤ heightOfAll (fun _ => 1) (properties.map Prod.snd) :=
      height_le_heightOfAll h
    rw [height, heightOfProperties_eq]
    omega
  | call callee arguments =>
    rw [height]
    obtain rfl | hmem := List.mem_cons.mp (show part ∈ callee :: arguments from h)
    · omega
    · have : part.height _ ≤ heightOfAll (fun _ => 1) arguments := height_le_heightOfAll hmem
      omega
  | literal value => cases h
  | identifier name => cases h
  | function definition => cases h
  | _ =>
    simp only [parts, List.mem_cons, List.not_mem_nil, or_false] at h
    grind [height]

theorem Expr.depth_pos (e : Expr) : 0 < e.depth := by
  unfold depth
  cases e <;> simp only [height] <;> omega

section All

variable {Q : Expr → Prop} {R : Stmt → Prop}

theorem Expr.All.node {e : Expr} (h : e.All Q R) : Q e := by
  refine h.1 e ?_
  cases e <;> exact List.mem_cons_self

theorem Stmt.All.node {s : Stmt} (h : s.All Q R) : R s := by
  refine h.2 s ?_
  cases s <;> exact List.mem_cons_self

theorem Expr.All.parts {e : Expr} (h : e.All Q R) : ∀ part ∈ e.parts, part.All Q R := by
  cases e with
  | array elements => exact (all_array.mp h).2
  | object properties => exact List.forall_mem_map.mpr (all_object.mp h).2
  | member target name => simpa [Expr.parts] using (all_member.mp h).2
  | index target key => simpa [Expr.parts] using (all_index.mp h).2
  | call callee arguments => exact List.forall_mem_cons.mpr (all_call.mp h).2
  | unary op operand => simpa [Expr.parts] using (all_unary.mp h).2
  | binary op left right => simpa [Expr.parts] using (all_binary.mp h).2
  | logical op left right => simpa [Expr.parts] using (all_logical.mp h).2
  | conditional test consequent alternate =>
    simpa [Expr.parts] using (all_conditional.mp h).2
  | assign op target value => simpa [Expr.parts] using (all_assign.mp h).2
  | update op before target => simpa [Expr.parts] using (all_update.mp h).2
  | literal value => exact List.forall_mem_nil _
  | identifier name => exact List.forall_mem_nil _
  | function definition => exact List.forall_mem_nil _

theorem Stmt.All.parts {s : Stmt} (h : s.All Q R) : ∀ part ∈ s.parts, part.All Q R := by
  cases s with
  | ifElse test consequent alternate =>
    obtain ⟨-, -, hconsequent, halternate⟩ := all_ifElse.mp h
    exact List.forall_mem_cons.mpr
      ⟨hconsequent, fun s hs => halternate s (Option.mem_toList.mp hs)⟩
  | whileLoop test body => exact List.forall_mem_singleton.mpr (all_whileLoop.mp h).2.2
  | forLoop start test step body =>
    obtain ⟨-, hstart, -, -, hbody⟩ := all_forLoop.mp h
    exact List.forall_mem_cons.mpr ⟨hbody, fun s hs => hstart s (Option.mem_toList.mp hs)⟩
  | block body => exact (all_block.mp h).2
  | _ => exact List.forall_mem_nil _

/-- The expressions of a statement itself have what all expressions inside it have. -/
theorem Stmt.All.roots {s : Stmt} (h : s.All Q R) : ∀ e ∈ s.roots, e.All Q R := by
  cases s with
  | expression value => exact List.forall_mem_singleton.mpr (all_expression.mp h).2
  | declaration declarators =>
    intro e he
    obtain ⟨declarator, hmem, hinitial⟩ := List.mem_filterMap.mp he
    exact (all_declaration.mp h).2 declarator hmem e hinitial
  | ret value => exact fun e he => (all_ret.mp h).2 e (Option.mem_toList.mp he)
  | ifElse test consequent alternate =>
    exact List.forall_mem_singleton.mpr (all_ifElse.mp h).2.1
  | whileLoop test body => exact List.forall_mem_singleton.mpr (all_whileLoop.mp h).2.1
  | forLoop start test step body =>
    obtain ⟨-, -, htest, hstep, -⟩ := all_forLoop.mp h
    exact List.forall_mem_append.mpr ⟨fun e he => htest e (Option.mem_toList.mp he),
      fun e he => hstep e (Option.mem_toList.mp he)⟩
  | _ => exact List.forall_mem_nil _

end All

end Formulary
