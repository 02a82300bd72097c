import Formulary.Proofs.Source.Parts

/-!
# The functions of a program

* `Program.definitions` : all functions in a program, at any depth;
* `Expr.all_of_parts`, `Stmt.all_of_parts` : what all nodes have, a node and the nodes of its parts
  have;
* `Expr.All.deep`, `Stmt.All.deep` : what is inside something inside is inside;
* `Program.All.definition` : what all nodes of a program have, all nodes of its functions have.
-/

namespace Formulary

/-- The function that an expression is. -/
def Expr.function? : Expr → Option FunctionDef
  | .function definition => some definition
  | _ => none

/-- The function that a statement declares. -/
def Stmt.function? : Stmt → Option FunctionDef
  | .function definition => some definition
  | _ => none

/-- The functions in a program, at any depth. -/
def Program.definitions (program : Program) : List FunctionDef :=
  program.expressions.filterMap Expr.function? ++ program.statements.filterMap Stmt.function?

theorem Expr.eq_of_function? {e : Expr} {definition : FunctionDef}
    (h : e.function? = some definition) : e = .function definition := by
  cases e with
  | function other => rw [Option.some.inj h]
  | _ => cases h

theorem Stmt.eq_of_function? {s : Stmt} {definition : FunctionDef}
    (h : s.function? = some definition) : s = .function definition := by
  cases s with
  | function other => rw [Option.some.inj h]
  | _ => cases h

theorem Program.mem_definitions {program : Program} {definition : FunctionDef} :
    definition ∈ program.definitions ↔
      .function definition ∈ program.expressions ∨ .function definition ∈ program.statements := by
  unfold definitions
  rw [List.mem_append, List.mem_filterMap, List.mem_filterMap]
  constructor
  · rintro (⟨e, he, h⟩ | ⟨s, hs, h⟩)
    · exact .inl (Expr.eq_of_function? h ▸ he)
    · exact .inr (Stmt.eq_of_function? h ▸ hs)
  · rintro (h | h)
    · exact .inl ⟨_, h, rfl⟩
    · exact .inr ⟨_, h, rfl⟩

/-! ## Parts are smaller -/

theorem Expr.sizeOf_part {e part : Expr} (h : part ∈ e.parts) : sizeOf part < sizeOf e := by
  cases e with
  | array elements =>
    have := List.sizeOf_lt_of_mem (show part ∈ elements from h)
    simp only [array.sizeOf_spec]
    omega
  | object properties =>
    obtain ⟨⟨key, value⟩, hmem, rfl⟩ := List.mem_map.mp h
    have := List.sizeOf_lt_of_mem hmem
    simp only [object.sizeOf_spec, Prod.mk.sizeOf_spec] at this ⊢
    omega
  | call callee arguments =>
    simp only [call.sizeOf_spec]
    obtain rfl | hmem := List.mem_cons.mp (show part ∈ callee :: arguments from h)
    · omega
    · have := List.sizeOf_lt_of_mem hmem
      omega
  | literal value => cases h
  | identifier name => cases h
  | function definition => cases h
  | _ =>
    simp only [parts, List.mem_cons, List.not_mem_nil, or_false] at h
    grind

theorem Stmt.sizeOf_root {s : Stmt} {e : Expr} (h : e ∈ s.roots) : sizeOf e < sizeOf s := by
  cases s with
  | expression value =>
    rw [List.mem_singleton.mp h, expression.sizeOf_spec]
    omega
  | declaration declarators =>
    obtain ⟨⟨name, initial⟩, hmem, hinitial⟩ := List.mem_filterMap.mp h
    cases hinitial
    have := List.sizeOf_lt_of_mem hmem
    simp only [declaration.sizeOf_spec, Prod.mk.sizeOf_spec, Option.some.sizeOf_spec] at this ⊢
    omega
  | ret value =>
    rw [Option.mem_toList.mp h, ret.sizeOf_spec, Option.some.sizeOf_spec]
    omega
  | ifElse test consequent alternate =>
    rw [List.mem_singleton.mp h, ifElse.sizeOf_spec]
    omega
  | whileLoop test body =>
    rw [List.mem_singleton.mp h, whileLoop.sizeOf_spec]
    omega
  | forLoop start test step body =>
    rw [forLoop.sizeOf_spec]
    rcases List.mem_append.mp h with htest | hstep
    · rw [Option.mem_toList.mp htest, Option.some.sizeOf_spec]
      omega
    · rw [Option.mem_toList.mp hstep, Option.some.sizeOf_spec]
      omega
  | _ => cases h

theorem Stmt.sizeOf_part {s part : Stmt} (h : part ∈ s.parts) : sizeOf part < sizeOf s := by
  cases s with
  | ifElse test consequent alternate =>
    rw [ifElse.sizeOf_spec]
    rcases List.mem_cons.mp h with rfl | halternate
    · omega
    · rw [Option.mem_toList.mp halternate, Option.some.sizeOf_spec]
      omega
  | whileLoop test body =>
    rw [List.mem_singleton.mp h, whileLoop.sizeOf_spec]
    omega
  | forLoop start test step body =>
    rw [forLoop.sizeOf_spec]
    rcases List.mem_cons.mp h with rfl | hstart
    · omega
    · rw [Option.mem_toList.mp hstart, Option.some.sizeOf_spec]
      omega
  | block body =>
    have := List.sizeOf_lt_of_mem (show part ∈ body from h)
    rw [block.sizeOf_spec]
    omega
  | _ => cases h

theorem FunctionDef.sizeOf_body {definition : FunctionDef} {s : Stmt} (h : s ∈ definition.body) :
    sizeOf s < sizeOf definition := by
  cases definition with
  | mk name parameters body =>
    have := List.sizeOf_lt_of_mem (show s ∈ body from h)
    rw [mk.sizeOf_spec]
    omega

/-! ## What is inside something inside -/

section All

variable {Q : Expr → Prop} {R : Stmt → Prop}

theorem FunctionDef.all_iff {definition : FunctionDef} :
    definition.All Q R ↔ ∀ s ∈ definition.body, s.All Q R := by
  cases definition with
  | mk name parameters body => exact all_mk

/-- All nodes of an expression have a property when it and the nodes of its parts have it. -/
theorem Expr.all_of_parts {e : Expr} (node : Q e) (hparts : ∀ part ∈ e.parts, part.All Q R)
    (hfunction : ∀ definition, e = .function definition → definition.All Q R) : e.All Q R := by
  cases e with
  | literal value => exact all_literal.mpr node
  | identifier name => exact all_identifier.mpr node
  | array elements => exact all_array.mpr ⟨node, hparts⟩
  | object properties => exact all_object.mpr ⟨node, List.forall_mem_map.mp hparts⟩
  | member target name => exact all_member.mpr ⟨node, List.forall_mem_singleton.mp hparts⟩
  | index target key => exact all_index.mpr ⟨node, by simpa [parts] using hparts⟩
  | call callee arguments => exact all_call.mpr ⟨node, List.forall_mem_cons.mp hparts⟩
  | unary op operand => exact all_unary.mpr ⟨node, List.forall_mem_singleton.mp hparts⟩
  | binary op left right => exact all_binary.mpr ⟨node, by simpa [parts] using hparts⟩
  | logical op left right => exact all_logical.mpr ⟨node, by simpa [parts] using hparts⟩
  | conditional test consequent alternate =>
    exact all_conditional.mpr ⟨node, by simpa [parts] using hparts⟩
  | assign op target value => exact all_assign.mpr ⟨node, by simpa [parts] using hparts⟩
  | update op before target => exact all_update.mpr ⟨node, List.forall_mem_singleton.mp hparts⟩
  | function definition => exact all_function.mpr ⟨node, hfunction definition rfl⟩

/-- All nodes of a statement have a property when it and the nodes of its parts have it. -/
theorem Stmt.all_of_parts {s : Stmt} (node : R s) (hroots : ∀ e ∈ s.roots, e.All Q R)
    (hparts : ∀ part ∈ s.parts, part.All Q R)
    (hfunction : ∀ definition, s = .function definition → definition.All Q R) : s.All Q R := by
  cases s with
  | expression value => exact all_expression.mpr ⟨node, List.forall_mem_singleton.mp hroots⟩
  | declaration declarators =>
    exact all_declaration.mpr ⟨node, fun declarator hmem initial hinitial =>
      hroots initial (List.mem_filterMap.mpr ⟨declarator, hmem, hinitial⟩)⟩
  | function definition => exact all_function.mpr ⟨node, hfunction definition rfl⟩
  | ret value => exact all_ret.mpr ⟨node, fun e he => hroots e (Option.mem_toList.mpr he)⟩
  | ifElse test consequent alternate =>
    obtain ⟨hconsequent, halternate⟩ := List.forall_mem_cons.mp hparts
    exact all_ifElse.mpr ⟨node, List.forall_mem_singleton.mp hroots, hconsequent,
      fun s hs => halternate s (Option.mem_toList.mpr hs)⟩
  | whileLoop test body =>
    exact all_whileLoop.mpr ⟨node, List.forall_mem_singleton.mp hroots,
      List.forall_mem_singleton.mp hparts⟩
  | forLoop start test step body =>
    obtain ⟨hbody, hstart⟩ := List.forall_mem_cons.mp hparts
    obtain ⟨htest, hstep⟩ := List.forall_mem_append.mp hroots
    exact all_forLoop.mpr ⟨node, fun s hs => hstart s (Option.mem_toList.mpr hs),
      fun e he => htest e (Option.mem_toList.mpr he),
      fun e he => hstep e (Option.mem_toList.mpr he), hbody⟩
  | block body => exact all_block.mpr ⟨node, hparts⟩
  | breakLoop => exact all_breakLoop.mpr node
  | continueLoop => exact all_continueLoop.mpr node
  | empty => exact all_empty.mpr node

mutual

/-- **What is inside something inside an expression is inside it.** -/
theorem Expr.All.deep {e : Expr} (h : e.All Q R) : e.All (Expr.All Q R) (Stmt.All Q R) := by
  refine Expr.all_of_parts h (fun part hpart => ?_) fun definition heq => ?_
  · have := Expr.sizeOf_part hpart
    exact Expr.All.deep (h.parts part hpart)
  · subst heq
    exact FunctionDef.All.deep (all_function.mp h).2
termination_by sizeOf e

theorem Stmt.All.deep {s : Stmt} (h : s.All Q R) : s.All (Expr.All Q R) (Stmt.All Q R) := by
  refine Stmt.all_of_parts h (fun e he => ?_) (fun part hpart => ?_) fun definition heq => ?_
  · have := Stmt.sizeOf_root he
    exact Expr.All.deep (h.roots e he)
  · have := Stmt.sizeOf_part hpart
    exact Stmt.All.deep (h.parts part hpart)
  · subst heq
    exact FunctionDef.All.deep (Stmt.all_function.mp h).2
termination_by sizeOf s

theorem FunctionDef.All.deep {definition : FunctionDef} (h : definition.All Q R) :
    definition.All (Expr.All Q R) (Stmt.All Q R) := by
  refine FunctionDef.all_iff.mpr fun s hs => ?_
  have := FunctionDef.sizeOf_body hs
  exact Stmt.All.deep (FunctionDef.all_iff.mp h s hs)
termination_by sizeOf definition

end

/-- **What all nodes of a program have, all nodes of its functions have.** -/
theorem Program.All.definition {program : Program} (h : program.All Q R) {definition : FunctionDef}
    (hmem : definition ∈ program.definitions) : definition.All Q R := by
  have hdeep : program.All (Expr.All Q R) (Stmt.All Q R) :=
    Program.all_iff.mpr fun s hs => (Program.all_iff.mp h s hs).deep
  rcases Program.mem_definitions.mp hmem with he | hs
  · exact (all_function.mp (hdeep.1 _ he)).2
  · exact (Stmt.all_function.mp (hdeep.2 _ hs)).2

end All

end Formulary
