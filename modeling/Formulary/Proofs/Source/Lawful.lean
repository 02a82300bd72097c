import Formulary.Proofs.Source.Depth
import Formulary.Proofs.Source.Nodes
import Formulary.Proofs.Source.Rescanning

/-!
# What programs are made of

* `IsName` : words that are scanned as identifiers;
* `Expr.Lawful`, `Stmt.Lawful` : nodes with parts as the grammar has them there;
* `Stmt.endsOpen` : statements that an `else` behind them would belong to;
* `Stmt.roots`, `rootSpare` : the expressions of a statement itself, and how much deeper than their
  links they may be.
-/

namespace Formulary

namespace Source

/-- Words that are scanned as identifiers. -/
structure IsName (name : String) : Prop where
  word : IsWord name
  token : nameToken name = .identifier name

theorem IsName.standalone {name : String} (h : IsName name) :
    (TokenKind.identifier name).Standalone :=
  h.token ▸ standalone_name h.word

/-- A token that is scanned as an identifier is a name. -/
theorem isName_of_standalone {name : String} (h : (TokenKind.identifier name).Standalone) :
    IsName name := by
  have hlexes : Lexes name.toList (.identifier name) [] := h.lexes
  obtain ⟨⟨c, after, htext, starts⟩, -, htoken, hrest⟩ := hlexes.of_identifier
  exact ⟨⟨⟨c, after, htext, starts⟩, List.dropWhile_eq_nil_iff.mp hrest.symm⟩, htoken⟩

theorem isWord_keyword (word : Keyword) : IsWord word.text := by
  constructor
  · cases word <;> exact ⟨_, _, rfl, by decide⟩
  · cases word <;> exact List.all_eq_true.mp (by decide)

end Source

open Source

/-! ## Nodes -/

/-- Whether the name and the parameters of a function, if it has any, are names. -/
def FunctionDef.Named (definition : FunctionDef) : Prop :=
  (∀ name ∈ definition.name, IsName name) ∧ ∀ name ∈ definition.parameters, IsName name

/-- Whether an expression, apart from what is inside it, is one that the grammar has: names are
names, and what is written to is a place. -/
def Expr.Lawful : Expr → Prop
  | .identifier name => IsName name
  | .member _ name => IsWord name
  | .assign _ target _ => target.isAssignable = true
  | .update _ _ target => target.isAssignable = true
  | .function definition => definition.Named
  | _ => True

/-- Whether a statement ends with a condition that lacks its second branch, so that an `else` behind
it would belong to it. -/
def Stmt.endsOpen : Stmt → Bool
  | .ifElse _ _ none => true
  | .ifElse _ _ (some alternate) => alternate.endsOpen
  | .whileLoop _ body => body.endsOpen
  | .forLoop _ _ _ body => body.endsOpen
  | _ => false

/-- Whether a `for` loop can begin with a statement. -/
def Stmt.isStart : Stmt → Bool
  | .expression _ => true
  | .declaration _ => true
  | _ => false

/-- The expressions of a statement that are in no other statement and no other expression. -/
def Stmt.roots : Stmt → List Expr
  | .expression value => [value]
  | .declaration declarators => declarators.filterMap Prod.snd
  | .ret value => value.toList
  | .ifElse test _ _ => [test]
  | .whileLoop test _ => [test]
  | .forLoop _ test step _ => test.toList ++ step.toList
  | _ => []

/-- How much deeper than its links an expression of a statement can be. -/
def rootSpare : Nat := 253

/-- Whether a statement, apart from what is inside it, is one that the grammar has: declarations
declare something, and an `else` belongs to the condition before it. -/
def Stmt.Lawful : Stmt → Prop
  | .declaration declarators =>
    declarators ≠ [] ∧ ∀ declarator ∈ declarators, IsName declarator.1
  | .function definition => definition.name.isSome = true ∧ definition.Named
  | .ifElse _ consequent (some _) => consequent.endsOpen = false
  | .forLoop (some start) _ _ _ => start.isStart = true
  | _ => True

/-- Whether the expressions of a statement are no deeper than a program can have them. -/
def Stmt.Shallow (s : Stmt) : Prop :=
  ∀ e ∈ s.roots, e.depth ≤ e.links + rootSpare

/-- Whether a program is made of what the grammar has. -/
def Program.Lawful (program : Program) : Prop :=
  program.All Expr.Lawful fun s => s.Lawful ∧ s.Shallow

end Formulary
