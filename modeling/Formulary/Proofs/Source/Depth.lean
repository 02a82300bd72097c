import Formulary.Source.Program

/-!
# How deep expressions are

* `Expr.height` : the greatest weight of a path into an expression;
* `Expr.depth`, `Expr.links` : the most expressions inside one another, and the most operators
  between operands, members, indexes and calls among them.

A function is the end of a path: its body is evaluated in a call of its own.
-/

namespace Formulary

mutual

/-- The greatest weight of a path from an expression to one inside it, both included. -/
def Expr.height (weight : Expr → Nat) : Expr → Nat
  | .literal value => weight (.literal value)
  | .identifier name => weight (.identifier name)
  | .array elements => weight (.array elements) + heightOfAll weight elements
  | .object properties => weight (.object properties) + heightOfProperties weight properties
  | .member object name => weight (.member object name) + object.height weight
  | .index object key =>
    weight (.index object key) + max (object.height weight) (key.height weight)
  | .call callee arguments =>
    weight (.call callee arguments) + max (callee.height weight) (heightOfAll weight arguments)
  | .unary op operand => weight (.unary op operand) + operand.height weight
  | .binary op left right =>
    weight (.binary op left right) + max (left.height weight) (right.height weight)
  | .logical op left right =>
    weight (.logical op left right) + max (left.height weight) (right.height weight)
  | .conditional test consequent alternate =>
    weight (.conditional test consequent alternate) +
      max (test.height weight) (max (consequent.height weight) (alternate.height weight))
  | .assign op target value =>
    weight (.assign op target value) + max (target.height weight) (value.height weight)
  | .update op before target => weight (.update op before target) + target.height weight
  | .function definition => weight (.function definition)

/-- The greatest weight of a path into one of the expressions of a list. -/
def heightOfAll (weight : Expr → Nat) : List Expr → Nat
  | [] => 0
  | e :: rest => max (e.height weight) (heightOfAll weight rest)

/-- The greatest weight of a path into the value of a property. -/
def heightOfProperties (weight : Expr → Nat) : List (String × Expr) → Nat
  | [] => 0
  | (_, value) :: rest => max (value.height weight) (heightOfProperties weight rest)

end

attribute [simp] Expr.height

/-- One for the links of chains: operators between operands, members, indexes and calls. -/
def Expr.link : Expr → Nat
  | .member _ _ => 1
  | .index _ _ => 1
  | .call _ _ => 1
  | .binary _ _ _ => 1
  | .logical _ _ _ => 1
  | _ => 0

attribute [simp] Expr.link

/-- How many expressions are inside one another, at most. -/
def Expr.depth (e : Expr) : Nat :=
  e.height fun _ => 1

/-- How many links of chains are inside one another, at most. -/
def Expr.links (e : Expr) : Nat :=
  e.height Expr.link

section Lists

variable {weight weight' : Expr → Nat} {elements : List Expr} {properties : List (String × Expr)}

theorem height_le_heightOfAll {e : Expr} (h : e ∈ elements) :
    e.height weight ≤ heightOfAll weight elements := by
  induction elements with
  | nil => cases h
  | cons first rest ih =>
    unfold heightOfAll
    rcases List.mem_cons.mp h with rfl | hmem
    · exact Nat.le_max_left _ _
    · exact Nat.le_trans (ih hmem) (Nat.le_max_right _ _)

theorem heightOfProperties_eq :
    heightOfProperties weight properties = heightOfAll weight (properties.map Prod.snd) := by
  induction properties with
  | nil => rfl
  | cons property rest ih =>
    rw [heightOfProperties, ih]
    rfl

/-- Paths into a list are no heavier than some other paths into it, up to what single expressions
spare. -/
theorem heightOfAll_le {spare : Nat}
    (h : ∀ e ∈ elements, e.height weight ≤ e.height weight' + spare) :
    heightOfAll weight elements ≤ heightOfAll weight' elements + spare := by
  induction elements with
  | nil => exact Nat.zero_le _
  | cons e rest ih =>
    obtain ⟨he, hrest⟩ := List.forall_mem_cons.mp h
    have := ih hrest
    unfold heightOfAll
    omega

end Lists

end Formulary
