import Formulary.Proofs.Value.Growth
import Formulary.Value.Exchange

/-!
# What the functions of a store have in common

* `Store.Holds` : stores whose functions all have a property;
* `Store.Holds.newFunction`, `Store.Holds.hoist` : a store stays of this kind when the functions
  made in it have the property;
* `Store.Holds.ofJson`, `Store.Holds.declareMissing` : and when no functions are made.

Changes of containers and frames leave the functions alone by definition.
-/

namespace Formulary

/-- Whether all functions of a store have a property. What a reference without a function stands for
must have it too. -/
def Store.Holds (P : Callable → Prop) (store : Store) : Prop :=
  ∀ ref, P (store.callable ref)

namespace Store

variable {P : Callable → Prop} {store : Store}

theorem holds_of_functions (h : ∀ callable ∈ store.functions, P callable) (unused : P default) :
    store.Holds P := by
  intro ref
  unfold callable
  cases hget : store.functions[ref.index]? with
  | some callable => exact h callable (Array.mem_of_getElem? hget)
  | none => exact unused

namespace Holds

theorem newFunction (holds : store.Holds P) {callable : Callable} (h : P callable) :
    (store.newFunction callable).2.Holds P := by
  intro ref
  rw [callable_newFunction]
  split
  · exact h
  · exact holds ref

theorem apply (holds : store.Holds P) (edit : Edit) : (store.apply edit).Holds P := by
  cases edit <;> exact holds

/-! ## Names -/

theorem declareFunction (holds : store.Holds P) {ref : FrameRef} {definition : FunctionDef}
    (h : P (.script definition ref)) : (store.declareFunction ref definition).Holds P := by
  unfold Store.declareFunction
  split
  · exact holds.newFunction h
  · exact holds

theorem declareMissing (holds : store.Holds P) (ref : FrameRef) (name : String) :
    (store.declareMissing ref name).Holds P := by
  rw [declareMissing_eq]
  exact holds

theorem foldl {α : Type} {change : Store → α → Store} {items : List α} (holds : store.Holds P)
    (h : ∀ item ∈ items, ∀ store : Store, store.Holds P → (change store item).Holds P) :
    (items.foldl change store).Holds P := by
  induction items generalizing store with
  | nil => exact holds
  | cons item items ih =>
    obtain ⟨hfirst, hrest⟩ := List.forall_mem_cons.mp h
    exact ih (hfirst store holds) hrest

theorem declareArguments (holds : store.Holds P) (ref : FrameRef) (arguments : List Value)
    (parameters : List (String × Nat)) :
    (parameters.foldl (fun store parameter =>
      store.declare ref parameter.1 (argumentAt arguments parameter.2)) store).Holds P :=
  holds.foldl fun _ _ _ h => h

theorem hoistOne (holds : store.Holds P) {ref : FrameRef} {statement : Stmt}
    (h : ∀ definition, statement = .function definition → P (.script definition ref)) :
    (store.hoistOne ref statement).Holds P := by
  cases statement with
  | function definition => exact holds.declareFunction (h definition rfl)
  | _ => exact holds.foldl fun name _ _ holds => holds.declareMissing ref name

/-- The functions that a body declares must have the property. -/
theorem hoist (holds : store.Holds P) {ref : FrameRef} {body : List Stmt}
    (h : ∀ definition, .function definition ∈ body → P (.script definition ref)) :
    (store.hoist ref body).Holds P :=
  holds.foldl fun _ hmem _ holds => holds.hoistOne fun definition heq => h definition (heq ▸ hmem)

end Holds

/-! ## Values from JSON -/

mutual

/-- **No function is made from JSON.** -/
theorem Holds.ofJson {store : Store} (holds : store.Holds P) (json : Json) :
    (Value.ofJson json store).2.Holds P := by
  cases json with
  | array items => exact Holds.ofItems holds items
  | object members => exact Holds.ofMembers holds members
  | _ => exact holds

theorem Holds.ofItems {store : Store} (holds : store.Holds P) (items : List Json) :
    (Value.ofItems items store).2.Holds P := by
  cases items with
  | nil => exact holds
  | cons item items => exact Holds.ofItems (Holds.ofJson holds item) items

theorem Holds.ofMembers {store : Store} (holds : store.Holds P)
    (members : List (String × Json)) : (Value.ofMembers members store).2.Holds P := by
  cases members with
  | nil => exact holds
  | cons member members => exact Holds.ofMembers (Holds.ofJson holds member.2) members

end

end Store

end Formulary
