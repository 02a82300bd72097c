import Formulary.Source.Program
import Formulary.Value.Store

/-!
# Names declared before a body runs

* `Stmt.declaredNames` : the variables that a statement declares, outside inner functions;
* `Store.hoist` : a frame with the names that a list of statements declares.
-/

namespace Formulary

mutual

/-- The names of the variables that a statement declares, at any depth outside inner functions. -/
def Stmt.declaredNames : Stmt → List String
  | .declaration declarators => declarators.map Prod.fst
  | .ifElse _ consequent alternate =>
    consequent.declaredNames ++ match alternate with
      | some alternate => alternate.declaredNames
      | none => []
  | .whileLoop _ body => body.declaredNames
  | .forLoop start _ _ body =>
    (match start with
      | some start => start.declaredNames
      | none => []) ++ body.declaredNames
  | .block body => declaredNamesOf body
  | _ => []

/-- The names of the variables that statements declare. -/
def declaredNamesOf : List Stmt → List String
  | [] => []
  | statement :: rest => statement.declaredNames ++ declaredNamesOf rest

end

namespace Store

/-- Declares a function in a frame under its name; a function without one is not declared. -/
def declareFunction (store : Store) (frame : FrameRef) (definition : FunctionDef) : Store :=
  match definition.name with
  | some name =>
    let (value, store) := store.newFunction (.script definition frame)
    store.declare frame name value
  | none => store

/-- Declares what one statement of a body declares: its own function, or undefined under the names
of its variables that the frame does not have. -/
def hoistOne (store : Store) (frame : FrameRef) : Stmt → Store
  | .function definition => store.declareFunction frame definition
  | other => other.declaredNames.foldl (fun store name => store.declareMissing frame name) store

/-- Declares what the statements of a body declare. -/
def hoist (store : Store) (frame : FrameRef) (body : List Stmt) : Store :=
  body.foldl (fun store statement => store.hoistOne frame statement) store

end Store

end Formulary
