import Formulary.Config
import Formulary.Context.Basic
import Formulary.Function.Reference

/-!
# Formula engines

* `Formula` : settings, functions and a script that every context begins with;
* `Formula.inject`, `Formula.prepare` : loading a function with all that it refers to, and all that
  a text refers to;
* `Formula.begin`, `Formula.beginFor` : a new context, and one prepared for a text;
* `Formula.evaluate` : a script with variables in a context of its own.
-/

namespace Formulary

/-- Settings, functions and a script that every context begins with. -/
structure Formula where
  config : Config
  registry : Registry
  start : Option Program

namespace Formula

/-- The engine with the standard functions, a store of its own and the given further ones. -/
def ofParts (config : Config) (providers : List Provider) (stores : List BodyStore)
    (start : Option Program) : Formula :=
  let registry := providers.foldl Registry.addProvider (Registry.empty.addProvider (.standard 0))
  ⟨config, stores.foldl Registry.addStore (registry.addStore ⟨0, .empty⟩), start⟩

/-- The engine with the standard functions and a store of its own. -/
def ofConfig (config : Config) : Formula :=
  ofParts config [] [] none

/-- A cache for the programs of the contexts. -/
def newCache (formula : Formula) : ProgramCache :=
  .empty formula.config.cacheSize

/-- The bounds on scripts, with the given fuel for each. -/
def limits (formula : Formula) (fuel : Nat) : Limits :=
  ⟨formula.config.callDepth, fuel⟩

/-- Writes the text of a custom function; answers whether there was one before. -/
def register (formula : Formula) (name body : String) : Bool × Formula :=
  let (replaced, registry) := formula.registry.register name body
  (replaced, { formula with registry := registry })

/-- Writes the texts of custom functions. -/
def registerAll (formula : Formula) (functions : List (String × String)) : Formula :=
  functions.foldl (fun formula entry => (formula.register entry.1 entry.2).2) formula

/-! ## Loading functions -/

/-- What is done about a reference that nothing serves. -/
def missing (policy : UnresolvedPolicy) (name : String) : Work Unit :=
  match policy with
  | .ignore => return ()
  | .warn => Work.write ⟨.warn, "function " ++ name ++ " is neither built-in nor registered"⟩
  | .strict => throw (.unresolvedFunction name)

/-- Loads a built-in function. -/
def loadBuiltin (name : String) (builtin : Builtin) : Work Unit := do
  Work.mark name .loading
  Work.install name builtin
  Work.mark name .loaded

/-- Loads a custom function after the functions that its text refers to, itself excepted. -/
def loadBody (run : String → Work Value) (inject : String → Work Unit) (name body : String) :
    Work Unit := do
  Work.mark name .loading
  ((references body).filter (· != name)).forM inject
  Work.mark name .loaded
  let _ ← run body
  return ()

/-- Loads a function unless it is loaded or being loaded. Each level loads a custom function that
the levels around it do not load, so that `depth` need not exceed their number by more than
one. -/
def injectWithin (formula : Formula) (fuel : Nat) : Nat → String → Work Unit
  | 0, _ => throw .outOfFuel
  | depth + 1, name => do
    match (← get).ledger.state name with
    | .loaded => return ()
    | .loading => return ()
    | .notLoaded =>
      match formula.registry.builtin? name, formula.registry.body? name with
      | some builtin, _ => loadBuiltin name builtin
      | none, some body =>
        loadBody (Work.run (formula.limits fuel)) (injectWithin formula fuel depth) name body
      | none, none => missing formula.config.unresolved name

/-- Loads a function with all that it refers to. -/
def inject (formula : Formula) (fuel : Nat) (name : String) : Work Unit :=
  formula.injectWithin fuel (formula.registry.customNames.length + 1) name

/-- Loads all functions that a text refers to. -/
def prepare (formula : Formula) (fuel : Nat) (text : String) : Work Unit :=
  (references text).forM (formula.inject fuel)

/-! ## New contexts -/

/-- Leaves the context for a new one, which keeps the programs and the messages. -/
def begin (formula : Formula) (fuel : Nat) : Work Unit := do
  modify fun context =>
    { Context.fresh context.programs with
      machine := { Machine.fresh with log := context.machine.log } }
  match formula.start with
  | none => return ()
  | some program =>
    let _ ← Work.runProgram (formula.limits fuel) program
    return ()

/-- Leaves the context for a new one that is prepared for a text. -/
def beginFor (formula : Formula) (fuel : Nat) (text : String) : Work Unit := do
  formula.begin fuel
  formula.prepare fuel text

/-- Runs a script with variables in a context of its own. -/
def evaluate (formula : Formula) (fuel : Nat) (script : String)
    (members : List (String × Json)) : Work Value := do
  formula.beginFor fuel script
  Work.defineAll members
  Work.run (formula.limits fuel) script

/-- Does a piece of work in a context that nothing has been done in. -/
def perform {α : Type} (formula : Formula) (work : Work α) : Performed α :=
  work.perform (.fresh formula.newCache)

end Formula

end Formulary
