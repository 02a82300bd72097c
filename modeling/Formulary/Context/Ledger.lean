import Formulary.Function.Registry

/-!
# Which functions are loaded

* `LoadState` : how far the loading of a function has come;
* `Ledger` : the states of the functions of a context.
-/

namespace Formulary

/-- How far the loading of a function has come. -/
inductive LoadState where
  | notLoaded
  | loading
  | loaded
  deriving DecidableEq, Repr

/-- The states of functions; one that is not listed is not loaded. -/
structure Ledger where
  states : Table LoadState

namespace Ledger

/-- The ledger in which nothing is loaded. -/
def empty : Ledger := ⟨.empty⟩

/-- The state of a function. -/
def state (ledger : Ledger) (name : String) : LoadState :=
  (ledger.states.get? name).getD .notLoaded

/-- Notes the state of a function. -/
def mark (ledger : Ledger) (name : String) (state : LoadState) : Ledger :=
  ⟨ledger.states.put name state⟩

/-- The functions that are loaded, in code point order. -/
def loadedNames (ledger : Ledger) : List String :=
  sortNames (ledger.states.names.filter fun name => ledger.state name == .loaded)

theorem state_empty (name : String) : empty.state name = .notLoaded := rfl

/-- After a mark the function has the new state and every other one what it had. -/
theorem state_mark (ledger : Ledger) (name other : String) (state : LoadState) :
    (ledger.mark name state).state other = if other = name then state else ledger.state other := by
  unfold mark
  rw [Ledger.state, Ledger.state, Table.get?_put]
  split <;> rfl

end Ledger

end Formulary
