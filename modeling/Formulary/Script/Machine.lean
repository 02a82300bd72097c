import Formulary.Script.Error
import Formulary.Value.Store

/-!
# Machines

* `Machine` : the state in which scripts run;
* `Halt`, `Run` : a step of a run, which ends in a value, in an error or for lack of fuel;
* `deeper`, `calling` : the limits on expressions and calls inside one another.
-/

namespace Formulary

/-- The state in which scripts run: what values refer to, the messages written, how many calls are
active and how many expressions of the innermost call. -/
structure Machine where
  store : Store
  log : Array LogEntry
  calls : Nat
  nesting : Nat

/-- Why a run ends without a value. -/
inductive Halt where
  | error (error : EvalError)
  | outOfFuel
  deriving DecidableEq, Repr

/-- A step of a run. The state survives a failure. -/
abbrev Run := EStateM Halt Machine

namespace Run

variable {α : Type}

/-- Fails. -/
def fail (error : EvalError) : Run α :=
  throw (.error error)

/-- The answer, or a failure. -/
def ofExcept : Except EvalError α → Run α
  | .ok a => pure a
  | .error e => fail e

/-- The store. -/
def store : Run Store :=
  return (← get).store

/-- Changes the store. -/
@[inline] def modifyStore (change : Store → Store) : Run Unit :=
  modify fun machine => { machine with store := change machine.store }

/-- Changes the store and answers something about the change. -/
@[inline] def updateStore (change : Store → α × Store) : Run α := fun machine =>
  match machine with
  | ⟨store, log, calls, nesting⟩ =>
    let (a, store) := change store
    .ok a ⟨store, log, calls, nesting⟩

/-- Writes a message. -/
def write (entry : LogEntry) : Run Unit :=
  modify fun machine => { machine with log := machine.log.push entry }

/-- Makes an array. -/
def newArray (items : Array Value) : Run Value :=
  updateStore fun store => store.newArray items

/-- Makes an object. -/
def newObject (properties : Table Value) : Run Value :=
  updateStore fun store => store.newObject properties

/-- Makes a function. -/
def newFunction (callable : Callable) : Run Value :=
  updateStore fun store => store.newFunction callable

/-! ## Limits -/

/-- How many expressions of one call may be active at once. -/
def nestingLimit : Nat := 512

/-- Gives a machine the counts of calls and expressions that it had before. -/
def restore (calls nesting : Nat) (result : EStateM.Result Halt Machine α) :
    EStateM.Result Halt Machine α :=
  match result with
  | .ok a machine => .ok a { machine with calls := calls, nesting := nesting }
  | .error e machine => .error e { machine with calls := calls, nesting := nesting }

/-- Runs a step as an expression inside the active ones. -/
@[inline] def deeper (step : Run α) : Run α := fun machine =>
  let nesting := machine.nesting
  let calls := machine.calls
  if nestingLimit ≤ nesting then .error (.error (.nesting nestingLimit)) machine
  else restore calls nesting (step { machine with nesting := nesting + 1 })

/-- Runs a step as a call inside the active ones, of which there may be `limit`. Its expressions
are counted anew. -/
@[inline] def calling (limit : Nat) (step : Run α) : Run α := fun machine =>
  let nesting := machine.nesting
  let calls := machine.calls
  if limit ≤ calls then .error (.error (.callDepth limit)) machine
  else restore calls nesting (step { machine with calls := calls + 1, nesting := 0 })

end Run

end Formulary
