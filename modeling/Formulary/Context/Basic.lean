import Formulary.Context.Ledger
import Formulary.Failure
import Formulary.Script.Evaluation
import Formulary.Source.Cache

/-!
# Contexts

* `Context` : a machine, the functions loaded into it and the programs kept so far;
* `Work` : something done in a context, which may fail;
* `Work.run`, `Work.lookUp`, `Work.define` : scripts and global names;
* `Work.perform` : a piece of work by itself, with its answer, its messages and the context after
  it.

Contexts hand on the programs that they keep, so that a script is parsed once for all of them.
-/

namespace Formulary

/-- A machine, the functions loaded into it and the programs kept so far. -/
structure Context where
  machine : Machine
  ledger : Ledger
  programs : ProgramCache

/-- A context in which nothing has been done. -/
def Context.fresh (programs : ProgramCache) : Context :=
  ⟨.fresh, .empty, programs⟩

/-- Something done in a context. What was done before a failure stays done. -/
abbrev Work := EStateM Failure Context

/-- The bounds on the scripts of a context: how many calls may be inside one another, and how much
fuel there is for each script. -/
structure Limits where
  calls : Nat
  fuel : Nat

/-- The failure that a halt of a machine is. -/
def Failure.ofHalt : Halt → Failure
  | .error error => .evaluation error
  | .outOfFuel => .outOfFuel

namespace Work

variable {α : Type}

/-- Does a run in the machine of the context. -/
def ofRun (run : Run α) : Work α := fun context =>
  match context with
  | ⟨machine, ledger, programs⟩ =>
    match run machine with
    | .ok a machine => .ok a ⟨machine, ledger, programs⟩
    | .error halt machine => .error (.ofHalt halt) ⟨machine, ledger, programs⟩

/-- The program of a text. -/
def parse (text : String) : Work Program := do
  let context ← get
  let (result, programs) := context.programs.getOrParse text
  set { context with programs := programs }
  match result with
  | .ok program => return program
  | .error e => throw (.parse e)

/-- Runs a program in the global names. -/
def runProgram (limits : Limits) (program : Program) : Work Value :=
  ofRun (program.run limits.calls limits.fuel globalFrame)

/-- Runs a script. -/
def run (limits : Limits) (text : String) : Work Value := do
  runProgram limits (← parse text)

/-- The store that values refer to. -/
def store : Work Store :=
  return (← get).machine.store

/-- A piece of work that answers the store after it as well. -/
def withStore (work : Work α) : Work (α × Store) := do
  let a ← work
  return (a, ← store)

/-- The value of a global name; undefined where it has none. -/
def lookUp (name : String) : Work Value := do
  return ((← store).binding? globalFrame name).getD .undefined

/-- Gives a global name a value. -/
def define (name : String) (value : Value) : Work Unit :=
  ofRun (Run.modifyStore fun store => store.declare globalFrame name value)

/-- Gives a global name the value of a JSON value. -/
def defineJson (name : String) (json : Json) : Work Unit := do
  define name (← ofRun (Run.updateStore (Value.ofJson json)))

/-- Gives global names the values of JSON values, in order. -/
def defineAll (members : List (String × Json)) : Work Unit :=
  members.forM fun entry => defineJson entry.1 entry.2

/-- A value as JSON. -/
def toJson (value : Value) : Work Json := do
  match value.toJson (← store) with
  | .ok json => return json
  | .error e => throw (.value e)

/-- Writes a message. -/
def write (entry : LogEntry) : Work Unit :=
  ofRun (Run.write entry)

/-- Notes the state of a function. -/
def mark (name : String) (state : LoadState) : Work Unit :=
  modify fun context => { context with ledger := context.ledger.mark name state }

/-- Makes a built-in function the value of a global name. -/
def install (name : String) (builtin : Builtin) : Work Unit := do
  define name (← ofRun (Run.newFunction (.builtin name builtin)))

end Work

/-! ## Work by itself -/

/-- What a piece of work has come to: an answer or a failure, the messages written meanwhile, and
the context after it. -/
structure Performed (α : Type) where
  answer : Except Failure α
  log : List LogEntry
  context : Context

/-- A context without the messages written in it. -/
def Context.silenced (context : Context) : Context :=
  { context with machine := { context.machine with log := #[] } }

/-- Does a piece of work in a context. -/
def Work.perform {α : Type} (work : Work α) (context : Context) : Performed α :=
  match work context.silenced with
  | .ok a after => ⟨.ok a, after.machine.log.toList, after.silenced⟩
  | .error e after => ⟨.error e, after.machine.log.toList, after.silenced⟩

end Formulary
