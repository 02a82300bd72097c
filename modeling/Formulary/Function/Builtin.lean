import Formulary.Function.Error
import Formulary.Function.Signature
import Formulary.Value.Basic

/-!
# Built-in functions

* `Argument`, `Call` : a call with its arguments, already converted to numbers and truth values;
* `Builtin` : a function with its signature and its documentation;
* `Builtin.call` : a call that checks the number of arguments first.
-/

namespace Formulary

/-- An argument with the number and the truth value that it converts to. -/
structure Argument where
  value : Value
  number : Float
  truth : Bool

/-- What stands for an argument that is missing. -/
def Argument.missing : Argument :=
  ⟨.undefined, Number.nan, false⟩

/-- An argument as an integer. -/
def Argument.integer (argument : Argument) : Except ValueError Int :=
  integerOf argument.value.kindName argument.number

/-- A call of a function under a name. -/
structure Call where
  name : String
  arguments : List Argument

namespace Call

/-- The argument at a position. -/
def argument (call : Call) (index : Nat) : Argument :=
  (call.arguments[index]?).getD .missing

/-- The value at a position. -/
def value (call : Call) (index : Nat) : Value :=
  (call.argument index).value

/-- The number at a position. -/
def number (call : Call) (index : Nat) : Float :=
  (call.argument index).number

/-- The truth value at a position. -/
def truth (call : Call) (index : Nat) : Bool :=
  (call.argument index).truth

/-- The integer at a position. -/
def integer (call : Call) (index : Nat) : Except FunctionError Int :=
  match (call.argument index).integer with
  | .ok n => .ok n
  | .error e => .error (.invalidArgument call.name index e.message)

/-- The arguments as numbers. -/
def numbers (call : Call) : List Float :=
  call.arguments.map Argument.number

end Call

/-- A function with its signature and its documentation. -/
structure Builtin where
  signature : Signature
  documentation : String
  evaluate : Call → Except FunctionError Value

/-- Calls a function, once the number of arguments is right. -/
def Builtin.call (builtin : Builtin) (call : Call) : Except FunctionError Value :=
  let signature := builtin.signature
  let count := call.arguments.length
  if signature.accepts count then builtin.evaluate call
  else .error (.arity call.name signature.minArity signature.maxArity count)

/-- A function that takes any arguments and answers undefined. -/
def Builtin.silent (name : String) : Builtin where
  signature := ⟨name, [], true⟩
  documentation := ""
  evaluate _ := .ok .undefined

end Formulary
