import Formulary.Function.Error

/-!
# Why a script stops

* `TypeFault` : operations that a kind of value does not have;
* `EvalError` : the causes for which the evaluation of a script fails;
* `EvalError.message` : the wording.
-/

namespace Formulary

/-- Operations that a kind of value does not have. -/
inductive TypeFault where
  /-- A property of a missing value is read. -/
  | readMissing (property kind : String)
  /-- A property of a missing value is written. -/
  | writeMissing (property kind : String)
  /-- A property of an array is written that is neither an element nor the length. -/
  | arrayProperty (property : String)
  /-- An array is given a length that it cannot have. -/
  | arrayLength
  /-- A number of decimal places is out of range. -/
  | fixedPlaces
  deriving DecidableEq, Repr

/-- The wording of a fault. -/
def TypeFault.message : TypeFault → String
  | readMissing property kind => "Cannot read property '" ++ property ++ "' of " ++ kind
  | writeMissing property kind => "Cannot set property '" ++ property ++ "' of " ++ kind
  | arrayProperty property => "Cannot set property '" ++ property ++ "' of array"
  | arrayLength => "Invalid array length"
  | fixedPlaces => "toFixed() digits argument must be between 0 and 100"

/-- Statements that leave a loop or a function. -/
inductive Jump where
  | ret
  | breakLoop
  | continueLoop
  deriving DecidableEq, Repr

/-- The word for a jump. -/
def Jump.text : Jump → String
  | ret => "return"
  | breakLoop => "break"
  | continueLoop => "continue"

/-- The causes for which the evaluation of a script fails. -/
inductive EvalError where
  /-- A name without a value. -/
  | reference (name : String)
  | type (fault : TypeFault)
  /-- A call of a value that is no function. -/
  | notCallable (name : String)
  /-- A write to an expression that names no place. -/
  | invalidTarget
  /-- More calls inside one another than allowed. -/
  | callDepth (limit : Nat)
  /-- More expressions inside one another than allowed. -/
  | nesting (limit : Nat)
  /-- A jump with nothing around it to leave. -/
  | illegalJump (jump : Jump)
  | function (error : FunctionError)
  deriving DecidableEq, Repr

/-- The wording of an error. -/
def EvalError.message : EvalError → String
  | reference name => "ReferenceError: " ++ name ++ " is not defined"
  | type fault => "TypeError: " ++ fault.message
  | notCallable name => "TypeError: " ++ name ++ " is not a function"
  | invalidTarget => "Invalid assignment target"
  | callDepth limit => "RangeError: maximum call depth of " ++ toString limit ++ " exceeded"
  | nesting limit =>
    "RangeError: expression nesting deeper than " ++ toString limit ++ " levels"
  | illegalJump jump => "Illegal " ++ jump.text ++ " statement"
  | function error => error.message

end Formulary
