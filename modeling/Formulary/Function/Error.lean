/-!
# Failures of functions

* `FunctionError` : why a call of a built-in function fails;
* `FunctionError.message` : the wording.
-/

namespace Formulary

/-- Why a call of a built-in function fails. Arguments are counted from zero. -/
inductive FunctionError where
  /-- More or fewer arguments than the signature allows; without `max` there is no upper bound. -/
  | arity (name : String) (min : Nat) (max : Option Nat) (actual : Nat)
  /-- An argument of the right kind but outside its range. -/
  | outOfRange (name : String) (index : Nat) (detail : String)
  /-- An argument that cannot be converted. -/
  | invalidArgument (name : String) (index : Nat) (detail : String)
  /-- No function of that name. -/
  | notFound (name : String)
  /-- The computation itself fails. -/
  | evaluation (name : String) (detail : String)
  deriving DecidableEq, Repr

/-- The wording of an error. -/
def FunctionError.message : FunctionError → String
  | arity name min max actual =>
    let bound := match max with | some n => toString n | none => "∞"
    "Function '" ++ name ++ "' expects " ++ toString min ++ "-" ++ bound ++ " arguments, got "
      ++ toString actual
  | outOfRange name index detail =>
    "Function '" ++ name ++ "' argument " ++ toString index ++ " out of range: " ++ detail
  | invalidArgument name index detail =>
    "Function '" ++ name ++ "' argument " ++ toString index ++ " is invalid: " ++ detail
  | notFound name => "Function '" ++ name ++ "' not found"
  | evaluation name detail => "Function '" ++ name ++ "' evaluation error: " ++ detail

end Formulary
