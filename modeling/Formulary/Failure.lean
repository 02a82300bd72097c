import Formulary.Json.Reading
import Formulary.Script.Error
import Formulary.Source.Error
import Formulary.Value.Basic

/-!
# Failures

* `Failure` : why a formula engine gives no answer;
* `Failure.message` : the wording.
-/

namespace Formulary

/-- Why a formula engine gives no answer. -/
inductive Failure where
  /-- A text is no script. -/
  | parse (error : SyntaxError)
  | evaluation (error : EvalError)
  | value (error : ValueError)
  /-- Nothing serves a reference, and the policy does not allow that. -/
  | unresolvedFunction (name : String)
  | triggerNotFound (id : String)
  | noMatchingFormula (trigger : String)
  /-- A filter answers something else than a truth value. -/
  | filterNotBoolean (trigger formula : String)
  /-- The output variable holds something else than an object. -/
  | invalidOutput (name : String)
  /-- A document is no catalog. -/
  | catalog (detail : String)
  /-- A text is no JSON, or JSON of another shape than expected. -/
  | json
  /-- A script ran for too long. -/
  | outOfFuel
  deriving DecidableEq, Repr

/-- The wording of a failure. -/
def Failure.message : Failure → String
  | parse error => error.message
  | evaluation error => error.message
  | value error => error.message
  | unresolvedFunction name => "unresolved function reference - " ++ name
  | triggerNotFound id => "trigger not found - " ++ id
  | noMatchingFormula trigger => "no matched formula found for trigger - " ++ trigger
  | filterNotBoolean trigger formula =>
    "filter of trigger " ++ trigger ++ " returned a non-boolean value for formula " ++ formula
  | invalidOutput name => "output variable " ++ name ++ " is not an object"
  | catalog detail => "catalog error: " ++ detail
  | json => "JSON error: " ++ Json.faultText
  | outOfFuel => "out of fuel"

end Formulary
