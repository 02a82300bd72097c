import Formulary.Catalog.Basic
import Formulary.Formula

/-!
# Firing triggers

* `Formula.matching` : the formulas that the filter of a trigger accepts;
* `Formula.fire` : the result of the first of them, with the outputs that the trigger maps.
-/

namespace Formulary

/-- Members of a JSON object in order. -/
abbrev Members := List (String × Json)

namespace Formula

/-- Gives a name the value of an object, unless the name is empty. -/
def defineMembers (name : String) (members : Members) : Work Unit :=
  if name.isEmpty then return () else Work.defineJson name (.object members)

/-! ## Matching -/

/-- The name under which a filter sees the formula that it is asked about. -/
def candidateName : String := "config"

/-- Whether the filter of a trigger accepts a formula. -/
def accepts (formula : Formula) (fuel : Nat) (trigger : Trigger) (input : Members)
    (entry : FormulaEntry) : Work Bool := do
  Work.defineJson candidateName entry.toJson
  defineMembers trigger.contextName input
  match ← Work.run (formula.limits fuel) trigger.filter with
  | .boolean verdict => return verdict
  | _ => throw (.filterNotBoolean trigger.id entry.id)

/-- The formulas that the filter of a trigger accepts, in order. All of them are asked about in one
context. -/
def matching (formula : Formula) (fuel : Nat) (trigger : Trigger) (input : Members)
    (entries : List FormulaEntry) : Work (List FormulaEntry) := do
  formula.beginFor fuel trigger.filter
  entries.filterM (formula.accepts fuel trigger input)

/-! ## Firing -/

/-- The name of the result that is the value of the formula. -/
def returnName : String := "_return"

/-- Prepares a script for the context and runs it. -/
def runMapping (formula : Formula) (fuel : Nat) (mapping : String) : Work Unit := do
  formula.prepare fuel mapping
  let _ ← Work.run (formula.limits fuel) mapping
  return ()

/-- Hands the input of a trigger to the formula, if the trigger maps any. -/
def mapInputs (formula : Formula) (fuel : Nat) (trigger : Trigger) (input : Members) :
    Work Unit := do
  if trigger.inputMapping.isEmpty then return ()
  defineMembers trigger.contextName input
  formula.runMapping fuel trigger.inputMapping

/-- The members of the object that a global name holds. -/
def outputMembers (name : String) : Work Members := do
  match ← Work.toJson (← Work.lookUp name) with
  | .object members => return members
  | _ => throw (.invalidOutput name)

/-- The results that a trigger takes from the formula, if it maps any. -/
def mapOutputs (formula : Formula) (fuel : Nat) (trigger : Trigger) : Work Members := do
  if trigger.outputMapping.isEmpty then return []
  defineMembers trigger.outputName []
  formula.runMapping fuel trigger.outputMapping
  if trigger.outputName.isEmpty then return [] else outputMembers trigger.outputName

/-- Runs a formula for a trigger in a context of its own. -/
def runEntry (formula : Formula) (fuel : Nat) (trigger : Trigger) (input : Members)
    (entry : FormulaEntry) : Work Members := do
  formula.beginFor fuel entry.body
  formula.mapInputs fuel trigger input
  let returned ← Work.run (formula.limits fuel) entry.body
  let outputs ← formula.mapOutputs fuel trigger
  return insertMember returnName (← Work.toJson returned) outputs

/-- Fires a trigger: runs the first formula that its filter accepts. -/
def fire (formula : Formula) (fuel : Nat) (catalog : Catalog) (id : String) (input : Members) :
    Work Members := do
  match catalog.trigger? id with
  | none => throw (.triggerNotFound id)
  | some trigger =>
    match ← formula.matching fuel trigger input catalog.formulas with
    | [] => throw (.noMatchingFormula id)
    | entry :: _ => formula.runEntry fuel trigger input entry

end Formula

end Formulary
