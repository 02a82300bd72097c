import Formulary.Failure
import Formulary.Json.Record

/-!
# Catalog documents

* `FormulaEntry`, `Trigger` : what a catalog lists;
* `Document` : custom functions, formulas and triggers;
* `Document.read`, `Document.toJson` : its JSON form.

A field is read under its own name and under a second one in lower case, and written under its own
name. Every field may be left out.
-/

namespace Formulary

/-! ## Formulas -/

/-- A formula with what is known about it. -/
structure FormulaEntry where
  id : String
  description : String
  body : String
  attributes : List (String × String)
  isEnabled : Bool
  deriving DecidableEq, Repr

namespace FormulaEntry

/-- The names of the fields, in order. -/
def fields : List (List String) :=
  [["ID", "id"], ["Description", "description"], ["Body", "body"], ["Attributes", "attributes"],
   ["Enabled", "enabled"]]

/-- The formula that a JSON value describes. -/
def ofJson? (json : Json) : Option FormulaEntry := do
  match ← json.recordValues? fields with
  | [id, description, body, attributes, isEnabled] =>
    return ⟨← Json.orDefault? "" Json.string? id, ← Json.orDefault? "" Json.string? description,
      ← Json.orDefault? "" Json.string? body, ← Json.orDefault? [] Json.texts? attributes,
      ← Json.orDefault? false Json.boolean? isEnabled⟩
  | _ => none

/-- A formula as JSON, members in code point order. -/
def toJson (entry : FormulaEntry) : Json :=
  .object [("Attributes", .ofTexts entry.attributes), ("Body", .string entry.body),
    ("Description", .string entry.description), ("Enabled", .boolean entry.isEnabled),
    ("ID", .string entry.id)]

end FormulaEntry

/-! ## Triggers -/

/-- A trigger: which formulas it fires, and how it hands values to them and takes results from
them. -/
structure Trigger where
  id : String
  description : String
  /-- A script that accepts or rejects a formula. -/
  filter : String
  /-- The name under which scripts see what the trigger is fired with. -/
  contextName : String
  /-- A script that runs before the formula. -/
  inputMapping : String
  /-- The name of the object that results are put into. -/
  outputName : String
  /-- A script that runs after the formula. -/
  outputMapping : String
  deriving DecidableEq, Repr

namespace Trigger

/-- The names of the fields, in order. -/
def fields : List (List String) :=
  [["ID", "id"], ["Description", "description"], ["Filter", "filter"],
   ["ContextVarName", "context_var_name"], ["InputMapping", "input_mapping"],
   ["OutputVarName", "output_var_name"], ["OutputMapping", "output_mapping"]]

/-- The trigger that a JSON value describes. -/
def ofJson? (json : Json) : Option Trigger := do
  match ← (← json.recordValues? fields).mapM (Json.orDefault? "" Json.string?) with
  | [id, description, filter, contextName, inputMapping, outputName, outputMapping] =>
    return ⟨id, description, filter, contextName, inputMapping, outputName, outputMapping⟩
  | _ => none

/-- A trigger as JSON, members in code point order. -/
def toJson (trigger : Trigger) : Json :=
  .object [("ContextVarName", .string trigger.contextName),
    ("Description", .string trigger.description), ("Filter", .string trigger.filter),
    ("ID", .string trigger.id), ("InputMapping", .string trigger.inputMapping),
    ("OutputMapping", .string trigger.outputMapping),
    ("OutputVarName", .string trigger.outputName)]

end Trigger

/-! ## Documents -/

/-- Custom functions under their names, formulas and triggers. -/
structure Document where
  functions : List (String × String)
  formulas : List FormulaEntry
  triggers : List Trigger
  deriving DecidableEq, Repr

namespace Document

/-- The names of the fields, in order. -/
def fields : List (List String) :=
  [["functions"], ["formulas"], ["triggers"]]

/-- The document that a JSON value writes. -/
def ofJson? (json : Json) : Option Document := do
  match ← json.recordValues? fields with
  | [functions, formulas, triggers] =>
    return ⟨← Json.orDefault? [] Json.texts? functions,
      ← Json.orDefault? [] (Json.list? FormulaEntry.ofJson?) formulas,
      ← Json.orDefault? [] (Json.list? Trigger.ofJson?) triggers⟩
  | _ => none

/-- The document that a text writes. Of repeated members the last one counts. -/
def read (text : String) : Except Failure Document :=
  match Json.read? text with
  | none => .error .json
  | some json =>
    if json.members?.isNone then .error (.catalog "catalog document must be a JSON object")
    else
      match ofJson? json with
      | some document => .ok document
      | none => .error .json

/-- A document as JSON, members in code point order. -/
def toJson (document : Document) : Json :=
  .object [("formulas", .array (document.formulas.map FormulaEntry.toJson)),
    ("functions", .ofTexts document.functions),
    ("triggers", .array (document.triggers.map Trigger.toJson))]

end Document

end Formulary
