import Formulary.Catalog.Document

/-!
# Catalogs

* `orderById` : entries in the order of their names;
* `partitionPoint`, `findById` : where a test begins to fail, and the first entry of a name among
  ordered ones, both found by halving;
* `Catalog` : the formulas and triggers of a document, in order.
-/

namespace Formulary

/-- Entries in the order of their names; entries of one name keep their order. -/
def orderById {α : Type} (id : α → String) (entries : List α) : List α :=
  entries.mergeSort fun a b => id a ≤ id b

/-- The first index from `low` to `high` at which a test fails, when it fails at all later ones too.
The range in question is halved each time, so that `fuel` need not exceed its length. -/
def partitionWithin (test : Nat → Bool) : Nat → Nat → Nat → Nat
  | 0, low, _ => low
  | fuel + 1, low, high =>
    if high ≤ low then low
    else
      let middle := (low + high) / 2
      if test middle then partitionWithin test fuel (middle + 1) high
      else partitionWithin test fuel low middle

/-- The number of entries that a test accepts, when all of them stand before the others. -/
def partitionPoint {α : Type} (test : α → Bool) (entries : List α) : Nat :=
  partitionWithin (fun index => entries[index]?.any test) entries.length 0 entries.length

/-- The first entry with the given name among entries in the order of their names. -/
def findById {α : Type} (id : α → String) (name : String) (entries : List α) : Option α :=
  entries[partitionPoint (fun entry => id entry < name) entries]?.filter fun entry =>
    id entry == name

/-- Formulas and triggers in the order of their names. -/
structure Catalog where
  formulas : List FormulaEntry
  triggers : List Trigger
  deriving DecidableEq, Repr

namespace Catalog

/-- The catalog of the entries of a document. -/
def ofDocument (document : Document) : Catalog :=
  ⟨orderById FormulaEntry.id document.formulas, orderById Trigger.id document.triggers⟩

/-- The formula of a name. -/
def formula? (catalog : Catalog) (id : String) : Option FormulaEntry :=
  findById FormulaEntry.id id catalog.formulas

/-- The trigger of a name. -/
def trigger? (catalog : Catalog) (id : String) : Option Trigger :=
  findById Trigger.id id catalog.triggers

end Catalog

end Formulary
