import Formulary.Json.Reading
import Formulary.Json.Record
import Formulary.Json.Writing

/-!
# Configuration

* `UnresolvedPolicy` : what happens to a reference that nothing serves;
* `Config` : the policy, the bound on calls and the bound on kept programs;
* `Config.read?`, `Config.toJson` : its JSON form.
-/

namespace Formulary

/-- What happens to a reference that nothing serves. -/
inductive UnresolvedPolicy where
  | ignore
  | warn
  | strict
  deriving DecidableEq, Repr

namespace UnresolvedPolicy

/-- The word for a policy. -/
def text : UnresolvedPolicy → String
  | ignore => "ignore"
  | warn => "warn"
  | strict => "strict"

/-- The policy that a word stands for. -/
def ofText? (text : String) : Option UnresolvedPolicy :=
  [ignore, warn, strict].find? fun policy => policy.text == text

/-- A policy is written as its word, or as an object with null under its word. -/
def ofJson? : Json → Option UnresolvedPolicy
  | .string text => ofText? text
  | .object [(text, .null)] => ofText? text
  | _ => none

end UnresolvedPolicy

/-- The settings of a formula engine. -/
structure Config where
  unresolved : UnresolvedPolicy
  /-- How many calls may be inside one another. -/
  callDepth : Nat
  /-- How many parsed programs are kept. -/
  cacheSize : Nat
  deriving DecidableEq, Repr

namespace Config

/-- The settings where none are given. -/
def standard : Config := ⟨.warn, 256, 256⟩

/-- References have to be served. -/
def strict : Config := { standard with unresolved := .strict }

/-- References need not be served, and there is room for more. -/
def lenient : Config := ⟨.ignore, 1024, 1024⟩

/-- References have to be served, and there is room for less. -/
def testing : Config := ⟨.strict, 32, 16⟩

instance : Inhabited Config := ⟨standard⟩

/-- The settings with the given name. -/
def preset? : String → Option Config
  | "default" => some standard
  | "strict" => some strict
  | "lenient" => some lenient
  | "testing" => some testing
  | _ => none

/-- The names of the fields, in order. -/
def fields : List (List String) :=
  [["unresolved_functions"], ["max_call_depth"], ["program_cache_size"]]

/-- The settings that a JSON value writes. -/
def ofJson? (json : Json) : Option Config := do
  match ← json.recordValues? fields with
  | [unresolved, callDepth, cacheSize] =>
    return ⟨← Json.orDefault? standard.unresolved UnresolvedPolicy.ofJson? unresolved,
      ← Json.orDefault? standard.callDepth Json.natural? callDepth,
      ← Json.orDefault? standard.cacheSize Json.natural? cacheSize⟩
  | _ => none

/-- The settings that a text writes. A field that the text repeats is malformed. -/
def read? (text : String) : Option Config :=
  (Json.parseRecord? fields text).bind ofJson?

/-- The settings as JSON. -/
def toJson (config : Config) : Json :=
  .object [("max_call_depth", .ofNat config.callDepth),
    ("program_cache_size", .ofNat config.cacheSize),
    ("unresolved_functions", .string config.unresolved.text)]

end Config

end Formulary
