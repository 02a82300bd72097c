import Formulary.Function.Standard
import Formulary.Json.Basic
import Formulary.Value.Table

/-!
# Where functions are found

* `Provider` : built-in functions under their names, possibly under further names;
* `BodyStore` : the texts of custom functions;
* `Registry` : providers and stores in order of precedence;
* `provider?`, `body?` : the first one that serves a name.

Providers and stores have an identity, so that one which is already in the registry is not added
again.
-/

namespace Formulary

/-- Names in code point order without repetitions. -/
def sortNames (names : List String) : List String :=
  (sortMembers (names.map fun name => (name, ()))).map Prod.fst

/-! ## Providers -/

/-- Built-in functions under their names. -/
structure Provider where
  id : Nat
  functions : Table Builtin

namespace Provider

/-- Adds a function under the name of its signature. -/
def add (provider : Provider) (builtin : Builtin) : Provider :=
  { provider with functions := provider.functions.put builtin.signature.name builtin }

/-- Adds a further name for a function, if there is one of the name `target`. -/
def addAlias (provider : Provider) (further target : String) : Provider :=
  match provider.functions.get? target with
  | some builtin => { provider with functions := provider.functions.put further builtin }
  | none => provider

/-- The standard functions. -/
def standard (id : Nat) : Provider :=
  (Builtin.standard.foldl add ⟨id, .empty⟩).addAlias "$FLR" "$FLOOR"

/-- The names that a provider serves, in order. -/
def names (provider : Provider) : List String :=
  sortNames provider.functions.names

end Provider

/-! ## Stores of bodies -/

/-- The texts of custom functions. -/
structure BodyStore where
  id : Nat
  bodies : Table String

namespace BodyStore

/-- The text of a function; an empty text counts as none. -/
def body? (store : BodyStore) (name : String) : Option String :=
  (store.bodies.get? name).filter fun body => !body.isEmpty

/-- Writes the text of a function. -/
def write (store : BodyStore) (name body : String) : BodyStore :=
  { store with bodies := store.bodies.put name body }

end BodyStore

/-! ## The registry -/

/-- Providers and stores in order of precedence. -/
structure Registry where
  providers : List Provider
  stores : List BodyStore

namespace Registry

/-- The registry without anything in it. -/
def empty : Registry := ⟨[], []⟩

/-- Adds a provider after the others, unless it is there already. -/
def addProvider (registry : Registry) (provider : Provider) : Registry :=
  if registry.providers.any fun known => known.id == provider.id then registry
  else { registry with providers := registry.providers ++ [provider] }

/-- Adds a store after the others, unless it is there already. -/
def addStore (registry : Registry) (store : BodyStore) : Registry :=
  if registry.stores.any fun known => known.id == store.id then registry
  else { registry with stores := registry.stores ++ [store] }

/-- The first function of that name among the providers. -/
def builtin? (registry : Registry) (name : String) : Option Builtin :=
  registry.providers.findSome? fun provider => provider.functions.get? name

/-- The first text of that name among the stores. -/
def body? (registry : Registry) (name : String) : Option String :=
  registry.stores.findSome? fun store => store.body? name

/-- Whether a store has been written for a name, whatever the text. -/
def isWritten (registry : Registry) (id : Nat) (name : String) : Bool :=
  registry.stores.any fun store => store.id == id && store.bodies.contains name

/-- Writes a text into the store of the given identity. -/
def write (registry : Registry) (id : Nat) (name body : String) : Registry :=
  { registry with
    stores := registry.stores.map fun store =>
      if store.id == id then store.write name body else store }

/-- Writes a text into the first store; answers whether that store had been written for the name
before. -/
def register (registry : Registry) (name body : String) : Bool × Registry :=
  match registry.stores with
  | [] => (false, registry)
  | store :: rest =>
    (store.bodies.contains name, { registry with stores := store.write name body :: rest })

/-- The names that the providers serve, in order. -/
def builtinNames (registry : Registry) : List String :=
  sortNames (registry.providers.flatMap fun provider => provider.functions.names)

/-- The names that the stores have been written for, in order. -/
def customNames (registry : Registry) : List String :=
  sortNames (registry.stores.flatMap fun store => store.bodies.names)

end Registry

end Formulary
