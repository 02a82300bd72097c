import Formulary.Function.Builtin
import Formulary.Function.Intrinsic
import Formulary.Source.Program
import Formulary.Value.Table

/-!
# Stores

* `Container` : an array or an object;
* `Callable` : what a function value stands for;
* `Frame` : the names that a call or a whole script declares, and the frame around it;
* `Store` : the arrays, objects, functions and frames that values refer to;
* `chain`, `binding?`, `declare`, `assign` : names seen from a frame.

A store only grows, so that a reference stays good. A frame is made after the frame around it, so
that the way outwards ends.
-/

namespace Formulary

/-- A place where a store keeps a frame. -/
structure FrameRef where
  index : Nat
  deriving DecidableEq, Repr

/-- An array or an object. -/
inductive Container where
  | array (ref : ArrayRef)
  | object (ref : ObjectRef)
  deriving DecidableEq, Repr

/-- The array or object that a value refers to. -/
def Value.container? : Value → Option Container
  | array ref => some (.array ref)
  | object ref => some (.object ref)
  | _ => none

/-- What a function value stands for. -/
inductive Callable where
  /-- A function of a script together with the frame that it was made in. -/
  | script (definition : FunctionDef) (scope : FrameRef)
  /-- A function that every script has. -/
  | intrinsic (function : Intrinsic)
  /-- A built-in function under the name it was installed with. -/
  | builtin (name : String) (function : Builtin)

instance : Inhabited Callable := ⟨.script (.mk none [] []) ⟨0⟩⟩

/-- The name of a function. -/
def Callable.name : Callable → String
  | script definition _ => definition.name.getD "anonymous"
  | intrinsic function => function.name
  | builtin name _ => name

/-- Names with their values, and the frame around them. -/
structure Frame where
  bindings : Table Value
  parent : Option FrameRef

instance : Inhabited Frame := ⟨⟨.empty, none⟩⟩

/-- What values refer to. -/
structure Store where
  arrays : Array (Array Value)
  objects : Array (Table Value)
  functions : Array Callable
  frames : Array Frame

namespace Store

/-- The store without anything in it. -/
def empty : Store := ⟨#[], #[], #[], #[]⟩

instance : Inhabited Store := ⟨empty⟩

/-! ## Containers and functions -/

/-- The elements of an array. -/
def elements (store : Store) (ref : ArrayRef) : Array Value :=
  (store.arrays[ref.index]?).getD #[]

/-- The properties of an object. -/
def properties (store : Store) (ref : ObjectRef) : Table Value :=
  (store.objects[ref.index]?).getD .empty

/-- What a function value stands for. -/
def callable (store : Store) (ref : FunctionRef) : Callable :=
  (store.functions[ref.index]?).getD default

/-- Changes the elements of an array. -/
def modifyElements (store : Store) (ref : ArrayRef) (change : Array Value → Array Value) : Store :=
  { store with arrays := store.arrays.modify ref.index change }

/-- Changes the properties of an object. -/
def modifyProperties (store : Store) (ref : ObjectRef) (change : Table Value → Table Value) :
    Store :=
  { store with objects := store.objects.modify ref.index change }

/-- Makes an array. -/
def newArray (store : Store) (items : Array Value) : Value × Store :=
  (.array ⟨store.arrays.size⟩, { store with arrays := store.arrays.push items })

/-- Makes an object. -/
def newObject (store : Store) (properties : Table Value) : Value × Store :=
  (.object ⟨store.objects.size⟩, { store with objects := store.objects.push properties })

/-- Makes a function. -/
def newFunction (store : Store) (callable : Callable) : Value × Store :=
  (.function ⟨store.functions.size⟩, { store with functions := store.functions.push callable })

/-- Makes a frame without names inside another one, or outside all others. -/
def newFrame (store : Store) (parent : Option FrameRef) : FrameRef × Store :=
  (⟨store.frames.size⟩, { store with frames := store.frames.push ⟨.empty, parent⟩ })

/-! ## Names -/

/-- A frame. -/
def frame (store : Store) (ref : FrameRef) : Frame :=
  (store.frames[ref.index]?).getD default

/-- The value that a frame itself has under a name. -/
def ownBinding? (store : Store) (ref : FrameRef) (name : String) : Option Value :=
  (store.frame ref).bindings.get? name

/-- Whether a frame itself has a name. -/
def hasOwn (store : Store) (ref : FrameRef) (name : String) : Bool :=
  (store.ownBinding? ref name).isSome

/-- At most `fuel` frames from the given one outwards. -/
def chainWithin (store : Store) : Nat → FrameRef → List FrameRef
  | 0, _ => []
  | fuel + 1, ref =>
    ref :: match (store.frame ref).parent with
      | some parent => chainWithin store fuel parent
      | none => []

/-- The frames from the given one outwards. Each was made before the one inside it. -/
def chain (store : Store) (ref : FrameRef) : List FrameRef :=
  store.chainWithin (ref.index + 1) ref

/-- The outermost frame around the given one. -/
def outermost (store : Store) (ref : FrameRef) : FrameRef :=
  (store.chain ref).getLastD ref

/-- The nearest frame that has a name, seen from the given one. -/
def holder? (store : Store) (ref : FrameRef) (name : String) : Option FrameRef :=
  (store.chain ref).find? fun frame => store.hasOwn frame name

/-- The value of a name seen from a frame: that of the nearest frame which has the name. -/
def binding? (store : Store) (ref : FrameRef) (name : String) : Option Value :=
  (store.chain ref).findSome? fun frame => store.ownBinding? frame name

/-- Whether a name has a value seen from a frame. -/
def isBound (store : Store) (ref : FrameRef) (name : String) : Bool :=
  (store.binding? ref name).isSome

/-- Gives a name a value in a frame itself. -/
def declare (store : Store) (ref : FrameRef) (name : String) (value : Value) : Store :=
  { store with
    frames := store.frames.modify ref.index fun frame =>
      { frame with bindings := frame.bindings.put name value } }

/-- Gives a name undefined in a frame that does not have the name. -/
def declareMissing (store : Store) (ref : FrameRef) (name : String) : Store :=
  if store.hasOwn ref name then store else store.declare ref name .undefined

/-- Gives a name a value in the nearest frame that has it, and in the outermost frame when none
has. -/
def assign (store : Store) (ref : FrameRef) (name : String) (value : Value) : Store :=
  store.declare ((store.holder? ref name).getD (store.outermost ref)) name value

/-- Takes all names from a frame. -/
def clear (store : Store) (ref : FrameRef) : Store :=
  { store with
    frames := store.frames.modify ref.index fun frame => { frame with bindings := .empty } }

end Store

end Formulary
