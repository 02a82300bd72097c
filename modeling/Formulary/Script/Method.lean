import Formulary.Script.Machine
import Formulary.Script.Property
import Formulary.Text.Case
import Formulary.Text.Search
import Formulary.Value.Comparison

/-!
# Methods of arrays, strings and numbers

* `ArrayMethod`, `StringMethod`, `NumberMethod` : the methods and their names;
* `slicePosition`, `cutPosition` : positions that arguments denote;
* `Method.find?`, `Method.run` : the method of a value by name, and a call of it.
-/

namespace Formulary

/-! ## Arguments -/

/-- The argument at a position; a missing one is undefined. -/
def argumentAt (arguments : List Value) (index : Nat) : Value :=
  (arguments[index]?).getD .undefined

/-- The position in a sequence that an argument of `slice` denotes: without its fraction, counted
from the end when negative, and held inside the sequence. -/
def slicePosition (store : Store) (length default : Nat) : Value → Nat
  | .undefined => default
  | value =>
    let x := value.toNumber store
    if x.isInf then (if x < 0 then 0 else length)
    else if x < 0 then ((length : Int) + Number.truncate x).toNat
    else min (Number.truncate x).toNat length

/-- The position in a text that an argument of `substring` denotes: without its fraction and held
inside the text. -/
def cutPosition (store : Store) (length default : Nat) : Value → Nat
  | .undefined => default
  | value =>
    let x := value.toNumber store
    if x < 0 then 0 else min (Number.clampIndex x) length

/-- The elements from position `start` up to position `stop`. -/
def between {α : Type} (items : List α) (start stop : Nat) : List α :=
  (items.drop start).take (stop - start)

/-- The position of a find, or minus one. -/
def Value.ofFind : Option Nat → Value
  | some index => ofCount index
  | none => number (-1)

/-! ## Arrays -/

/-- The methods of arrays. -/
inductive ArrayMethod where
  | push
  | pop
  | join
  | indexOf
  | includes
  | slice
  deriving DecidableEq, Repr

namespace ArrayMethod

/-- The name of a method. -/
def name : ArrayMethod → String
  | push => "push"
  | pop => "pop"
  | join => "join"
  | indexOf => "indexOf"
  | includes => "includes"
  | slice => "slice"

/-- All methods. -/
def all : List ArrayMethod :=
  [push, pop, join, indexOf, includes, slice]

end ArrayMethod

/-- The texts of items with a separator between them; undefined stands for a comma. -/
def joinItems (store : Store) (items : List Value) : Value → String
  | .undefined => String.intercalate "," (items.map (Value.displayItem store))
  | separator =>
    String.intercalate (separator.display store) (items.map (Value.displayItem store))

/-- Whether an item is the one that is searched for; NaN is found too. -/
def isIncluded (item needle : Value) : Bool :=
  item.strictEqual needle || (item.isNaN && needle.isNaN)

/-- A slice of items between the positions that two arguments denote. -/
def sliceItems (store : Store) (items : List Value) (start stop : Value) : List Value :=
  between items (slicePosition store items.length 0 start)
    (slicePosition store items.length items.length stop)

/-- Calls a method of an array. -/
def ArrayMethod.run (ref : ArrayRef) (arguments : List Value) : ArrayMethod → Run Value
  | push => do
    Run.modifyStore fun store => store.modifyElements ref (· ++ arguments)
    return .ofCount ((← Run.store).elements ref).size
  | pop => do
    let last := ((← Run.store).elements ref).back?
    Run.modifyStore fun store => store.modifyElements ref Array.pop
    return last.getD .undefined
  | join => do
    let store ← Run.store
    return .string (joinItems store (store.elements ref).toList (argumentAt arguments 0))
  | indexOf => do
    let needle := argumentAt arguments 0
    return .ofFind (((← Run.store).elements ref).toList.findIdx? (·.strictEqual needle))
  | includes => do
    let needle := argumentAt arguments 0
    return .boolean (((← Run.store).elements ref).toList.any (isIncluded · needle))
  | slice => do
    let store ← Run.store
    let items := (store.elements ref).toList
    Run.newArray (sliceItems store items (argumentAt arguments 0) (argumentAt arguments 1)).toArray

/-! ## Strings -/

/-- The methods of strings. -/
inductive StringMethod where
  | toUpperCase
  | toLowerCase
  | trim
  | charAt
  | indexOf
  | substring
  | split
  deriving DecidableEq, Repr

namespace StringMethod

/-- The name of a method. -/
def name : StringMethod → String
  | toUpperCase => "toUpperCase"
  | toLowerCase => "toLowerCase"
  | trim => "trim"
  | charAt => "charAt"
  | indexOf => "indexOf"
  | substring => "substring"
  | split => "split"

/-- All methods. -/
def all : List StringMethod :=
  [toUpperCase, toLowerCase, trim, charAt, indexOf, substring, split]

end StringMethod

/-- The character that a number denotes by its position, as a text; an empty one where there is
none. -/
def charactersAt (text : List Char) (x : Float) : List Char :=
  if 0 ≤ x then (text[Number.clampIndex x]?).toList else []

/-- The part of a text between two positions in either order. -/
def substringOf (store : Store) (text : List Char) (first second : Value) : List Char :=
  let a := cutPosition store text.length 0 first
  let b := cutPosition store text.length text.length second
  between text (min a b) (max a b)

/-- The pieces of a text at a separator: the whole text when it is undefined, the characters when
it is empty. -/
def pieces (store : Store) (text : String) : Value → List String
  | .undefined => [text]
  | separator =>
    match (separator.display store).toList with
    | [] => text.toList.map fun c => String.ofList [c]
    | separator => (Text.splitOn separator text.toList).map String.ofList

/-- Calls a method of a string. -/
def StringMethod.run (text : String) (arguments : List Value) : StringMethod → Run Value
  | toUpperCase => return .string (String.ofList (Text.upper text.toList))
  | toLowerCase => return .string (String.ofList (Text.lower text.toList))
  | trim => return .string (String.ofList (Text.trim text.toList))
  | charAt => do
    let store ← Run.store
    let x := match arguments with | [] => 0 | first :: _ => first.toNumber store
    return .string (String.ofList (charactersAt text.toList x))
  | indexOf => do
    let needle := (argumentAt arguments 0).display (← Run.store)
    return .ofFind (Text.indexOf? needle.toList text.toList)
  | substring => do
    let store ← Run.store
    return .string (String.ofList
      (substringOf store text.toList (argumentAt arguments 0) (argumentAt arguments 1)))
  | split => do
    let store ← Run.store
    Run.newArray ((pieces store text (argumentAt arguments 0)).map Value.string).toArray

/-! ## Numbers -/

/-- The methods of numbers. -/
inductive NumberMethod where
  | toFixed
  | toText
  deriving DecidableEq, Repr

namespace NumberMethod

/-- The name of a method. -/
def name : NumberMethod → String
  | toFixed => "toFixed"
  | toText => "toString"

/-- All methods. -/
def all : List NumberMethod :=
  [toFixed, toText]

end NumberMethod

/-- The greatest number of decimal places that a number can be shown with. -/
def maxFixedPlaces : Nat := 100

/-- The number of decimal places that an argument denotes; none when it is undefined. -/
def fixedPlaces (store : Store) : Value → Except TypeFault Nat
  | .undefined => .ok 0
  | value =>
    match value.toInteger store with
    | .ok places =>
      if 0 ≤ places ∧ places ≤ maxFixedPlaces then .ok places.toNat else .error .fixedPlaces
    | .error _ => .error .fixedPlaces

/-- Calls a method of a number. -/
def NumberMethod.run (x : Float) (arguments : List Value) : NumberMethod → Run Value
  | toFixed => do
    match fixedPlaces (← Run.store) (argumentAt arguments 0) with
    | .ok places => return .string (Number.fixed places x)
    | .error fault => Run.fail (.type fault)
  | toText => return .string (Number.text x)

/-! ## Methods of values -/

/-- A method together with the value that it is called on. -/
inductive Method where
  | array (ref : ArrayRef) (method : ArrayMethod)
  | string (text : String) (method : StringMethod)
  | number (x : Float) (method : NumberMethod)

namespace Method

/-- The method of a value that has the given name. -/
def find? (receiver : Value) (name : String) : Option Method :=
  match receiver with
  | .array ref => (ArrayMethod.all.find? (·.name == name)).map (array ref)
  | .string text => (StringMethod.all.find? (·.name == name)).map (string text)
  | .number x => (NumberMethod.all.find? (·.name == name)).map (number x)
  | _ => none

/-- Calls a method. -/
def run (arguments : List Value) : Method → Run Value
  | array ref method => method.run ref arguments
  | string text method => method.run text arguments
  | number x method => method.run x arguments

end Method

end Formulary
