import Formulary.Number.Layout
import Formulary.Value.Store

/-!
# Conversions of values

* `display` : a value as text;
* `toNumber`, `toInteger` : a value as a number and as an integer;
* `toPrimitive` : a reference replaced by its text.

References make these depend on a store. Arrays may lie inside themselves: an array within itself,
or within `Value.maxNesting` others, is displayed as nothing.
-/

namespace Formulary

/-- How many containers may lie around a container that is displayed or exported. -/
def Value.maxNesting : Nat := 128

/-- A function as text. -/
def Callable.display : Callable → String
  | script definition _ =>
    "function " ++ definition.name.getD "" ++ "(" ++ String.intercalate ", " definition.parameters
      ++ ") \x7b ... \x7d"
  | intrinsic function => "function " ++ function.name ++ "() \x7b [native code] \x7d"
  | builtin name _ => "function " ++ name ++ "() \x7b [native code] \x7d"

namespace Value

/-- A value as text, inside the arrays of `path`, with room for `room` more of them. -/
def displayWithin (store : Store) : Nat → List ArrayRef → Value → String
  | _, _, undefined => "undefined"
  | _, _, null => "null"
  | _, _, boolean b => if b then "true" else "false"
  | _, _, number x => Number.text x
  | _, _, string s => s
  | _, _, object _ => "[object Object]"
  | _, _, function ref => (store.callable ref).display
  | 0, _, array _ => ""
  | room + 1, path, array ref =>
    if path.contains ref then ""
    else
      String.intercalate "," ((store.elements ref).toList.map fun item =>
        if item.isMissing then "" else displayWithin store room (ref :: path) item)

/-- A value as text. -/
def display (store : Store) (value : Value) : String :=
  displayWithin store maxNesting [] value

/-- The text of an item that is joined with others; missing values have none. -/
def displayItem (store : Store) (item : Value) : String :=
  if item.isMissing then "" else item.display store

/-- A value as a number. An array counts as its text; objects and functions are NaN. -/
def toNumber (store : Store) : Value → Float
  | undefined => Number.nan
  | null => 0
  | boolean b => if b then 1 else 0
  | number x => x
  | string s => Number.ofText s.toList
  | array ref => Number.ofText ((array ref).display store).toList
  | object _ => Number.nan
  | function _ => Number.nan

/-- A value as an integer. -/
def toInteger (store : Store) (value : Value) : Except ValueError Int :=
  integerOf value.kindName (value.toNumber store)

/-- A reference replaced by its text. -/
def toPrimitive (store : Store) (value : Value) : Value :=
  if value.isPrimitive then value else string (value.display store)

end Value

/-- A value as an argument of a built-in function. -/
def Argument.ofValue (store : Store) (value : Value) : Argument :=
  ⟨value, value.toNumber store, value.truth⟩

/-- A call with the given values as arguments. -/
def Call.ofValues (store : Store) (name : String) (values : List Value) : Call :=
  ⟨name, values.map (Argument.ofValue store)⟩

end Formulary
