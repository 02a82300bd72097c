import Formulary.Script.Error
import Formulary.Value.Conversion

/-!
# Properties

* `readProperty`, `readIndexed` : a property by name and by key;
* `Edit` : a write that is possible, and `Store.apply`, which does it;
* `editProperty`, `editIndexed` : the write of a property by name and by key.

Whether a write is possible depends on the kinds of the values only, not on the store, so that a
write that fails leaves the store as it was.
-/

namespace Formulary

/-! ## Positions -/

/-- The position that the name of an element denotes: digits without a leading zero. -/
def elementIndex? (name : String) : Option Nat :=
  let digits := name.toList
  if digits.isEmpty || (digits.length != 1 && digits.head? == some '0') then none
  else if digits.all Char.isDigit then
    let n := Number.natOfDigits 10 digits
    if n ≤ Number.uint64Greatest then some n else none
  else none

/-- The position that a key denotes: a whole number that is not negative, or the name of an
element. -/
def Value.position? : Value → Option Nat
  | number x => if 0 ≤ x && Number.isWhole x then some (Number.clampIndex x) else none
  | string s => elementIndex? s
  | _ => none

/-! ## Reading -/

/-- The element at a position; undefined where there is none. -/
def Store.element (store : Store) (ref : ArrayRef) (index : Nat) : Value :=
  ((store.elements ref)[index]?).getD .undefined

/-- The character at a position as a string; undefined where there is none. -/
def characterAt (text : String) (index : Nat) : Value :=
  match text.toList[index]? with
  | some c => .string (String.ofList [c])
  | none => .undefined

/-- A count as a number. -/
def Value.ofCount (n : Nat) : Value :=
  number (Float.ofNat n)

/-- A property by name. What a value does not have is undefined; only missing values have no
properties at all. -/
def readProperty (store : Store) (value : Value) (name : String) : Except TypeFault Value :=
  match value with
  | .undefined => .error (.readMissing name value.kindName)
  | .null => .error (.readMissing name value.kindName)
  | .object ref => .ok (((store.properties ref).get? name).getD .undefined)
  | .array ref =>
    if name = "length" then .ok (.ofCount (store.elements ref).size)
    else
      match elementIndex? name with
      | some index => .ok (store.element ref index)
      | none => .ok .undefined
  | .string text =>
    if name = "length" then .ok (.ofCount text.length)
    else
      match elementIndex? name with
      | some index => .ok (characterAt text index)
      | none => .ok .undefined
  | .function ref =>
    if name = "name" then .ok (.string (store.callable ref).name) else .ok .undefined
  | _ => .ok .undefined

/-- A property by key: an element of an array by its position, all else by the text of the key. -/
def readIndexed (store : Store) (value key : Value) : Except TypeFault Value :=
  match value, key.position? with
  | .array ref, some index => .ok (store.element ref index)
  | _, _ => readProperty store value (key.display store)

/-! ## Writing -/

/-- The greatest length of an array. -/
def maxArrayLength : Nat := 0x1000000

/-- A write that is possible. -/
inductive Edit where
  | property (ref : ObjectRef) (name : String) (value : Value)
  | element (ref : ArrayRef) (index : Nat) (value : Value)
  | length (ref : ArrayRef) (length : Nat)
  /-- A write to a value that holds nothing. -/
  | nothing

/-- The items cut or filled up with undefined to a length. -/
def resized (length : Nat) (items : Array Value) : Array Value :=
  items.take length ++ Array.replicate (length - items.size) Value.undefined

/-- The items with one of them replaced; missing items before it become undefined. -/
def withElement (index : Nat) (value : Value) (items : Array Value) : Array Value :=
  if index < items.size then items.setIfInBounds index value
  else (items ++ Array.replicate (index - items.size) Value.undefined).push value

/-- Does a write. -/
def Store.apply (store : Store) : Edit → Store
  | .property ref name value => store.modifyProperties ref fun table => table.put name value
  | .element ref index value => store.modifyElements ref (withElement index value)
  | .length ref length => store.modifyElements ref (resized length)
  | .nothing => store

/-- The write of an element. -/
def editElement (ref : ArrayRef) (index : Nat) (value : Value) : Except TypeFault Edit :=
  if index < maxArrayLength then .ok (.element ref index value) else .error .arrayLength

/-- The write of a property by name. -/
def editProperty (target : Value) (name : String) (value : Value) : Except TypeFault Edit :=
  match target with
  | .undefined => .error (.writeMissing name target.kindName)
  | .null => .error (.writeMissing name target.kindName)
  | .object ref => .ok (.property ref name value)
  | .array ref =>
    match elementIndex? name with
    | some index => editElement ref index value
    | none =>
      if name = "length" then
        match value.position? with
        | some length =>
          if length ≤ maxArrayLength then .ok (.length ref length) else .error .arrayLength
        | none => .error .arrayLength
      else .error (.arrayProperty name)
  | _ => .ok .nothing

/-- The write of a property by key. -/
def editIndexed (store : Store) (target key value : Value) : Except TypeFault Edit :=
  match target, key.position? with
  | .array ref, some index => editElement ref index value
  | _, _ => editProperty target (key.display store) value

end Formulary
