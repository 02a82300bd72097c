import Formulary.Json.Basic
import Formulary.Value.Conversion

/-!
# Values and JSON

* `Value.ofJson` : a JSON value as a value with new arrays and objects;
* `Value.toJson` : a value as a JSON value, unless it holds a function, holds itself or is nested
  too deeply.
-/

namespace Formulary.Value

/-! ## From JSON -/

mutual

/-- A JSON value as a value; its containers are made in the store. -/
def ofJson : Json → StateM Store Value
  | .null => return null
  | .boolean b => return boolean b
  | .number n => return number n.toFloat
  | .string s => return string s
  | .array items => do
    let values ← ofItems items
    modifyGet fun store => store.newArray values.toArray
  | .object members => do
    let entries ← ofMembers members
    modifyGet fun store => store.newObject (.ofList entries)

/-- The items of a JSON array as values. -/
def ofItems : List Json → StateM Store (List Value)
  | [] => return []
  | item :: items => do
    let value ← ofJson item
    return value :: (← ofItems items)

/-- The members of a JSON object with their values. -/
def ofMembers : List (String × Json) → StateM Store (List (String × Value))
  | [] => return []
  | (key, member) :: members => do
    let value ← ofJson member
    return (key, value) :: (← ofMembers members)

end

/-! ## To JSON -/

/-- The least magnitude from which not every whole number is a double. -/
def wholeLimit : Nat := 0x20000000000000

/-- A number as JSON: an integer where it is whole and small enough to be exact, null where it is
not finite. -/
def numberToJson (x : Float) : Json :=
  if !x.isFinite then .null
  else if Number.isWhole x && (Number.truncate x).natAbs < wholeLimit then
    .number (.integer (Number.truncate x))
  else .number (.real x)

/-- A value as JSON, inside the containers of `path`, with room for `room` more of them. The first
item in order that cannot be exported decides the error. -/
def toJsonWithin (store : Store) : Nat → List Container → Value → Except ExportFault Json
  | _, _, undefined => .ok .null
  | _, _, null => .ok .null
  | _, _, boolean b => .ok (.boolean b)
  | _, _, number x => .ok (numberToJson x)
  | _, _, string s => .ok (.string s)
  | _, _, function _ => .error .function
  | room, path, array ref =>
    if path.contains (.array ref) then .error .circular
    else
      match room with
      | 0 => .error .deeplyNested
      | room + 1 => do
        let items ← (store.elements ref).toList.mapM fun item =>
          toJsonWithin store room (.array ref :: path) item
        return .array items
  | room, path, object ref =>
    if path.contains (.object ref) then .error .circular
    else
      match room with
      | 0 => .error .deeplyNested
      | room + 1 => do
        let members ← (store.properties ref).entries.mapM fun entry => do
          return (entry.1, ← toJsonWithin store room (.object ref :: path) entry.2)
        return .object (sortMembers members)

/-- A value as JSON. -/
def toJson (store : Store) (value : Value) : Except ValueError Json :=
  match toJsonWithin store maxNesting [] value with
  | .ok json => .ok json
  | .error fault => .error (.notExportable fault)

end Formulary.Value
