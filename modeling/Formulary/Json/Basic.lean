import Formulary.Number.Reading

/-!
# JSON values

* `Json` : a JSON value; members keep the order and the repetitions of the text they come from;
* `insertMember` : a member put in its place among sorted members;
* `Json.canonical` : members sorted by key in code point order, the last of equal keys kept.
-/

namespace Formulary

/-- A JSON number is an integer of at most 64 bits or a double. -/
inductive JsonNumber where
  | integer (n : Int)
  | real (x : Float)

/-- A JSON value. -/
inductive Json where
  | null
  | boolean (b : Bool)
  | number (n : JsonNumber)
  | string (s : String)
  | array (items : List Json)
  | object (members : List (String × Json))

instance : Inhabited Json := ⟨.null⟩

namespace JsonNumber

/-- The double nearest to the number. -/
def toFloat : JsonNumber → Float
  | integer n => Number.ofInt n
  | real x => x

end JsonNumber

/-- Puts a member in its place among members sorted by key; an equal key is overwritten. -/
def insertMember {α : Type} (key : String) (value : α) : List (String × α) → List (String × α)
  | [] => [(key, value)]
  | (k, v) :: rest =>
    if key < k then (key, value) :: (k, v) :: rest
    else if key = k then (key, value) :: rest
    else (k, v) :: insertMember key value rest

/-- Members sorted by key, the last of equal keys kept. -/
def sortMembers {α : Type} (members : List (String × α)) : List (String × α) :=
  members.foldl (fun sorted member => insertMember member.1 member.2 sorted) []

namespace Json

mutual

/-- The value with the members of every object sorted by key, the last of equal keys kept. -/
def canonical : Json → Json
  | null => null
  | boolean b => boolean b
  | number n => number n
  | string s => string s
  | array items => array (canonicalItems items)
  | object members => object (sortMembers (canonicalMembers members))

/-- The canonical forms of the items of an array. -/
def canonicalItems : List Json → List Json
  | [] => []
  | item :: items => item.canonical :: canonicalItems items

/-- The members of an object with canonical values, in the given order. -/
def canonicalMembers : List (String × Json) → List (String × Json)
  | [] => []
  | (key, value) :: members => (key, value.canonical) :: canonicalMembers members

end

/-- The value of a member; of equal keys the first counts. -/
def member? (key : String) : Json → Option Json
  | object members => members.lookup key
  | _ => none

/-- The members of an object. -/
def members? : Json → Option (List (String × Json))
  | object members => some members
  | _ => none

/-- The items of an array. -/
def items? : Json → Option (List Json)
  | array items => some items
  | _ => none

/-- The text of a string. -/
def string? : Json → Option String
  | string s => some s
  | _ => none

/-- The truth value of a boolean. -/
def boolean? : Json → Option Bool
  | boolean b => some b
  | _ => none

/-- A number that is a natural number of at most 64 bits. -/
def natural? : Json → Option Nat
  | number (.integer n) => if 0 ≤ n then some n.toNat else none
  | _ => none

/-- A natural number as a JSON number. -/
def ofNat (n : Nat) : Json :=
  number (.integer n)

end Json

end Formulary
