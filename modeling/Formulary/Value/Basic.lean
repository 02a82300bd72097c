import Formulary.Number.Reading

/-!
# Values of scripts

* `Value` : a value; arrays, objects and functions are references into a store;
* `typeName`, `kindName` : what kind of value it is, as `typeof` says and as messages say;
* `isPrimitive`, `isNaN` : distinctions that need no store;
* `ValueError` : why a value has no integer or no exported form.
-/

namespace Formulary

/-- A place where a store keeps the elements of an array. -/
structure ArrayRef where
  index : Nat
  deriving DecidableEq, Repr

/-- A place where a store keeps the properties of an object. -/
structure ObjectRef where
  index : Nat
  deriving DecidableEq, Repr

/-- A place where a store keeps a function. -/
structure FunctionRef where
  index : Nat
  deriving DecidableEq, Repr

/-- A value of a script. -/
inductive Value where
  | undefined
  | null
  | boolean (b : Bool)
  | number (x : Float)
  | string (s : String)
  | array (ref : ArrayRef)
  | object (ref : ObjectRef)
  | function (ref : FunctionRef)

namespace Value

instance : Inhabited Value := ⟨undefined⟩

/-- What `typeof` answers. -/
def typeName : Value → String
  | undefined => "undefined"
  | null => "object"
  | boolean _ => "boolean"
  | number _ => "number"
  | string _ => "string"
  | array _ => "object"
  | object _ => "object"
  | function _ => "function"

/-- How messages name the kind of a value: null and arrays have names of their own. -/
def kindName : Value → String
  | null => "null"
  | array _ => "array"
  | other => other.typeName

/-- Values that are no references. -/
def isPrimitive : Value → Bool
  | array _ => false
  | object _ => false
  | function _ => false
  | _ => true

/-- Undefined and null stand for a missing value. -/
def isMissing : Value → Bool
  | undefined => true
  | null => true
  | _ => false

/-- The number that is not a number. -/
def isNaN : Value → Bool
  | number x => x.isNaN
  | _ => false

/-- The text of a string. -/
def string? : Value → Option String
  | string s => some s
  | _ => none

/-- The truth of a value: missing values, false, zeros, NaN and the empty string are false. -/
def truth : Value → Bool
  | undefined => false
  | null => false
  | boolean b => b
  | number x => !(x == 0 || x.isNaN)
  | string s => !s.isEmpty
  | array _ => true
  | object _ => true
  | function _ => true

end Value

/-- Why a value cannot be exported. -/
inductive ExportFault where
  /-- A function has no exported form. -/
  | function
  /-- A container lies inside itself. -/
  | circular
  /-- A container lies inside too many others. -/
  | deeplyNested
  deriving DecidableEq, Repr

/-- The word for what cannot be exported. -/
def ExportFault.text : ExportFault → String
  | function => "function"
  | circular => "circular"
  | deeplyNested => "deeply nested"

/-- Why a conversion of a value fails. -/
inductive ValueError where
  /-- A value of the given kind stands for no finite number. -/
  | notInteger (kind : String)
  | notExportable (fault : ExportFault)
  deriving DecidableEq, Repr

/-- The wording of an error. -/
def ValueError.message : ValueError → String
  | notInteger kind => "Cannot convert " ++ kind ++ " to integer"
  | notExportable fault => "Cannot export " ++ fault.text ++ " value"

/-- A finite number without its fraction, held inside the range of 64 bits; `kind` names the value
that the number comes from. -/
def integerOf (kind : String) (x : Float) : Except ValueError Int :=
  if x.isFinite then .ok (Number.clampInt64 x) else .error (.notInteger kind)

end Formulary
