/-!
# Signatures

* `Signature` : the name of a built-in function and its parameters;
* `minArity`, `maxArity`, `accepts` : how many arguments a call may have;
* `text` : the signature as it is shown.
-/

namespace Formulary

/-- What a parameter stands for. -/
inductive ParameterKind where
  | number
  | integer
  | boolean
  | any
  deriving DecidableEq, Repr

/-- The word for a kind. -/
def ParameterKind.text : ParameterKind → String
  | number => "number"
  | integer => "integer"
  | boolean => "boolean"
  | any => "any"

/-- A parameter of a function. -/
structure Parameter where
  name : String
  kind : ParameterKind
  isOptional : Bool
  deriving DecidableEq, Repr

/-- A parameter as it is shown; brackets mark an optional one. -/
def Parameter.text (parameter : Parameter) : String :=
  let body := parameter.name ++ ": " ++ parameter.kind.text
  if parameter.isOptional then "[" ++ body ++ "]" else body

/-- The name of a function and its parameters; a variadic function takes any number of arguments
beyond them. -/
structure Signature where
  name : String
  parameters : List Parameter
  isVariadic : Bool
  deriving DecidableEq, Repr

namespace Signature

/-- The least number of arguments: one for each parameter that is not optional. -/
def minArity (signature : Signature) : Nat :=
  (signature.parameters.filter fun parameter => !parameter.isOptional).length

/-- The greatest number of arguments, if there is one. -/
def maxArity (signature : Signature) : Option Nat :=
  if signature.isVariadic then none else some signature.parameters.length

/-- Whether a call may have `count` arguments. -/
def accepts (signature : Signature) (count : Nat) : Bool :=
  signature.minArity ≤ count && signature.maxArity.all (count ≤ ·)

/-- The same parameters under another name. -/
def renamed (signature : Signature) (name : String) : Signature :=
  { signature with name := name }

/-- The signature as it is shown. -/
def text (signature : Signature) : String :=
  let parameters := signature.parameters.map Parameter.text
  let shown := if signature.isVariadic then parameters ++ ["..."] else parameters
  signature.name ++ "(" ++ String.intercalate ", " shown ++ ")"

end Signature

end Formulary
