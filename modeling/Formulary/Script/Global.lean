import Formulary.Json.Reading
import Formulary.Json.Writing
import Formulary.Script.Method
import Formulary.Value.Exchange

/-!
# The global names

* `Intrinsic.run` : calls of the functions that every script has;
* `Store.newGlobals` : an outermost frame with the global names in it.
-/

namespace Formulary

/-! ## Calls -/

/-- The text of a value as JSON. -/
def stringify (store : Store) (value : Value) : Except FunctionError String :=
  match value.toJson store with
  | .ok json => .ok json.compact
  | .error e => .error (.invalidArgument Intrinsic.stringify.name 0 e.message)

/-- The integer that a text begins with, in the base that a second argument names. -/
def parseInteger (store : Store) (arguments : List Value) : Except FunctionError Float :=
  let text := ((argumentAt arguments 0).display store).toList
  match arguments with
  | _ :: base :: _ =>
    match base.toInteger store with
    | .ok base => .ok (Number.leadingInteger text base)
    | .error e => .error (.invalidArgument Intrinsic.parseInt.name 1 e.message)
  | _ => .ok (Number.leadingInteger text 0)

/-- The answer of a function, or its failure. -/
def Run.ofFunction {α : Type} : Except FunctionError α → Run α
  | .ok a => pure a
  | .error e => fail (.function e)

/-- Calls a function that every script has. -/
def Intrinsic.run (arguments : List Value) (function : Intrinsic) : Run Value := do
  let store ← Run.store
  let first := argumentAt arguments 0
  match function with
  | isNaN => return .boolean (first.toNumber store).isNaN
  | isFinite => return .boolean (first.toNumber store).isFinite
  | parseFloat => return .number (Number.leadingNumber (first.display store).toList)
  | parseInt => return .number (← Run.ofFunction (parseInteger store arguments))
  | toNumber => return .number (if arguments.isEmpty then 0 else first.toNumber store)
  | toText => return .string (if arguments.isEmpty then "" else first.display store)
  | toBoolean => return .boolean first.truth
  | math f => return .number (f.apply (arguments.map (Value.toNumber store)))
  | console method =>
    Run.write ⟨method.level, String.intercalate " " (arguments.map (Value.display store))⟩
    return .undefined
  | stringify => return .string (← Run.ofFunction (Formulary.stringify store first))
  | parse =>
    match Json.read? (first.display store) with
    | some json => Run.updateStore (Value.ofJson json)
    | none => Run.fail (.function (.invalidArgument function.name 0 Json.faultText))

/-! ## The frame -/

/-- The ratio of a circle's circumference to its diameter. -/
def circleRatio : Float := 3.141592653589793

/-- The base of the natural logarithm. -/
def logarithmBase : Float := 2.718281828459045

/-- Makes a function that every script has. -/
def newIntrinsic (function : Intrinsic) : StateM Store Value :=
  modifyGet fun store => store.newFunction (.intrinsic function)

/-- Makes an object that holds functions under their names, after the given entries. -/
def newLibrary (entries : List (String × Value)) (functions : List Intrinsic) :
    StateM Store Value := do
  let members ← functions.mapM fun function => do
    return (function.name, ← newIntrinsic function)
  modifyGet fun store => store.newObject (.ofList (entries ++ members))

/-- The global names that stand for functions. -/
def globalFunctions : List Intrinsic :=
  [.isNaN, .isFinite, .parseFloat, .parseInt, .toNumber, .toText, .toBoolean]

/-- The global names with their values. -/
def globalBindings : StateM Store (Table Value) := do
  let math ← newLibrary [("PI", .number circleRatio), ("E", .number logarithmBase)]
    (MathFunction.all.map Intrinsic.math)
  let console ← newLibrary [] (ConsoleMethod.all.map Intrinsic.console)
  let json ← newLibrary [] [.stringify, .parse]
  let functions ← globalFunctions.mapM fun function => do
    return (function.name, ← newIntrinsic function)
  return .ofList ([("NaN", .number Number.nan), ("Infinity", .number Number.infinity),
    ("Math", math), ("console", console), ("JSON", json)] ++ functions)

/-- Makes an outermost frame with the global names in it. -/
def Store.newGlobals (store : Store) : FrameRef × Store :=
  let (bindings, store) := globalBindings store
  (⟨store.frames.size⟩, { store with frames := store.frames.push ⟨bindings, none⟩ })

/-- The frame of the global names of a machine. -/
def globalFrame : FrameRef := ⟨0⟩

/-- A machine in which nothing has run. -/
def Machine.fresh : Machine :=
  ⟨(Store.empty.newGlobals).2, #[], 0, 0⟩

end Formulary
