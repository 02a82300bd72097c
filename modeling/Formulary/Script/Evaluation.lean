import Formulary.Script.Global
import Formulary.Script.Hoisting
import Formulary.Script.Operator

/-!
# Evaluation

* `Flow` : how a statement ends;
* `Place` : what an assignment writes to;
* `evaluate`, `execute`, `invoke` : expressions, statements and calls, one inside the other;
* `Program.run` : a whole program in a frame.

Each of the three spends one unit of `fuel` on what is inside it, and a loop runs at most `fuel`
rounds, so that fuel bounds how deep and how long a run is. The parts are written around the
evaluation of what is inside them, which they take as an argument.
-/

namespace Formulary

/-- How a statement ends: with a value or without one, or with a jump. -/
inductive Flow where
  | normal (value : Option Value)
  | ret (value : Value)
  | breakLoop
  | continueLoop

/-- The value of a whole script that ends like this. -/
def Flow.completion : Flow → Except EvalError Value
  | normal value => .ok (value.getD .undefined)
  | ret _ => .error (.illegalJump .ret)
  | breakLoop => .error (.illegalJump .breakLoop)
  | continueLoop => .error (.illegalJump .continueLoop)

/-- The value of a call whose body ends like this. -/
def Flow.returned : Flow → Except EvalError Value
  | normal _ => .ok .undefined
  | ret value => .ok value
  | breakLoop => .error (.illegalJump .breakLoop)
  | continueLoop => .error (.illegalJump .continueLoop)

namespace Run

/-! ## Places -/

/-- What an assignment writes to, with its parts evaluated. -/
inductive Place where
  | name (name : String)
  | property (target : Value) (name : String)
  | index (target key : Value)

/-- The answer, or a fault of kinds. -/
def ofFault {α : Type} : Except TypeFault α → Run α
  | .ok a => pure a
  | .error fault => fail (.type fault)

/-- The value of a name seen from a frame. -/
def lookUp (frame : FrameRef) (name : String) : Run Value := do
  match (← store).binding? frame name with
  | some value => return value
  | none => fail (.reference name)

/-- The place that an expression names. -/
def placeOf (eval : Expr → Run Value) : Expr → Run Place
  | .identifier name => return .name name
  | .member target name => return .property (← eval target) name
  | .index target key => do
    let target ← eval target
    return .index target (← eval key)
  | _ => fail .invalidTarget

/-- The value at a place. -/
def readPlace (frame : FrameRef) : Place → Run Value
  | .name name => lookUp frame name
  | .property target name => do ofFault (readProperty (← store) target name)
  | .index target key => do ofFault (readIndexed (← store) target key)

/-- Does a write that is possible. -/
def applyEdit (edit : Edit) : Run Unit :=
  modifyStore fun store => store.apply edit

/-- Writes a value to a place. -/
def writePlace (frame : FrameRef) (value : Value) : Place → Run Unit
  | .name name => modifyStore fun store => store.assign frame name value
  | .property target name => do applyEdit (← ofFault (editProperty target name value))
  | .index target key => do applyEdit (← ofFault (editIndexed (← store) target key value))

/-! ## Expressions around their parts -/

/-- The elements of a new array. -/
def evalArray (eval : Expr → Run Value) (elements : List Expr) : Run Value := do
  newArray (← elements.mapM eval).toArray

/-- The properties of a new object. -/
def evalObject (eval : Expr → Run Value) (properties : List (String × Expr)) : Run Value := do
  let entries ← properties.mapM fun property => do return (property.1, ← eval property.2)
  newObject (.ofList entries)

/-- A property by name. -/
def evalMember (eval : Expr → Run Value) (object : Expr) (name : String) : Run Value := do
  let object ← eval object
  ofFault (readProperty (← store) object name)

/-- A property by key. -/
def evalIndex (eval : Expr → Run Value) (object key : Expr) : Run Value := do
  let object ← eval object
  let key ← eval key
  ofFault (readIndexed (← store) object key)

/-- An operator before its operand. The type of a name without a value is that of undefined. -/
def evalUnary (eval : Expr → Run Value) (frame : FrameRef) (op : UnaryOp) (operand : Expr) :
    Run Value := do
  match op, operand with
  | .typeOf, .identifier name =>
    return .string (((← store).binding? frame name).getD .undefined).typeName
  | op, operand =>
    let value ← eval operand
    return op.apply (← store) value

/-- An operator between two operands. -/
def evalBinary (eval : Expr → Run Value) (op : BinaryOp) (left right : Expr) : Run Value := do
  let left ← eval left
  let right ← eval right
  return op.apply (← store) left right

/-- An operator whose left operand may settle it. -/
def evalLogical (eval : Expr → Run Value) (op : LogicalOp) (left right : Expr) : Run Value := do
  let left ← eval left
  if op.settles left then return left else eval right

/-- A condition and the branch that it selects. -/
def evalConditional (eval : Expr → Run Value) (test consequent alternate : Expr) :
    Run Value := do
  if (← eval test).truth then eval consequent else eval alternate

/-- The value that an assignment writes to a place. -/
def assigned (eval : Expr → Run Value) (frame : FrameRef) (op : AssignOp) (place : Place)
    (value : Expr) : Run Value := do
  match op.binary? with
  | none => eval value
  | some op =>
    let current ← readPlace frame place
    let operand ← eval value
    return op.apply (← store) current operand

/-- An assignment; it has the value that it writes. -/
def evalAssign (eval : Expr → Run Value) (frame : FrameRef) (op : AssignOp)
    (target value : Expr) : Run Value := do
  let place ← placeOf eval target
  let result ← assigned eval frame op place value
  writePlace frame result place
  return result

/-- A step by one; it has the new number or the old one. -/
def evalUpdate (eval : Expr → Run Value) (frame : FrameRef) (op : UpdateOp) (before : Bool)
    (target : Expr) : Run Value := do
  let place ← placeOf eval target
  let current ← readPlace frame place
  let old := current.toNumber (← store)
  let new := op.apply old
  writePlace frame (.number new) place
  return .number (if before then new else old)

/-- A function made in a frame. -/
def evalFunction (frame : FrameRef) (definition : FunctionDef) : Run Value :=
  newFunction (.script definition frame)

/-! ## Calls around their parts -/

/-- How a message names what is called. -/
def calleeName : Expr → String
  | .identifier name => name
  | .function definition => definition.name.getD "anonymous function"
  | _ => "expression"

/-- Calls a value. -/
def callValue (invoke : FunctionRef → List Value → Run Value) (name : String)
    (arguments : List Value) : Value → Run Value
  | .function ref => invoke ref arguments
  | _ => fail (.notCallable name)

/-- Calls the method of a value: one of those that its kind has, or else a function that is its
property. -/
def callMethod (invoke : FunctionRef → List Value → Run Value) (receiver : Value) (name : String)
    (arguments : List Value) : Run Value := do
  match Method.find? receiver name with
  | some method => method.run arguments
  | none => callValue invoke name arguments (← ofFault (readProperty (← store) receiver name))

/-- A call. The callee is evaluated before the arguments and looked at after them. -/
def evalCall (eval : Expr → Run Value) (invoke : FunctionRef → List Value → Run Value)
    (arguments : List Expr) : Expr → Run Value
  | .member object name => do
    let receiver ← eval object
    callMethod invoke receiver name (← arguments.mapM eval)
  | .index object key => do
    let receiver ← eval object
    let key ← eval key
    let name := key.display (← store)
    callMethod invoke receiver name (← arguments.mapM eval)
  | callee => do
    let function ← eval callee
    callValue invoke (calleeName callee) (← arguments.mapM eval) function

/-- Makes the frame of a call: the parameters with their arguments, and all arguments as an array
under a name of its own. -/
def enter (definition : FunctionDef) (scope : FrameRef) (arguments : List Value) :
    Run FrameRef := do
  let frame ← updateStore fun store => store.newFrame (some scope)
  modifyStore fun store => definition.parameters.zipIdx.foldl
    (fun store parameter => store.declare frame parameter.1 (argumentAt arguments parameter.2))
    store
  let list ← newArray arguments.toArray
  modifyStore fun store => store.declare frame "arguments" list
  return frame

/-- Runs the body of a function in a new frame inside `scope`. -/
def callScript (runBody : FrameRef → List Stmt → Run Flow) (definition : FunctionDef)
    (scope : FrameRef) (arguments : List Value) : Run Value := do
  let frame ← enter definition scope arguments
  let flow ← runBody frame definition.body
  ofExcept flow.returned

/-- Calls a built-in function. -/
def callBuiltin (name : String) (function : Builtin) (arguments : List Value) : Run Value := do
  ofFunction (function.call (.ofValues (← store) name arguments))

/-- Calls what a function value stands for. -/
def callCallable (runBody : FrameRef → List Stmt → Run Flow) (arguments : List Value) :
    Callable → Run Value
  | .script definition scope => callScript runBody definition scope arguments
  | .intrinsic function => function.run arguments
  | .builtin name function => callBuiltin name function arguments

/-! ## Statements around their parts -/

/-- Executes statements in order; `completion` is the last value so far. -/
def executeList (exec : Stmt → Run Flow) : List Stmt → Option Value → Run Flow
  | [], completion => return .normal completion
  | statement :: rest, completion => do
    match ← exec statement with
    | .normal value => executeList exec rest (value.or completion)
    | jump => return jump

/-- Executes statements after the names that they declare. -/
def executeBody (exec : Stmt → Run Flow) (frame : FrameRef) (body : List Stmt) : Run Flow := do
  modifyStore fun store => store.hoist frame body
  executeList exec body none

/-- Declares variables in order. One without an initial value keeps the value that it has. -/
def executeDeclaration (eval : Expr → Run Value) (frame : FrameRef) :
    List (String × Option Expr) → Run Unit
  | [] => return ()
  | (name, some initial) :: rest => do
    let value ← eval initial
    modifyStore fun store => store.declare frame name value
    executeDeclaration eval frame rest
  | (name, none) :: rest => do
    modifyStore fun store => store.declareMissing frame name
    executeDeclaration eval frame rest

/-- The value that a `return` gives. -/
def returnValue (eval : Expr → Run Value) : Option Expr → Run Value
  | some value => eval value
  | none => return .undefined

/-- A condition and the branch that it selects. -/
def executeIf (eval : Expr → Run Value) (exec : Stmt → Run Flow) (test : Expr)
    (consequent : Stmt) (alternate : Option Stmt) : Run Flow := do
  if (← eval test).truth then exec consequent
  else
    match alternate with
    | some alternate => exec alternate
    | none => return .normal none

/-- Whether a loop goes on; one without a test does. -/
def loopTest (eval : Expr → Run Value) : Option Expr → Run Bool
  | some test => return (← eval test).truth
  | none => return true

/-- What a loop does between two rounds. -/
def loopStep (eval : Expr → Run Value) : Option Expr → Run Unit
  | some step => do
    let _ ← eval step
    return ()
  | none => return ()

/-- At most `rounds` rounds of a loop; `completion` is the last value so far. -/
def iterate (test : Run Bool) (body : Run Flow) (step : Run Unit) :
    Nat → Option Value → Run Flow
  | 0, _ => throw .outOfFuel
  | rounds + 1, completion => do
    if ← test then
      match ← body with
      | .breakLoop => return .normal completion
      | .ret value => return .ret value
      | .continueLoop =>
        step
        iterate test body step rounds completion
      | .normal value =>
        step
        iterate test body step rounds (value.or completion)
    else return .normal completion

/-- What a loop begins with. How it ends does not matter. -/
def loopStart (exec : Stmt → Run Flow) : Option Stmt → Run Unit
  | some start => do
    let _ ← exec start
    return ()
  | none => return ()

/-! ## Recursion -/

mutual

/-- Evaluates an expression seen from a frame. -/
def evaluate (limit : Nat) : Nat → FrameRef → Expr → Run Value
  | 0, _, _ => throw .outOfFuel
  | fuel + 1, frame, expression => deeper <|
    match expression with
    | .literal literal => return literal.value
    | .identifier name => lookUp frame name
    | .array elements => evalArray (evaluate limit fuel frame) elements
    | .object properties => evalObject (evaluate limit fuel frame) properties
    | .member object name => evalMember (evaluate limit fuel frame) object name
    | .index object key => evalIndex (evaluate limit fuel frame) object key
    | .call callee arguments =>
      evalCall (evaluate limit fuel frame) (invoke limit fuel) arguments callee
    | .unary op operand => evalUnary (evaluate limit fuel frame) frame op operand
    | .binary op left right => evalBinary (evaluate limit fuel frame) op left right
    | .logical op left right => evalLogical (evaluate limit fuel frame) op left right
    | .conditional test consequent alternate =>
      evalConditional (evaluate limit fuel frame) test consequent alternate
    | .assign op target value => evalAssign (evaluate limit fuel frame) frame op target value
    | .update op before target => evalUpdate (evaluate limit fuel frame) frame op before target
    | .function definition => evalFunction frame definition

/-- Executes a statement in a frame. -/
def execute (limit : Nat) : Nat → FrameRef → Stmt → Run Flow
  | 0, _, _ => throw .outOfFuel
  | fuel + 1, frame, statement =>
    match statement with
    | .expression value => do return .normal (some (← evaluate limit fuel frame value))
    | .declaration declarators => do
      executeDeclaration (evaluate limit fuel frame) frame declarators
      return .normal none
    | .function definition => do
      modifyStore fun store => store.declareFunction frame definition
      return .normal none
    | .ret value => do return .ret (← returnValue (evaluate limit fuel frame) value)
    | .ifElse test consequent alternate =>
      executeIf (evaluate limit fuel frame) (execute limit fuel frame) test consequent alternate
    | .whileLoop test body =>
      iterate (loopTest (evaluate limit fuel frame) (some test)) (execute limit fuel frame body)
        (pure ()) fuel none
    | .forLoop start test step body => do
      loopStart (execute limit fuel frame) start
      iterate (loopTest (evaluate limit fuel frame) test) (execute limit fuel frame body)
        (loopStep (evaluate limit fuel frame) step) fuel none
    | .block body => executeList (execute limit fuel frame) body none
    | .breakLoop => return .breakLoop
    | .continueLoop => return .continueLoop
    | .empty => return .normal none

/-- Calls a function inside the active calls. -/
def invoke (limit : Nat) : Nat → FunctionRef → List Value → Run Value
  | 0, _, _ => throw .outOfFuel
  | fuel + 1, ref, arguments => calling limit do
    let callable := (← store).callable ref
    callCallable (fun frame body => executeBody (execute limit fuel frame) frame body) arguments
      callable

end

end Run

/-- Runs a program in a frame. At most `limit` calls may be inside one another. -/
def Program.run (limit fuel : Nat) (frame : FrameRef) (program : Program) : Run Value := do
  let flow ← Run.executeBody (Run.execute limit fuel frame) frame program.body
  Run.ofExcept flow.completion

/-- Runs a program in global names of its own, which are gone afterwards. -/
def Program.runApart (limit fuel : Nat) (program : Program) : Run Value := do
  let frame ← Run.updateStore Store.newGlobals
  let value ← program.run limit fuel frame
  Run.modifyStore fun store => store.clear frame
  return value

end Formulary
