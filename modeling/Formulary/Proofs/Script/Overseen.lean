import Formulary.Proofs.Script.Composed
import Formulary.Proofs.Value.Kept
import Formulary.Proofs.Value.Nearest

/-!
# Evaluation around what is inside it

Expressions, statements and calls are run around other ones, and reach names by reading and writing
them. Both are taken as arguments here, so that they can be overseen: a run may look at the machine
whenever something inside it begins, or do something else with a name.

* `Run.Access`, `Run.Evaluator` : how names are reached and how what is inside is run;
* `Run.Evaluator.expression`, `Run.Evaluator.statement`, `Run.Evaluator.call` : one step of
  evaluation;
* `Run.plain_succ` : with fuel left, evaluation is this step around evaluation with less of it;
* `Run.Matches` : runs that are the same from machines of a kind, and leave such a machine;
* `Run.Lasting`, `Store.NamesLast` : kinds of machines that single changes do not leave;
* `Run.matches_expression`, `Run.matches_statement`, `Run.matches_call` : a step matches when what
  is inside does.
-/

namespace Formulary

namespace Run

/-! ## Steps of evaluation -/

/-- How names are reached from a frame. -/
structure Access where
  read : FrameRef → String → Run (Option Value)
  write : FrameRef → String → Value → Run Unit

/-- Names are looked up on the way outwards. -/
def Access.plain : Access where
  read frame name := do return (← store).binding? frame name
  write frame name value := modifyStore fun store => store.assign frame name value

namespace Access

variable (access : Access) (eval : Expr → Run Value) (frame : FrameRef)

/-- The value of a name. -/
def lookUp (name : String) : Run Value := do
  match ← access.read frame name with
  | some value => return value
  | none => fail (.reference name)

/-- The value at a place. -/
def readPlace : Place → Run Value
  | .name name => access.lookUp frame name
  | place => Run.readPlace frame place

/-- Writes a value to a place. -/
def writePlace (value : Value) : Place → Run Unit
  | .name name => access.write frame name value
  | place => Run.writePlace frame value place

/-- An operator before its operand. -/
def evalUnary (op : UnaryOp) (operand : Expr) : Run Value := do
  match op, operand with
  | .typeOf, .identifier name =>
    return .string ((← access.read frame name).getD .undefined).typeName
  | op, operand =>
    let value ← eval operand
    return op.apply (← store) value

/-- The value that an assignment writes to a place. -/
def assigned (op : AssignOp) (place : Place) (value : Expr) : Run Value := do
  match op.binary? with
  | none => eval value
  | some op =>
    let current ← access.readPlace frame place
    let operand ← eval value
    return op.apply (← store) current operand

/-- An assignment. -/
def evalAssign (op : AssignOp) (target value : Expr) : Run Value := do
  let place ← placeOf eval target
  let result ← access.assigned eval frame op place value
  access.writePlace frame result place
  return result

/-- A step by one. -/
def evalUpdate (op : UpdateOp) (before : Bool) (target : Expr) : Run Value := do
  let place ← placeOf eval target
  let current ← access.readPlace frame place
  let old := current.toNumber (← store)
  let new := op.apply old
  access.writePlace frame (.number new) place
  return .number (if before then new else old)

end Access

/-- How expressions, statements and calls are run. -/
structure Evaluator where
  evaluate : FrameRef → Expr → Run Value
  execute : FrameRef → Stmt → Run Flow
  invoke : FunctionRef → List Value → Run Value

namespace Evaluator

/-- Evaluation with some fuel. -/
def plain (limit fuel : Nat) : Evaluator :=
  ⟨Run.evaluate limit fuel, Run.execute limit fuel, Run.invoke limit fuel⟩

/-- Nothing can be run. -/
def exhausted : Evaluator :=
  ⟨fun _ _ => throw .outOfFuel, fun _ _ => throw .outOfFuel, fun _ _ => throw .outOfFuel⟩

variable (inside : Evaluator)

/-- An expression, without being counted. -/
def expression (access : Access) (frame : FrameRef) : Expr → Run Value
  | .literal literal => return literal.value
  | .identifier name => access.lookUp frame name
  | .array elements => evalArray (inside.evaluate frame) elements
  | .object properties => evalObject (inside.evaluate frame) properties
  | .member object name => evalMember (inside.evaluate frame) object name
  | .index object key => evalIndex (inside.evaluate frame) object key
  | .call callee arguments => evalCall (inside.evaluate frame) inside.invoke arguments callee
  | .unary op operand => access.evalUnary (inside.evaluate frame) frame op operand
  | .binary op left right => evalBinary (inside.evaluate frame) op left right
  | .logical op left right => evalLogical (inside.evaluate frame) op left right
  | .conditional test consequent alternate =>
    evalConditional (inside.evaluate frame) test consequent alternate
  | .assign op target value => access.evalAssign (inside.evaluate frame) frame op target value
  | .update op before target => access.evalUpdate (inside.evaluate frame) frame op before target
  | .function definition => evalFunction frame definition

/-- A statement; a loop runs at most some rounds. -/
def statement (rounds : Nat) (frame : FrameRef) : Stmt → Run Flow
  | .expression value => do return .normal (some (← inside.evaluate frame value))
  | .declaration declarators => do
    executeDeclaration (inside.evaluate frame) frame declarators
    return .normal none
  | .function definition => do
    modifyStore fun store => store.declareFunction frame definition
    return .normal none
  | .ret value => do return .ret (← returnValue (inside.evaluate frame) value)
  | .ifElse test consequent alternate =>
    executeIf (inside.evaluate frame) (inside.execute frame) test consequent alternate
  | .whileLoop test body =>
    iterate (loopTest (inside.evaluate frame) (some test)) (inside.execute frame body) (pure ())
      rounds none
  | .forLoop start test step body => do
    loopStart (inside.execute frame) start
    iterate (loopTest (inside.evaluate frame) test) (inside.execute frame body)
      (loopStep (inside.evaluate frame) step) rounds none
  | .block body => executeList (inside.execute frame) body none
  | .breakLoop => return .breakLoop
  | .continueLoop => return .continueLoop
  | .empty => return .normal none

/-- A call, without being counted. -/
def call (ref : FunctionRef) (arguments : List Value) : Run Value := do
  let callable := (← store).callable ref
  callCallable (fun frame body => executeBody (inside.execute frame) frame body) arguments callable

end Evaluator

theorem Access.readPlace_plain (frame : FrameRef) :
    Access.plain.readPlace frame = Run.readPlace frame := by
  funext place
  cases place <;> rfl

theorem Access.writePlace_plain (frame : FrameRef) (value : Value) :
    Access.plain.writePlace frame value = Run.writePlace frame value := by
  funext place
  cases place <;> rfl

theorem Access.evalAssign_plain (eval : Expr → Run Value) (frame : FrameRef) (op : AssignOp)
    (target value : Expr) :
    Access.plain.evalAssign eval frame op target value =
      Run.evalAssign eval frame op target value := by
  unfold Access.evalAssign Access.assigned
  simp only [readPlace_plain, writePlace_plain]
  rfl

theorem Access.evalUpdate_plain (eval : Expr → Run Value) (frame : FrameRef) (op : UpdateOp)
    (before : Bool) (target : Expr) :
    Access.plain.evalUpdate eval frame op before target =
      Run.evalUpdate eval frame op before target := by
  unfold Access.evalUpdate
  simp only [readPlace_plain, writePlace_plain]
  rfl

theorem Access.evalUnary_plain (eval : Expr → Run Value) (frame : FrameRef) (op : UnaryOp)
    (operand : Expr) :
    Access.plain.evalUnary eval frame op operand = Run.evalUnary eval frame op operand := by
  cases op <;> cases operand <;> rfl

/-- **With fuel left, evaluation is one step around evaluation with less of it.** -/
theorem plain_succ (limit fuel : Nat) :
    Evaluator.plain limit (fuel + 1) =
      { evaluate := fun frame e =>
          deeper ((Evaluator.plain limit fuel).expression .plain frame e)
        execute := fun frame s => (Evaluator.plain limit fuel).statement fuel frame s
        invoke := fun ref arguments =>
          calling limit ((Evaluator.plain limit fuel).call ref arguments) } := by
  refine congr (congr (congrArg Evaluator.mk ?_) ?_) ?_
  · funext frame e
    unfold evaluate
    cases e with
    | unary op operand =>
      exact congrArg deeper (Access.evalUnary_plain _ frame op operand).symm
    | assign op target value =>
      exact congrArg deeper (Access.evalAssign_plain _ frame op target value).symm
    | update op before target =>
      exact congrArg deeper (Access.evalUpdate_plain _ frame op before target).symm
    | _ => rfl
  · funext frame s
    unfold execute
    cases s <;> rfl
  · funext ref arguments
    unfold invoke
    rfl

end Run

/-! ## Names that last -/

/-- Whether every frame of a store has the names in another one that it has in this one. -/
def Store.NamesLast (store later : Store) : Prop :=
  ∀ ref name, store.hasOwn ref name = true → later.hasOwn ref name = true

namespace Store

variable {store later last : Store}

theorem namesLast_refl (store : Store) : store.NamesLast store :=
  fun _ _ h => h

theorem NamesLast.trans (first : store.NamesLast later) (second : later.NamesLast last) :
    store.NamesLast last :=
  fun ref name h => second ref name (first ref name h)

/-- Nothing but frames has names. -/
theorem namesLast_of_frames (h : later.frames = store.frames) : store.NamesLast later := by
  intro ref name hname
  unfold hasOwn ownBinding? frame at hname ⊢
  rwa [h]

/-- A frame that has a name has been made. -/
theorem lt_of_hasOwn {ref : FrameRef} {name : String} (h : store.hasOwn ref name = true) :
    ref.index < store.frames.size := by
  refine Nat.lt_of_not_le fun hle => ?_
  rw [hasOwn, ownBinding?, frame_of_le hle] at h
  cases h

theorem namesLast_of_keeps (keeps : store.Keeps [] later) : store.NamesLast later := by
  intro ref name h
  rw [hasOwn, keeps.binding ref name (lt_of_hasOwn h) fun _ hmem => absurd hmem List.not_mem_nil]
  exact h

theorem namesLast_declare (store : Store) (target : FrameRef) (name : String) (value : Value) :
    store.NamesLast (store.declare target name value) := by
  intro ref other h
  show (((store.modifyFrame target _).frame ref).bindings.get? other).isSome = true
  rw [frame_modifyFrame _ _ (lt_of_hasOwn h)]
  split
  · rw [Table.get?_put]
    split
    · rfl
    · exact h
  · exact h

theorem namesLast_assign (store : Store) (ref : FrameRef) (name : String) (value : Value) :
    store.NamesLast (store.assign ref name value) :=
  store.namesLast_declare _ name value

theorem namesLast_declareMissing (store : Store) (target : FrameRef) (name : String) :
    store.NamesLast (store.declareMissing target name) := by
  unfold declareMissing
  split
  · exact store.namesLast_refl
  · exact store.namesLast_declare target name .undefined

theorem namesLast_foldl {α : Type} {change : Store → α → Store}
    (h : ∀ (store : Store) (item : α), store.NamesLast (change store item)) (items : List α)
    (store : Store) : store.NamesLast (items.foldl change store) := by
  induction items generalizing store with
  | nil => exact store.namesLast_refl
  | cons item items ih => exact (h store item).trans (ih (change store item))

theorem namesLast_declareFunction (store : Store) (target : FrameRef) (definition : FunctionDef) :
    store.NamesLast (store.declareFunction target definition) := by
  unfold declareFunction
  split
  · exact (namesLast_of_frames rfl).trans (namesLast_declare _ target _ _)
  · exact store.namesLast_refl

theorem namesLast_hoist (store : Store) (target : FrameRef) (body : List Stmt) :
    store.NamesLast (store.hoist target body) := by
  refine namesLast_foldl (fun store s => ?_) body store
  cases s with
  | function definition => exact store.namesLast_declareFunction target definition
  | _ => exact namesLast_foldl (fun store name => store.namesLast_declareMissing target name) _ _

theorem namesLast_newFrame (store : Store) (parent : Option FrameRef) :
    store.NamesLast (store.newFrame parent).2 := by
  intro ref name h
  rw [hasOwn, ownBinding?, frame_newFrame, if_neg (Nat.ne_of_lt (lt_of_hasOwn h))]
  exact h

theorem namesLast_apply (store : Store) (edit : Edit) : store.NamesLast (store.apply edit) := by
  cases edit <;> exact namesLast_of_frames rfl

end Store

namespace Run

/-! ## Runs that match -/

/-- Whether two runs are the same from machines of a kind, and leave a machine of this kind whether
or not they fail. -/
def Matches (P : Machine → Prop) {α : Type} (run other : Run α) : Prop :=
  ∀ machine, P machine → other machine = run machine ∧ P (machineOf (run machine))

/-- Whether a kind of machines is not left when messages are written and when a store changes whose
names last. -/
structure Lasting (P : Machine → Prop) : Prop where
  store : ∀ machine store, P machine → machine.store.NamesLast store →
    P { machine with store := store }
  log : ∀ machine log, P machine → P { machine with log := log }

section Steps

variable {P : Machine → Prop} {α β : Type}

theorem matches_pure (a : α) : Matches P (pure a) (pure a) :=
  fun _ h => ⟨rfl, h⟩

theorem matches_throw (halt : Halt) : Matches P (throw halt : Run α) (throw halt) :=
  fun _ h => ⟨rfl, h⟩

theorem Matches.bind {run other : Run α} {next next' : α → Run β} (first : Matches P run other)
    (second : ∀ a, Matches P (next a) (next' a)) :
    Matches P (run >>= next) (other >>= next') := by
  intro machine h
  obtain ⟨hsame, hafter⟩ := first machine h
  show EStateM.bind other next' machine = EStateM.bind run next machine ∧
    P (machineOf (EStateM.bind run next machine))
  unfold EStateM.bind
  rw [hsame]
  cases hrun : run machine with
  | ok a after =>
    rw [hrun] at hafter
    exact second a after hafter
  | error halt after =>
    rw [hrun] at hafter
    exact ⟨rfl, hafter⟩

/-- Runs that go on with what the store holds. -/
theorem matches_inStore {next next' : Store → Run α}
    (h : ∀ store, Matches P (next store) (next' store)) :
    Matches P (store >>= next) (store >>= next') :=
  fun machine => h machine.store machine

theorem matches_mapM {step step' : α → Run β} (h : ∀ a, Matches P (step a) (step' a))
    (items : List α) : Matches P (items.mapM step) (items.mapM step') := by
  induction items with
  | nil => exact matches_pure _
  | cons item items ih =>
    rw [List.mapM_cons, List.mapM_cons]
    exact (h item).bind fun _ => ih.bind fun _ => matches_pure _

theorem matches_ofExcept (result : Except EvalError α) :
    Matches P (ofExcept result) (ofExcept result) := by
  cases result with
  | ok a => exact matches_pure a
  | error e => exact matches_throw _

theorem matches_ofFault (result : Except TypeFault α) :
    Matches P (ofFault result) (ofFault result) :=
  ofFault_eq result ▸ matches_ofExcept _

theorem matches_ofFunction (result : Except FunctionError α) :
    Matches P (ofFunction result) (ofFunction result) :=
  ofFunction_eq result ▸ matches_ofExcept _

end Steps

section Parts

variable {P : Machine → Prop} (lasting : Lasting P)

include lasting

theorem matches_modifyStore {change : Store → Store}
    (h : ∀ store : Store, store.NamesLast (change store)) :
    Matches P (modifyStore change) (modifyStore change) :=
  fun machine hmachine => ⟨rfl, lasting.store machine _ hmachine (h machine.store)⟩

theorem matches_updateStore {α : Type} {change : Store → α × Store}
    (h : ∀ store : Store, store.NamesLast (change store).2) :
    Matches P (updateStore change) (updateStore change) :=
  fun ⟨store, log, calls, nesting⟩ hmachine =>
    ⟨rfl, lasting.store ⟨store, log, calls, nesting⟩ _ hmachine (h store)⟩

theorem matches_newArray (items : Array Value) :
    Matches P (newArray items) (newArray items) :=
  matches_updateStore lasting fun _ => Store.namesLast_of_frames rfl

theorem matches_newObject (properties : Table Value) :
    Matches P (newObject properties) (newObject properties) :=
  matches_updateStore lasting fun _ => Store.namesLast_of_frames rfl

theorem matches_newFunction (callable : Callable) :
    Matches P (newFunction callable) (newFunction callable) :=
  matches_updateStore lasting fun _ => Store.namesLast_of_frames rfl

/-! ### Methods and functions that every script has -/

theorem matches_arrayMethod (ref : ArrayRef) (arguments : List Value) (method : ArrayMethod) :
    Matches P (method.run ref arguments) (method.run ref arguments) := by
  have hmodify (change : Array Value → Array Value) :
      Matches P (modifyStore fun store => store.modifyElements ref change)
        (modifyStore fun store => store.modifyElements ref change) :=
    matches_modifyStore lasting fun store => Store.namesLast_of_frames rfl
  cases method with
  | push => exact (hmodify _).bind fun _ => matches_inStore fun _ => matches_pure _
  | pop => exact matches_inStore fun _ => (hmodify _).bind fun _ => matches_pure _
  | slice => exact matches_inStore fun _ => matches_newArray lasting _
  | _ => exact matches_inStore fun _ => matches_pure _

theorem matches_stringMethod (text : String) (arguments : List Value) (method : StringMethod) :
    Matches P (method.run text arguments) (method.run text arguments) := by
  cases method with
  | toUpperCase => exact matches_pure _
  | toLowerCase => exact matches_pure _
  | trim => exact matches_pure _
  | split => exact matches_inStore fun _ => matches_newArray lasting _
  | _ => exact matches_inStore fun _ => matches_pure _

omit lasting in
theorem matches_numberMethod (x : Float) (arguments : List Value) (method : NumberMethod) :
    Matches P (method.run x arguments) (method.run x arguments) := by
  cases method with
  | toFixed =>
    refine matches_inStore fun store => ?_
    cases fixedPlaces store (argumentAt arguments 0) with
    | ok places => exact matches_pure _
    | error fault => exact matches_throw _
  | toText => exact matches_pure _

theorem matches_method (arguments : List Value) (method : Method) :
    Matches P (method.run arguments) (method.run arguments) := by
  cases method with
  | array ref method => exact matches_arrayMethod lasting ref arguments method
  | string text method => exact matches_stringMethod lasting text arguments method
  | number x method => exact matches_numberMethod x arguments method

theorem matches_intrinsic (arguments : List Value) (function : Intrinsic) :
    Matches P (function.run arguments) (function.run arguments) := by
  refine matches_inStore fun store => ?_
  cases function with
  | parseInt => exact (matches_ofFunction _).bind fun _ => matches_pure _
  | console method =>
    have hwrite (entry : LogEntry) : Matches P (write entry) (write entry) :=
      fun machine h => ⟨rfl, lasting.log machine _ h⟩
    exact (hwrite _).bind fun _ => matches_pure _
  | stringify => exact (matches_ofFunction _).bind fun _ => matches_pure _
  | parse =>
    dsimp only
    cases Json.read? ((argumentAt arguments 0).display store) with
    | some json =>
      exact matches_updateStore lasting fun store =>
        Store.namesLast_of_keeps (store.keeps_ofJson json)
    | none => exact matches_throw _
  | _ => exact matches_pure _

end Parts

/-! ### Expressions around their parts -/

/-- Whether names are reached in the same way. -/
structure Access.Matches (P : Machine → Prop) (access other : Access) : Prop where
  read : ∀ frame name, Run.Matches P (access.read frame name) (other.read frame name)
  write : ∀ frame name value,
    Run.Matches P (access.write frame name value) (other.write frame name value)

section Expressions

variable {P : Machine → Prop} {access access' : Access} {eval eval' : Expr → Run Value}
  {frame : FrameRef}

theorem Access.matches_plain (lasting : Lasting P) : Access.plain.Matches P .plain where
  read _ _ := matches_inStore fun _ => matches_pure _
  write frame name value := matches_modifyStore lasting fun store =>
    store.namesLast_assign frame name value

theorem matches_placeOf (h : ∀ e, Matches P (eval e) (eval' e)) (target : Expr) :
    Matches P (placeOf eval target) (placeOf eval' target) := by
  cases target with
  | identifier name => exact matches_pure _
  | member object name => exact (h object).bind fun _ => matches_pure _
  | index object key => exact (h object).bind fun _ => (h key).bind fun _ => matches_pure _
  | _ => exact matches_throw _

theorem matches_lookUp (haccess : access.Matches P access') (name : String) :
    Matches P (access.lookUp frame name) (access'.lookUp frame name) := by
  refine (haccess.read frame name).bind fun value => ?_
  cases value with
  | some value => exact matches_pure value
  | none => exact matches_throw _

theorem matches_readPlace (haccess : access.Matches P access') (place : Place) :
    Matches P (access.readPlace frame place) (access'.readPlace frame place) := by
  cases place with
  | name name => exact matches_lookUp haccess name
  | property target name => exact matches_inStore fun _ => matches_ofFault _
  | index target key => exact matches_inStore fun _ => matches_ofFault _

theorem matches_writePlace (lasting : Lasting P) (haccess : access.Matches P access')
    (value : Value) (place : Place) :
    Matches P (access.writePlace frame value place) (access'.writePlace frame value place) := by
  have hedit (edit : Edit) : Matches P (applyEdit edit) (applyEdit edit) :=
    matches_modifyStore lasting fun store => store.namesLast_apply edit
  cases place with
  | name name => exact haccess.write frame name value
  | property target name => exact (matches_ofFault _).bind hedit
  | index target key => exact matches_inStore fun _ => (matches_ofFault _).bind hedit

theorem matches_evalUnary (haccess : access.Matches P access')
    (h : ∀ e, Matches P (eval e) (eval' e)) (op : UnaryOp) (operand : Expr) :
    Matches P (access.evalUnary eval frame op operand)
      (access'.evalUnary eval' frame op operand) := by
  unfold Access.evalUnary
  split
  · exact (haccess.read frame _).bind fun _ => matches_pure _
  · exact (h _).bind fun _ => matches_inStore fun _ => matches_pure _

theorem matches_assigned (haccess : access.Matches P access')
    (h : ∀ e, Matches P (eval e) (eval' e)) (op : AssignOp) (place : Place) (value : Expr) :
    Matches P (access.assigned eval frame op place value)
      (access'.assigned eval' frame op place value) := by
  unfold Access.assigned
  cases op.binary? with
  | none => exact h value
  | some op =>
    exact (matches_readPlace haccess place).bind fun _ => (h value).bind fun _ =>
      matches_inStore fun _ => matches_pure _

theorem matches_evalAssign (lasting : Lasting P) (haccess : access.Matches P access')
    (h : ∀ e, Matches P (eval e) (eval' e)) (op : AssignOp) (target value : Expr) :
    Matches P (access.evalAssign eval frame op target value)
      (access'.evalAssign eval' frame op target value) :=
  (matches_placeOf h target).bind fun place =>
    (matches_assigned haccess h op place value).bind fun result =>
      (matches_writePlace lasting haccess result place).bind fun _ => matches_pure _

theorem matches_evalUpdate (lasting : Lasting P) (haccess : access.Matches P access')
    (h : ∀ e, Matches P (eval e) (eval' e)) (op : UpdateOp) (before : Bool) (target : Expr) :
    Matches P (access.evalUpdate eval frame op before target)
      (access'.evalUpdate eval' frame op before target) :=
  (matches_placeOf h target).bind fun place =>
    (matches_readPlace haccess place).bind fun _ => matches_inStore fun _ =>
      (matches_writePlace lasting haccess _ place).bind fun _ => matches_pure _

theorem matches_evalArray (lasting : Lasting P) (h : ∀ e, Matches P (eval e) (eval' e))
    (elements : List Expr) : Matches P (evalArray eval elements) (evalArray eval' elements) :=
  (matches_mapM h elements).bind fun _ => matches_newArray lasting _

theorem matches_evalObject (lasting : Lasting P) (h : ∀ e, Matches P (eval e) (eval' e))
    (properties : List (String × Expr)) :
    Matches P (evalObject eval properties) (evalObject eval' properties) := by
  refine (matches_mapM (fun property => ?_) properties).bind fun _ => matches_newObject lasting _
  exact (h property.2).bind fun _ => matches_pure _

theorem matches_evalLogical (h : ∀ e, Matches P (eval e) (eval' e)) (op : LogicalOp)
    (left right : Expr) :
    Matches P (evalLogical eval op left right) (evalLogical eval' op left right) := by
  refine (h left).bind fun value => ?_
  split
  · exact matches_pure _
  · exact h right

theorem matches_evalConditional (h : ∀ e, Matches P (eval e) (eval' e))
    (test consequent alternate : Expr) :
    Matches P (evalConditional eval test consequent alternate)
      (evalConditional eval' test consequent alternate) := by
  refine (h test).bind fun value => ?_
  split
  · exact h consequent
  · exact h alternate

end Expressions

/-! ### Calls around their parts -/

section Calls

variable {P : Machine → Prop} (lasting : Lasting P) {eval eval' : Expr → Run Value}
  {invoke invoke' : FunctionRef → List Value → Run Value}
  {runBody runBody' : FrameRef → List Stmt → Run Flow}

theorem matches_callValue
    (h : ∀ ref arguments, Matches P (invoke ref arguments) (invoke' ref arguments))
    (name : String) (arguments : List Value) (value : Value) :
    Matches P (callValue invoke name arguments value)
      (callValue invoke' name arguments value) := by
  cases value with
  | function ref => exact h ref arguments
  | _ => exact matches_throw _

include lasting

theorem matches_callMethod
    (h : ∀ ref arguments, Matches P (invoke ref arguments) (invoke' ref arguments))
    (receiver : Value) (name : String) (arguments : List Value) :
    Matches P (callMethod invoke receiver name arguments)
      (callMethod invoke' receiver name arguments) := by
  unfold callMethod
  cases Method.find? receiver name with
  | some method => exact matches_method lasting arguments method
  | none =>
    exact matches_inStore fun _ => (matches_ofFault _).bind fun value =>
      matches_callValue h name arguments value

theorem matches_evalCall (h : ∀ e, Matches P (eval e) (eval' e))
    (hinvoke : ∀ ref arguments, Matches P (invoke ref arguments) (invoke' ref arguments))
    (arguments : List Expr) (callee : Expr) :
    Matches P (evalCall eval invoke arguments callee)
      (evalCall eval' invoke' arguments callee) := by
  unfold evalCall
  split
  · exact (h _).bind fun _ => (matches_mapM h arguments).bind fun _ =>
      matches_callMethod lasting hinvoke _ _ _
  · exact (h _).bind fun _ => (h _).bind fun _ => matches_inStore fun _ =>
      (matches_mapM h arguments).bind fun _ => matches_callMethod lasting hinvoke _ _ _
  · exact (h _).bind fun _ => (matches_mapM h arguments).bind fun _ =>
      matches_callValue hinvoke _ _ _

theorem matches_enter (definition : FunctionDef) (scope : FrameRef) (arguments : List Value) :
    Matches P (enter definition scope arguments) (enter definition scope arguments) := by
  refine (matches_updateStore lasting fun store => store.namesLast_newFrame _).bind fun frame => ?_
  refine (matches_modifyStore lasting fun store => ?_).bind fun _ => ?_
  · exact Store.namesLast_foldl (fun store _ => store.namesLast_declare frame _ _) _ store
  · exact (matches_newArray lasting _).bind fun list =>
      (matches_modifyStore lasting fun store => store.namesLast_declare frame _ list).bind
        fun _ => matches_pure frame

theorem matches_callCallable
    (h : ∀ frame body, Matches P (runBody frame body) (runBody' frame body))
    (arguments : List Value) (callable : Callable) :
    Matches P (callCallable runBody arguments callable)
      (callCallable runBody' arguments callable) := by
  cases callable with
  | script definition scope =>
    exact (matches_enter lasting definition scope arguments).bind fun frame =>
      (h frame definition.body).bind fun flow => matches_ofExcept _
  | intrinsic function => exact matches_intrinsic lasting arguments function
  | builtin name function => exact matches_inStore fun _ => matches_ofFunction _

end Calls

/-! ### Statements around their parts -/

section Statements

variable {P : Machine → Prop} {eval eval' : Expr → Run Value} {exec exec' : Stmt → Run Flow}

theorem matches_executeList (h : ∀ s, Matches P (exec s) (exec' s)) (body : List Stmt)
    (completion : Option Value) :
    Matches P (executeList exec body completion) (executeList exec' body completion) := by
  induction body generalizing completion with
  | nil => exact matches_pure _
  | cons statement rest ih =>
    refine (h statement).bind fun flow => ?_
    cases flow with
    | normal value => exact ih _
    | _ => exact matches_pure _

theorem matches_executeBody (lasting : Lasting P) (h : ∀ s, Matches P (exec s) (exec' s))
    (frame : FrameRef) (body : List Stmt) :
    Matches P (executeBody exec frame body) (executeBody exec' frame body) :=
  (matches_modifyStore lasting fun store => store.namesLast_hoist frame body).bind fun _ =>
    matches_executeList h body none

theorem matches_executeDeclaration (lasting : Lasting P) (h : ∀ e, Matches P (eval e) (eval' e))
    (frame : FrameRef) (declarators : List (String × Option Expr)) :
    Matches P (executeDeclaration eval frame declarators)
      (executeDeclaration eval' frame declarators) := by
  induction declarators with
  | nil => exact matches_pure _
  | cons declarator rest ih =>
    obtain ⟨name, initial⟩ := declarator
    cases initial with
    | some initial =>
      exact (h initial).bind fun value =>
        (matches_modifyStore lasting fun store => store.namesLast_declare frame name value).bind
          fun _ => ih
    | none =>
      exact (matches_modifyStore lasting fun store =>
        store.namesLast_declareMissing frame name).bind fun _ => ih

theorem matches_returnValue (h : ∀ e, Matches P (eval e) (eval' e)) (value : Option Expr) :
    Matches P (returnValue eval value) (returnValue eval' value) := by
  cases value with
  | some value => exact h value
  | none => exact matches_pure _

theorem matches_executeIf (h : ∀ e, Matches P (eval e) (eval' e))
    (hexec : ∀ s, Matches P (exec s) (exec' s)) (test : Expr) (consequent : Stmt)
    (alternate : Option Stmt) :
    Matches P (executeIf eval exec test consequent alternate)
      (executeIf eval' exec' test consequent alternate) := by
  refine (h test).bind fun value => ?_
  split
  · exact hexec consequent
  · cases alternate with
    | some alternate => exact hexec alternate
    | none => exact matches_pure _

theorem matches_loopTest (h : ∀ e, Matches P (eval e) (eval' e)) (test : Option Expr) :
    Matches P (loopTest eval test) (loopTest eval' test) := by
  cases test with
  | some test => exact (h test).bind fun _ => matches_pure _
  | none => exact matches_pure _

theorem matches_loopStep (h : ∀ e, Matches P (eval e) (eval' e)) (step : Option Expr) :
    Matches P (loopStep eval step) (loopStep eval' step) := by
  cases step with
  | some step => exact (h step).bind fun _ => matches_pure _
  | none => exact matches_pure _

theorem matches_loopStart (h : ∀ s, Matches P (exec s) (exec' s)) (start : Option Stmt) :
    Matches P (loopStart exec start) (loopStart exec' start) := by
  cases start with
  | some start => exact (h start).bind fun _ => matches_pure _
  | none => exact matches_pure _

theorem matches_iterate {test test' : Run Bool} {body body' : Run Flow} {step step' : Run Unit}
    (htest : Matches P test test') (hbody : Matches P body body') (hstep : Matches P step step')
    (rounds : Nat) (completion : Option Value) :
    Matches P (iterate test body step rounds completion)
      (iterate test' body' step' rounds completion) := by
  induction rounds generalizing completion with
  | zero => exact matches_throw _
  | succ rounds ih =>
    refine htest.bind fun goesOn => ?_
    split
    · refine hbody.bind fun flow => ?_
      cases flow with
      | normal value => exact hstep.bind fun _ => ih _
      | continueLoop => exact hstep.bind fun _ => ih _
      | _ => exact matches_pure _
    · exact matches_pure _

end Statements

/-! ### Steps of evaluation -/

/-- Whether expressions, statements and calls are run in the same way. -/
structure Evaluator.Matches (P : Machine → Prop) (evaluator other : Evaluator) : Prop where
  evaluate : ∀ frame e, Run.Matches P (evaluator.evaluate frame e) (other.evaluate frame e)
  execute : ∀ frame s, Run.Matches P (evaluator.execute frame s) (other.execute frame s)
  invoke : ∀ ref arguments,
    Run.Matches P (evaluator.invoke ref arguments) (other.invoke ref arguments)

section Evaluators

variable {P : Machine → Prop} {inside inside' : Evaluator}

theorem matches_exhausted : Evaluator.exhausted.Matches P .exhausted :=
  ⟨fun _ _ => matches_throw _, fun _ _ => matches_throw _, fun _ _ => matches_throw _⟩

variable (lasting : Lasting P) (h : inside.Matches P inside')

include lasting h

theorem matches_expression {access access' : Access} (haccess : access.Matches P access')
    (frame : FrameRef) (e : Expr) :
    Matches P (inside.expression access frame e) (inside'.expression access' frame e) := by
  have heval := h.evaluate frame
  cases e with
  | literal literal => exact matches_pure _
  | identifier name => exact matches_lookUp haccess name
  | array elements => exact matches_evalArray lasting heval elements
  | object properties => exact matches_evalObject lasting heval properties
  | member object name =>
    exact (heval object).bind fun _ => matches_inStore fun _ => matches_ofFault _
  | index object key =>
    exact (heval object).bind fun _ => (heval key).bind fun _ =>
      matches_inStore fun _ => matches_ofFault _
  | call callee arguments => exact matches_evalCall lasting heval h.invoke arguments callee
  | unary op operand => exact matches_evalUnary haccess heval op operand
  | binary op left right =>
    exact (heval left).bind fun _ => (heval right).bind fun _ =>
      matches_inStore fun _ => matches_pure _
  | logical op left right => exact matches_evalLogical heval op left right
  | conditional test consequent alternate =>
    exact matches_evalConditional heval test consequent alternate
  | assign op target value => exact matches_evalAssign lasting haccess heval op target value
  | update op before target => exact matches_evalUpdate lasting haccess heval op before target
  | function definition => exact matches_newFunction lasting _

theorem matches_statement (rounds : Nat) (frame : FrameRef) (s : Stmt) :
    Matches P (inside.statement rounds frame s) (inside'.statement rounds frame s) := by
  have heval := h.evaluate frame
  have hexec := h.execute frame
  cases s with
  | expression value => exact (heval value).bind fun _ => matches_pure _
  | declaration declarators =>
    exact (matches_executeDeclaration lasting heval frame declarators).bind
      fun _ => matches_pure _
  | function definition =>
    exact (matches_modifyStore lasting fun store =>
      store.namesLast_declareFunction frame definition).bind fun _ => matches_pure _
  | ret value => exact (matches_returnValue heval value).bind fun _ => matches_pure _
  | ifElse test consequent alternate =>
    exact matches_executeIf heval hexec test consequent alternate
  | whileLoop test body =>
    exact matches_iterate (matches_loopTest heval (some test)) (hexec body) (matches_pure ())
      rounds none
  | forLoop start test step body =>
    exact (matches_loopStart hexec start).bind fun _ =>
      matches_iterate (matches_loopTest heval test) (hexec body) (matches_loopStep heval step)
        rounds none
  | block body => exact matches_executeList hexec body none
  | _ => exact matches_pure _

theorem matches_call (ref : FunctionRef) (arguments : List Value) :
    Matches P (inside.call ref arguments) (inside'.call ref arguments) :=
  matches_inStore fun _ => matches_callCallable lasting
    (fun frame body => matches_executeBody lasting (h.execute frame) frame body) arguments _

end Evaluators

end Run

end Formulary
