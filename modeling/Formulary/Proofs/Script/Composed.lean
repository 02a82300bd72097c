import Formulary.Script.Evaluation

/-!
# Runs are put together from elementary steps

* `Run.Composed` : runs that look at the store, change it, write messages and count calls and
  expressions, and do nothing else with a machine;
* `Program.composed_run` : every program runs like this (`Run.composed_recursion`);
* `Run.Composed.agree` : what such a run comes to does not depend on the messages written before;
* `Run.Composed.counts` : it leaves the counts of calls and expressions as they were.
-/

namespace Formulary

/-- Machines that differ only in the messages written. -/
structure Machine.Akin (machine other : Machine) : Prop where
  store : machine.store = other.store
  calls : machine.calls = other.calls
  nesting : machine.nesting = other.nesting

namespace Run

/-- Runs that are put together from elementary steps. -/
inductive Composed : {α : Type} → Run α → Prop where
  | pure {α : Type} (a : α) : Composed (pure a)
  | throw {α : Type} (halt : Halt) : Composed (throw halt : Run α)
  | bind {α β : Type} {run : Run α} {next : α → Run β} (first : Composed run)
      (second : ∀ a, Composed (next a)) : Composed (run >>= next)
  | store : Composed store
  | modifyStore (change : Store → Store) : Composed (modifyStore change)
  | updateStore {α : Type} (change : Store → α × Store) : Composed (updateStore change)
  | write (entry : LogEntry) : Composed (write entry)
  | deeper {α : Type} {step : Run α} (inner : Composed step) : Composed (deeper step)
  | calling {α : Type} (limit : Nat) {step : Run α} (inner : Composed step) :
      Composed (calling limit step)

/-! ## What such runs do -/

/-- Runs that have come to the same, and leave machines that differ only in the messages. -/
inductive Agree {α : Type} :
    EStateM.Result Halt Machine α → EStateM.Result Halt Machine α → Prop where
  | ok {a : α} {machine other : Machine} (akin : machine.Akin other) :
      Agree (.ok a machine) (.ok a other)
  | error {halt : Halt} {machine other : Machine} (akin : machine.Akin other) :
      Agree (.error halt machine) (.error halt other)

theorem Agree.restore {α : Type} {result other : EStateM.Result Halt Machine α}
    (agree : Agree result other) (calls nesting : Nat) :
    Agree (restore calls nesting result) (restore calls nesting other) := by
  cases agree with
  | ok akin => exact .ok ⟨akin.store, rfl, rfl⟩
  | error akin => exact .error ⟨akin.store, rfl, rfl⟩

/-- **What a run comes to does not depend on the messages written before it.** -/
theorem Composed.agree {α : Type} {run : Run α} (composed : Composed run) {machine other : Machine}
    (akin : machine.Akin other) : Agree (run machine) (run other) := by
  induction composed generalizing machine other with
  | pure a => exact .ok akin
  | throw halt => exact .error akin
  | bind first second ihFirst ihSecond =>
    rename_i run next
    show Agree (EStateM.bind run next machine) (EStateM.bind run next other)
    have hfirst := ihFirst akin
    unfold EStateM.bind
    generalize run machine = result at *
    generalize run other = result' at *
    cases hfirst with
    | ok hakin => exact ihSecond _ hakin
    | error hakin => exact .error hakin
  | store =>
    show Agree (.ok machine.store machine) (.ok other.store other)
    rw [akin.store]
    exact .ok akin
  | modifyStore change =>
    exact .ok ⟨congrArg change akin.store, akin.calls, akin.nesting⟩
  | updateStore change =>
    obtain ⟨store, log, calls, nesting⟩ := machine
    obtain ⟨_, log', _, _⟩ := other
    obtain ⟨rfl, rfl, rfl⟩ := akin
    exact .ok ⟨rfl, rfl, rfl⟩
  | write entry => exact .ok ⟨akin.store, akin.calls, akin.nesting⟩
  | deeper inner ih =>
    unfold Run.deeper
    dsimp only
    rw [akin.nesting, akin.calls]
    split
    · exact .error akin
    · refine Agree.restore (ih ?_) _ _
      exact ⟨akin.store, rfl, rfl⟩
  | calling limit inner ih =>
    unfold Run.calling
    dsimp only
    rw [akin.nesting, akin.calls]
    split
    · exact .error akin
    · refine Agree.restore (ih ?_) _ _
      exact ⟨akin.store, rfl, rfl⟩

/-- The machine after a run, whether or not it fails. -/
def machineOf {α : Type} : EStateM.Result Halt Machine α → Machine
  | .ok _ machine => machine
  | .error _ machine => machine

/-- **A run leaves the counts of calls and expressions as they were.** -/
theorem Composed.counts {α : Type} {run : Run α} (composed : Composed run) (machine : Machine) :
    (machineOf (run machine)).calls = machine.calls ∧
      (machineOf (run machine)).nesting = machine.nesting := by
  induction composed generalizing machine with
  | pure a => exact ⟨rfl, rfl⟩
  | throw halt => exact ⟨rfl, rfl⟩
  | bind first second ihFirst ihSecond =>
    rename_i run next
    show (machineOf (EStateM.bind run next machine)).calls = _ ∧
      (machineOf (EStateM.bind run next machine)).nesting = _
    have hfirst := ihFirst machine
    unfold EStateM.bind
    generalize run machine = result at *
    cases result with
    | ok a after =>
      exact ⟨(ihSecond a after).1.trans hfirst.1, (ihSecond a after).2.trans hfirst.2⟩
    | error halt after => exact hfirst
  | store => exact ⟨rfl, rfl⟩
  | modifyStore change => exact ⟨rfl, rfl⟩
  | updateStore change => exact ⟨rfl, rfl⟩
  | write entry => exact ⟨rfl, rfl⟩
  | deeper inner ih =>
    rename_i step
    unfold Run.deeper
    dsimp only
    split
    · exact ⟨rfl, rfl⟩
    · cases step { machine with nesting := machine.nesting + 1 } <;> exact ⟨rfl, rfl⟩
  | calling limit inner ih =>
    rename_i step
    unfold Run.calling
    dsimp only
    split
    · exact ⟨rfl, rfl⟩
    · cases step { machine with calls := machine.calls + 1, nesting := 0 } <;> exact ⟨rfl, rfl⟩

/-! ## Runs of programs -/

section Lists

variable {α β : Type}

theorem composed_mapM {step : α → Run β} (h : ∀ a, Composed (step a)) (items : List α) :
    Composed (items.mapM step) := by
  induction items with
  | nil => exact .pure []
  | cons item items ih =>
    rw [List.mapM_cons]
    exact (h item).bind fun _ => ih.bind fun _ => .pure _

end Lists

theorem composed_ofExcept {α : Type} (result : Except EvalError α) :
    Composed (ofExcept result) := by
  cases result with
  | ok a => exact .pure a
  | error e => exact .throw _

theorem ofFault_eq {α : Type} (result : Except TypeFault α) :
    ofFault result = ofExcept (result.mapError EvalError.type) := by
  cases result <;> rfl

theorem ofFunction_eq {α : Type} (result : Except FunctionError α) :
    ofFunction result = ofExcept (result.mapError EvalError.function) := by
  cases result <;> rfl

theorem composed_ofFault {α : Type} (result : Except TypeFault α) : Composed (ofFault result) :=
  ofFault_eq result ▸ composed_ofExcept _

theorem composed_ofFunction {α : Type} (result : Except FunctionError α) :
    Composed (ofFunction result) :=
  ofFunction_eq result ▸ composed_ofExcept _

/-- A run that goes on with what the store holds. -/
theorem composed_inStore {α : Type} {next : Store → Run α} (h : ∀ store, Composed (next store)) :
    Composed (store >>= next) :=
  .bind .store h

/-! ### Methods and functions that every script has -/

theorem composed_arrayMethod (ref : ArrayRef) (arguments : List Value) (method : ArrayMethod) :
    Composed (method.run ref arguments) := by
  cases method with
  | push => exact .bind (.modifyStore _) fun _ => composed_inStore fun _ => .pure _
  | pop => exact composed_inStore fun _ => .bind (.modifyStore _) fun _ => .pure _
  | join => exact composed_inStore fun _ => .pure _
  | indexOf => exact composed_inStore fun _ => .pure _
  | includes => exact composed_inStore fun _ => .pure _
  | slice => exact composed_inStore fun _ => .updateStore _

theorem composed_stringMethod (text : String) (arguments : List Value) (method : StringMethod) :
    Composed (method.run text arguments) := by
  cases method with
  | toUpperCase => exact .pure _
  | toLowerCase => exact .pure _
  | trim => exact .pure _
  | charAt => exact composed_inStore fun _ => .pure _
  | indexOf => exact composed_inStore fun _ => .pure _
  | substring => exact composed_inStore fun _ => .pure _
  | split => exact composed_inStore fun _ => .updateStore _

theorem composed_numberMethod (x : Float) (arguments : List Value) (method : NumberMethod) :
    Composed (method.run x arguments) := by
  cases method with
  | toFixed =>
    refine composed_inStore fun store => ?_
    cases fixedPlaces store (argumentAt arguments 0) with
    | ok places => exact .pure _
    | error fault => exact .throw _
  | toText => exact .pure _

theorem composed_method (arguments : List Value) (method : Method) :
    Composed (method.run arguments) := by
  cases method with
  | array ref method => exact composed_arrayMethod ref arguments method
  | string text method => exact composed_stringMethod text arguments method
  | number x method => exact composed_numberMethod x arguments method

theorem composed_intrinsic (arguments : List Value) (function : Intrinsic) :
    Composed (function.run arguments) := by
  refine composed_inStore fun store => ?_
  cases function with
  | isNaN => exact .pure _
  | isFinite => exact .pure _
  | parseFloat => exact .pure _
  | parseInt => exact .bind (composed_ofFunction _) fun _ => .pure _
  | toNumber => exact .pure _
  | toText => exact .pure _
  | toBoolean => exact .pure _
  | math f => exact .pure _
  | console method => exact .bind (.write _) fun _ => .pure _
  | stringify => exact .bind (composed_ofFunction _) fun _ => .pure _
  | parse =>
    dsimp only
    cases Json.read? ((argumentAt arguments 0).display store) with
    | some json => exact .updateStore _
    | none => exact .throw _

/-! ### Expressions around their parts -/

section Parts

variable {eval : Expr → Run Value} {exec : Stmt → Run Flow}
  {invoke : FunctionRef → List Value → Run Value} {runBody : FrameRef → List Stmt → Run Flow}

theorem composed_lookUp (frame : FrameRef) (name : String) : Composed (lookUp frame name) := by
  refine composed_inStore fun store => ?_
  cases store.binding? frame name with
  | some value => exact .pure _
  | none => exact .throw _

theorem composed_placeOf (h : ∀ e, Composed (eval e)) (target : Expr) :
    Composed (placeOf eval target) := by
  cases target with
  | identifier name => exact .pure _
  | member object name => exact .bind (h object) fun _ => .pure _
  | index object key => exact .bind (h object) fun _ => .bind (h key) fun _ => .pure _
  | _ => exact .throw _

theorem composed_readPlace (frame : FrameRef) (place : Place) :
    Composed (readPlace frame place) := by
  cases place with
  | name name => exact composed_lookUp frame name
  | property target name => exact composed_inStore fun _ => composed_ofFault _
  | index target key => exact composed_inStore fun _ => composed_ofFault _

theorem composed_writePlace (frame : FrameRef) (value : Value) (place : Place) :
    Composed (writePlace frame value place) := by
  cases place with
  | name name => exact .modifyStore fun store => store.assign frame name value
  | property target name => exact .bind (composed_ofFault _) fun _ => .modifyStore _
  | index target key =>
    exact composed_inStore fun _ => .bind (composed_ofFault _) fun _ => .modifyStore _

theorem composed_evalArray (h : ∀ e, Composed (eval e)) (elements : List Expr) :
    Composed (evalArray eval elements) :=
  .bind (composed_mapM h elements) fun _ => .updateStore _

theorem composed_evalObject (h : ∀ e, Composed (eval e)) (properties : List (String × Expr)) :
    Composed (evalObject eval properties) :=
  .bind (composed_mapM (fun property => .bind (h property.2) fun _ => .pure _) properties)
    fun _ => .updateStore _

theorem composed_evalUnary (h : ∀ e, Composed (eval e)) (frame : FrameRef) (op : UnaryOp)
    (operand : Expr) : Composed (evalUnary eval frame op operand) := by
  unfold evalUnary
  split
  · exact composed_inStore fun _ => .pure _
  · exact .bind (h _) fun _ => composed_inStore fun _ => .pure _

theorem composed_evalLogical (h : ∀ e, Composed (eval e)) (op : LogicalOp) (left right : Expr) :
    Composed (evalLogical eval op left right) := by
  refine .bind (h left) fun value => ?_
  split
  · exact .pure _
  · exact h right

theorem composed_evalConditional (h : ∀ e, Composed (eval e))
    (test consequent alternate : Expr) :
    Composed (evalConditional eval test consequent alternate) := by
  refine .bind (h test) fun value => ?_
  split
  · exact h consequent
  · exact h alternate

theorem composed_assigned (h : ∀ e, Composed (eval e)) (frame : FrameRef) (op : AssignOp)
    (place : Place) (value : Expr) : Composed (assigned eval frame op place value) := by
  unfold assigned
  cases op.binary? with
  | none => exact h value
  | some op =>
    exact .bind (composed_readPlace frame place) fun _ => .bind (h value) fun _ =>
      composed_inStore fun _ => .pure _

theorem composed_evalAssign (h : ∀ e, Composed (eval e)) (frame : FrameRef) (op : AssignOp)
    (target value : Expr) : Composed (evalAssign eval frame op target value) :=
  .bind (composed_placeOf h target) fun place =>
    .bind (composed_assigned h frame op place value) fun result =>
      .bind (composed_writePlace frame result place) fun _ => .pure _

theorem composed_evalUpdate (h : ∀ e, Composed (eval e)) (frame : FrameRef) (op : UpdateOp)
    (before : Bool) (target : Expr) : Composed (evalUpdate eval frame op before target) :=
  .bind (composed_placeOf h target) fun place =>
    .bind (composed_readPlace frame place) fun _ => composed_inStore fun _ =>
      .bind (composed_writePlace frame _ place) fun _ => .pure _

/-! ### Calls around their parts -/

theorem composed_callValue (h : ∀ ref arguments, Composed (invoke ref arguments)) (name : String)
    (arguments : List Value) (value : Value) :
    Composed (callValue invoke name arguments value) := by
  cases value with
  | function ref => exact h ref arguments
  | _ => exact .throw _

theorem composed_callMethod (h : ∀ ref arguments, Composed (invoke ref arguments))
    (receiver : Value) (name : String) (arguments : List Value) :
    Composed (callMethod invoke receiver name arguments) := by
  unfold callMethod
  cases Method.find? receiver name with
  | some method => exact composed_method arguments method
  | none =>
    exact composed_inStore fun _ => .bind (composed_ofFault _) fun value =>
      composed_callValue h name arguments value

theorem composed_evalCall (h : ∀ e, Composed (eval e))
    (hinvoke : ∀ ref arguments, Composed (invoke ref arguments)) (arguments : List Expr)
    (callee : Expr) : Composed (evalCall eval invoke arguments callee) := by
  unfold evalCall
  split
  · exact .bind (h _) fun _ => .bind (composed_mapM h arguments) fun _ =>
      composed_callMethod hinvoke _ _ _
  · exact .bind (h _) fun _ => .bind (h _) fun _ => composed_inStore fun _ =>
      .bind (composed_mapM h arguments) fun _ => composed_callMethod hinvoke _ _ _
  · exact .bind (h _) fun _ => .bind (composed_mapM h arguments) fun _ =>
      composed_callValue hinvoke _ _ _

theorem composed_enter (definition : FunctionDef) (scope : FrameRef) (arguments : List Value) :
    Composed (enter definition scope arguments) :=
  .bind (.updateStore _) fun _ => .bind (.modifyStore _) fun _ => .bind (.updateStore _) fun _ =>
    .bind (.modifyStore _) fun _ => .pure _

theorem composed_callCallable (h : ∀ frame body, Composed (runBody frame body))
    (arguments : List Value) (callable : Callable) :
    Composed (callCallable runBody arguments callable) := by
  cases callable with
  | script definition scope =>
    exact .bind (composed_enter definition scope arguments) fun frame =>
      .bind (h frame definition.body) fun flow => composed_ofExcept _
  | intrinsic function => exact composed_intrinsic arguments function
  | builtin name function => exact composed_inStore fun _ => composed_ofFunction _

/-! ### Statements around their parts -/

theorem composed_executeList (h : ∀ s, Composed (exec s)) (body : List Stmt)
    (completion : Option Value) : Composed (executeList exec body completion) := by
  induction body generalizing completion with
  | nil => exact .pure _
  | cons statement rest ih =>
    refine .bind (h statement) fun flow => ?_
    cases flow with
    | normal value => exact ih _
    | _ => exact .pure _

theorem composed_executeBody (h : ∀ s, Composed (exec s)) (frame : FrameRef)
    (body : List Stmt) : Composed (executeBody exec frame body) :=
  .bind (.modifyStore _) fun _ => composed_executeList h body none

theorem composed_executeDeclaration (h : ∀ e, Composed (eval e)) (frame : FrameRef)
    (declarators : List (String × Option Expr)) :
    Composed (executeDeclaration eval frame declarators) := by
  induction declarators with
  | nil => exact .pure _
  | cons declarator rest ih =>
    obtain ⟨name, initial⟩ := declarator
    cases initial with
    | some initial => exact .bind (h initial) fun _ => .bind (.modifyStore _) fun _ => ih
    | none => exact .bind (.modifyStore _) fun _ => ih

theorem composed_returnValue (h : ∀ e, Composed (eval e)) (value : Option Expr) :
    Composed (returnValue eval value) := by
  cases value with
  | some value => exact h value
  | none => exact .pure _

theorem composed_executeIf (h : ∀ e, Composed (eval e)) (hexec : ∀ s, Composed (exec s))
    (test : Expr) (consequent : Stmt) (alternate : Option Stmt) :
    Composed (executeIf eval exec test consequent alternate) := by
  refine .bind (h test) fun value => ?_
  split
  · exact hexec consequent
  · cases alternate with
    | some alternate => exact hexec alternate
    | none => exact .pure _

theorem composed_loopTest (h : ∀ e, Composed (eval e)) (test : Option Expr) :
    Composed (loopTest eval test) := by
  cases test with
  | some test => exact .bind (h test) fun _ => .pure _
  | none => exact .pure _

theorem composed_loopStep (h : ∀ e, Composed (eval e)) (step : Option Expr) :
    Composed (loopStep eval step) := by
  cases step with
  | some step => exact .bind (h step) fun _ => .pure _
  | none => exact .pure _

theorem composed_loopStart (h : ∀ s, Composed (exec s)) (start : Option Stmt) :
    Composed (loopStart exec start) := by
  cases start with
  | some start => exact .bind (h start) fun _ => .pure _
  | none => exact .pure _

theorem composed_iterate {test : Run Bool} {body : Run Flow} {step : Run Unit}
    (htest : Composed test) (hbody : Composed body) (hstep : Composed step) (rounds : Nat)
    (completion : Option Value) : Composed (iterate test body step rounds completion) := by
  induction rounds generalizing completion with
  | zero => exact .throw _
  | succ rounds ih =>
    refine .bind htest fun goesOn => ?_
    split
    · refine .bind hbody fun flow => ?_
      cases flow with
      | normal value => exact .bind hstep fun _ => ih _
      | continueLoop => exact .bind hstep fun _ => ih _
      | _ => exact .pure _
    · exact .pure _

end Parts

/-! ### Recursion -/

section Recursion

variable {limit fuel : Nat} {frame : FrameRef}

theorem composed_evaluate (heval : ∀ e, Composed (evaluate limit fuel frame e))
    (hinvoke : ∀ ref arguments, Composed (invoke limit fuel ref arguments)) (e : Expr) :
    Composed (evaluate limit (fuel + 1) frame e) := by
  refine .deeper ?_
  cases e with
  | literal literal => exact .pure _
  | identifier name => exact composed_lookUp frame name
  | array elements => exact composed_evalArray heval elements
  | object properties => exact composed_evalObject heval properties
  | member object name =>
    exact .bind (heval object) fun _ => composed_inStore fun _ => composed_ofFault _
  | index object key =>
    exact .bind (heval object) fun _ => .bind (heval key) fun _ =>
      composed_inStore fun _ => composed_ofFault _
  | call callee arguments => exact composed_evalCall heval hinvoke arguments callee
  | unary op operand => exact composed_evalUnary heval frame op operand
  | binary op left right =>
    exact .bind (heval left) fun _ => .bind (heval right) fun _ =>
      composed_inStore fun _ => .pure _
  | logical op left right => exact composed_evalLogical heval op left right
  | conditional test consequent alternate =>
    exact composed_evalConditional heval test consequent alternate
  | assign op target value => exact composed_evalAssign heval frame op target value
  | update op before target => exact composed_evalUpdate heval frame op before target
  | function definition =>
    exact .updateStore fun store => store.newFunction (.script definition frame)

theorem composed_execute (heval : ∀ e, Composed (evaluate limit fuel frame e))
    (hexec : ∀ s, Composed (execute limit fuel frame s)) (s : Stmt) :
    Composed (execute limit (fuel + 1) frame s) := by
  cases s with
  | expression value => exact .bind (heval value) fun _ => .pure _
  | declaration declarators =>
    exact .bind (composed_executeDeclaration heval frame declarators) fun _ => .pure _
  | function definition => exact .bind (.modifyStore _) fun _ => .pure _
  | ret value => exact .bind (composed_returnValue heval value) fun _ => .pure _
  | ifElse test consequent alternate =>
    exact composed_executeIf heval hexec test consequent alternate
  | whileLoop test body =>
    exact composed_iterate (composed_loopTest heval (some test)) (hexec body)
      (.pure ()) fuel none
  | forLoop start test step body =>
    exact .bind (composed_loopStart hexec start) fun _ =>
      composed_iterate (composed_loopTest heval test) (hexec body)
        (composed_loopStep heval step) fuel none
  | block body => exact composed_executeList hexec body none
  | breakLoop => exact .pure _
  | continueLoop => exact .pure _
  | empty => exact .pure _

theorem composed_invoke (hexec : ∀ frame s, Composed (execute limit fuel frame s))
    (ref : FunctionRef) (arguments : List Value) :
    Composed (invoke limit (fuel + 1) ref arguments) :=
  .calling limit (composed_inStore fun _ => composed_callCallable
    (fun frame body => composed_executeBody (hexec frame) frame body) arguments _)

end Recursion

/-- **Expressions, statements and calls are put together from elementary steps,** whatever the
fuel. -/
theorem composed_recursion (limit fuel : Nat) :
    (∀ frame e, Composed (evaluate limit fuel frame e)) ∧
    (∀ frame s, Composed (execute limit fuel frame s)) ∧
    (∀ ref arguments, Composed (invoke limit fuel ref arguments)) := by
  induction fuel with
  | zero => exact ⟨fun _ _ => .throw _, fun _ _ => .throw _, fun _ _ => .throw _⟩
  | succ fuel ih =>
    obtain ⟨heval, hexec, hinvoke⟩ := ih
    exact ⟨fun frame => composed_evaluate (heval frame) hinvoke,
      fun frame => composed_execute (heval frame) (hexec frame), composed_invoke hexec⟩

end Run

theorem Program.composed_run (limit fuel : Nat) (frame : FrameRef) (program : Program) :
    Run.Composed (program.run limit fuel frame) :=
  .bind (Run.composed_executeBody ((Run.composed_recursion limit fuel).2.1 frame) frame
    program.body) fun _ => Run.composed_ofExcept _

end Formulary
