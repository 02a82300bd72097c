import Formulary.Proofs.Script.Composed
import Formulary.Proofs.Script.Flawless

/-!
# Runs that do not end because of flaws

* `Machine.Fit` : machines whose functions lack some flaws, with a number of active expressions;
* `Run.Spares` : runs that leave such machines fit and do not end because of those flaws;
* `Run.Spares.bind`, `Run.Spares.deeper`, `Run.Spares.calling` : steps that are of this kind;
* `Run.spares_recursion` : expressions, statements and calls that lack the flaws are;
* `Program.spares_run` : so is a program.
-/

namespace Formulary

/-- Machines whose functions lack some flaws, where `level` expressions are active. -/
structure Machine.Fit (flaws : Set Flaw) (level : Nat) (machine : Machine) : Prop where
  store : machine.store.Holds (Callable.Flawless flaws)
  nesting : machine.nesting = level

namespace Run

/-- Results that are as stated or are failures for other reasons than some flaws, and machines that
are fit in both cases. -/
inductive Spared (flaws : Set Flaw) (level : Nat) {α : Type} (post : α → Prop) :
    EStateM.Result Halt Machine α → Prop where
  | ok {a : α} {machine : Machine} (fit : machine.Fit flaws level) (value : post a) :
      Spared flaws level post (.ok a machine)
  | error {halt : Halt} {machine : Machine} (fit : machine.Fit flaws level)
      (spares : halt.Spares flaws) : Spared flaws level post (.error halt machine)

/-- Whether a run in a machine that is fit comes to such a result. -/
def Spares (flaws : Set Flaw) (level : Nat) {α : Type} (run : Run α) (post : α → Prop) : Prop :=
  ∀ machine : Machine, machine.Fit flaws level → Spared flaws level post (run machine)

/-- Whether a run is of this kind whatever it answers. -/
abbrev Sparing (flaws : Set Flaw) (level : Nat) {α : Type} (run : Run α) : Prop :=
  Spares flaws level run fun _ => True

/-! ## Elementary steps -/

section Steps

variable {flaws : Set Flaw} {level : Nat} {α β : Type} {post : α → Prop} {post' : β → Prop}

theorem Spared.restore {inner : Nat} {result : EStateM.Result Halt Machine α}
    (h : Spared flaws inner post result) (calls : Nat) :
    Spared flaws level post (restore calls level result) := by
  cases h with
  | ok fit value => exact .ok ⟨fit.store, rfl⟩ value
  | error fit spares => exact .error ⟨fit.store, rfl⟩ spares

namespace Spares

theorem pure {a : α} (h : post a) : Spares flaws level (pure a) post :=
  fun _ fit => .ok fit h

theorem throw {halt : Halt} (h : halt.Spares flaws) :
    Spares flaws level (throw halt : Run α) post :=
  fun _ fit => .error fit h

/-- A failure that comes of no flaw. -/
theorem fail {error : EvalError} (h : error.flaw? = none) :
    Spares flaws level (fail error : Run α) post := by
  refine throw fun flaw hflaw => ?_
  rw [Halt.flaw?, h] at hflaw
  cases hflaw

theorem bind {run : Run α} {next : α → Run β} (first : Spares flaws level run post)
    (second : ∀ a, post a → Spares flaws level (next a) post') :
    Spares flaws level (run >>= next) post' := by
  intro machine fit
  show Spared _ _ _ (EStateM.bind run next machine)
  have hfirst := first machine fit
  unfold EStateM.bind
  generalize run machine = result at *
  cases hfirst with
  | ok hfit value => exact second _ value _ hfit
  | error hfit spares => exact .error hfit spares

theorem imp {run : Run α} {weaker : α → Prop} (h : Spares flaws level run post)
    (himp : ∀ a, post a → weaker a) : Spares flaws level run weaker := by
  intro machine fit
  have hrun := h machine fit
  generalize run machine = result at *
  cases hrun with
  | ok hfit value => exact .ok hfit (himp _ value)
  | error hfit spares => exact .error hfit spares

theorem inStore {next : Store → Run α}
    (h : ∀ store : Store, store.Holds (Callable.Flawless flaws) →
      Spares flaws level (next store) post) :
    Spares flaws level (store >>= next) post :=
  fun machine fit => h machine.store fit.store machine fit

theorem modifyStore {change : Store → Store}
    (h : ∀ store : Store, store.Holds (Callable.Flawless flaws) →
      (change store).Holds (Callable.Flawless flaws)) :
    Sparing flaws level (modifyStore change) :=
  fun machine fit => .ok ⟨h machine.store fit.store, fit.nesting⟩ trivial

theorem updateStore {change : Store → α × Store}
    (h : ∀ store : Store, store.Holds (Callable.Flawless flaws) →
      (change store).2.Holds (Callable.Flawless flaws)) :
    Sparing flaws level (updateStore change) :=
  fun ⟨store, _, _, _⟩ fit => .ok ⟨h store fit.store, fit.nesting⟩ trivial

theorem write (entry : LogEntry) : Sparing flaws level (write entry) :=
  fun _ fit => .ok ⟨fit.store, fit.nesting⟩ trivial

/-- One more expression may be active while the limit is not reached. -/
theorem deeper {run : Run α} (h : Spares flaws (level + 1) run post)
    (room : .depth ∈ flaws → level < nestingLimit) : Spares flaws level (deeper run) post := by
  intro machine fit
  unfold Run.deeper
  dsimp only
  rw [fit.nesting]
  split
  · next hfull =>
    refine .error fit fun flaw hflaw => ?_
    cases hflaw
    exact fun hdepth => absurd (room hdepth) (Nat.not_lt.mpr hfull)
  · exact (h { machine with nesting := level + 1 } ⟨fit.store, rfl⟩).restore _

/-- No expression is active where a call begins. -/
theorem calling {run : Run α} (h : Spares flaws 0 run post) (limit : Nat) :
    Spares flaws level (calling limit run) post := by
  intro machine fit
  unfold Run.calling
  dsimp only
  rw [fit.nesting]
  split
  · exact .error fit fun flaw hflaw => nomatch hflaw
  · exact (h { machine with calls := machine.calls + 1, nesting := 0 } ⟨fit.store, rfl⟩).restore _

theorem newArray (items : Array Value) : Sparing flaws level (newArray items) :=
  updateStore fun _ holds => holds

theorem newObject (properties : Table Value) : Sparing flaws level (newObject properties) :=
  updateStore fun _ holds => holds

end Spares

theorem sparing_mapM {step : α → Run β} {items : List α}
    (h : ∀ item ∈ items, Sparing flaws level (step item)) :
    Sparing flaws level (items.mapM step) := by
  induction items with
  | nil => exact .pure trivial
  | cons item items ih =>
    obtain ⟨hfirst, hrest⟩ := List.forall_mem_cons.mp h
    rw [List.mapM_cons]
    exact hfirst.bind fun _ _ => (ih hrest).bind fun _ _ => .pure trivial

theorem sparing_ofFault (result : Except TypeFault α) : Sparing flaws level (ofFault result) := by
  cases result with
  | ok a => exact .pure trivial
  | error fault => exact .fail rfl

theorem sparing_ofFunction (result : Except FunctionError α) :
    Sparing flaws level (ofFunction result) := by
  cases result with
  | ok a => exact .pure trivial
  | error e => exact .fail rfl

end Steps

/-! ## Methods and functions that every script has -/

section Natives

variable {flaws : Set Flaw} {level : Nat}

/-- A run that answers with what its store says. -/
theorem sparing_inStore_pure {α : Type} (value : Store → α) :
    Sparing flaws level (do return value (← store)) :=
  .inStore fun _ _ => .pure trivial

theorem sparing_arrayMethod (ref : ArrayRef) (arguments : List Value) (method : ArrayMethod) :
    Sparing flaws level (method.run ref arguments) := by
  cases method with
  | push => exact .bind (.modifyStore fun _ holds => holds) fun _ _ => sparing_inStore_pure _
  | pop =>
    exact .inStore fun _ _ => .bind (.modifyStore fun _ holds => holds) fun _ _ => .pure trivial
  | slice => exact .inStore fun _ _ => .newArray _
  | _ => exact sparing_inStore_pure _

theorem sparing_stringMethod (text : String) (arguments : List Value) (method : StringMethod) :
    Sparing flaws level (method.run text arguments) := by
  cases method with
  | split => exact .inStore fun _ _ => .newArray _
  | charAt => exact sparing_inStore_pure _
  | indexOf => exact sparing_inStore_pure _
  | substring => exact sparing_inStore_pure _
  | _ => exact .pure trivial

theorem sparing_numberMethod (x : Float) (arguments : List Value) (method : NumberMethod) :
    Sparing flaws level (method.run x arguments) := by
  cases method with
  | toFixed =>
    refine .inStore fun store _ => ?_
    cases fixedPlaces store (argumentAt arguments 0) with
    | ok places => exact .pure trivial
    | error fault => exact .fail rfl
  | toText => exact .pure trivial

theorem sparing_method (arguments : List Value) (method : Method) :
    Sparing flaws level (method.run arguments) := by
  cases method with
  | array ref method => exact sparing_arrayMethod ref arguments method
  | string text method => exact sparing_stringMethod text arguments method
  | number x method => exact sparing_numberMethod x arguments method

theorem sparing_intrinsic (arguments : List Value) (function : Intrinsic) :
    Sparing flaws level (function.run arguments) := by
  refine .inStore fun store _ => ?_
  cases function with
  | parseInt => exact .bind (sparing_ofFunction _) fun _ _ => .pure trivial
  | console method => exact .bind (.write _) fun _ _ => .pure trivial
  | stringify => exact .bind (sparing_ofFunction _) fun _ _ => .pure trivial
  | parse =>
    dsimp only
    cases Json.read? ((argumentAt arguments 0).display store) with
    | some json => exact .updateStore fun _ holds => holds.ofJson json
    | none => exact .fail rfl
  | _ => exact .pure trivial

end Natives

/-! ## Expressions around their parts -/

section Expressions

variable {flaws : Set Flaw} {level : Nat} {eval : Expr → Run Value} {frame : FrameRef}

/-- Whether expressions that lack the flaws do not end because of them. -/
def EvaluatesSparing (flaws : Set Flaw) (level : Nat) (eval : Expr → Run Value) : Prop :=
  ∀ e : Expr, e.Fits flaws level → Sparing flaws level (eval e)

theorem sparing_lookUp (name : String) : Sparing flaws level (lookUp frame name) := by
  refine .inStore fun store _ => ?_
  cases store.binding? frame name with
  | some value => exact .pure trivial
  | none => exact .fail rfl

theorem sparing_placeOf (heval : EvaluatesSparing flaws level eval) {target : Expr}
    (h : target.Fits flaws level) (assignable : .target ∈ flaws → target.isAssignable = true) :
    Sparing flaws level (placeOf eval target) := by
  cases target with
  | identifier name => exact .pure trivial
  | member target name =>
    exact .bind (heval target (h.inner _ (by simp [Expr.parts]))) fun _ _ => .pure trivial
  | index target key =>
    exact .bind (heval target (h.inner _ (by simp [Expr.parts]))) fun _ _ =>
      .bind (heval key (h.inner _ (by simp [Expr.parts]))) fun _ _ => .pure trivial
  | _ =>
    refine .throw fun flaw hflaw => ?_
    cases hflaw
    exact fun htarget => Bool.noConfusion (assignable htarget)

theorem sparing_readPlace (place : Place) : Sparing flaws level (readPlace frame place) := by
  cases place with
  | name name => exact sparing_lookUp name
  | property target name => exact .inStore fun _ _ => sparing_ofFault _
  | index target key => exact .inStore fun _ _ => sparing_ofFault _

theorem sparing_applyEdit (edit : Edit) : Sparing flaws level (applyEdit edit) :=
  .modifyStore fun _ holds => holds.apply edit

theorem sparing_writePlace (value : Value) (place : Place) :
    Sparing flaws level (writePlace frame value place) := by
  cases place with
  | name name =>
    show Sparing flaws level (modifyStore fun store => store.assign frame name value)
    exact .modifyStore fun _ holds => holds
  | property target name => exact .bind (sparing_ofFault _) fun edit _ => sparing_applyEdit edit
  | index target key =>
    exact .inStore fun _ _ => .bind (sparing_ofFault _) fun edit _ => sparing_applyEdit edit

theorem sparing_evalUnary (heval : EvaluatesSparing flaws level eval) (op : UnaryOp)
    {operand : Expr} (h : operand.Fits flaws level) :
    Sparing flaws level (evalUnary eval frame op operand) := by
  unfold evalUnary
  split
  · exact sparing_inStore_pure _
  · exact .bind (heval _ h) fun _ _ => sparing_inStore_pure _

theorem sparing_evalLogical (heval : EvaluatesSparing flaws level eval) (op : LogicalOp)
    {left right : Expr} (hleft : left.Fits flaws level) (hright : right.Fits flaws level) :
    Sparing flaws level (evalLogical eval op left right) := by
  refine .bind (heval left hleft) fun value _ => ?_
  split
  · exact .pure trivial
  · exact heval right hright

theorem sparing_evalConditional (heval : EvaluatesSparing flaws level eval)
    {test consequent alternate : Expr} (htest : test.Fits flaws level)
    (hconsequent : consequent.Fits flaws level) (halternate : alternate.Fits flaws level) :
    Sparing flaws level (evalConditional eval test consequent alternate) := by
  refine .bind (heval test htest) fun value _ => ?_
  split
  · exact heval consequent hconsequent
  · exact heval alternate halternate

theorem sparing_assigned (heval : EvaluatesSparing flaws level eval) (op : AssignOp)
    (place : Place) {value : Expr} (h : value.Fits flaws level) :
    Sparing flaws level (assigned eval frame op place value) := by
  unfold assigned
  cases op.binary? with
  | none => exact heval value h
  | some op =>
    exact .bind (sparing_readPlace place) fun _ _ => .bind (heval value h) fun _ _ =>
      sparing_inStore_pure _

theorem sparing_evalAssign (heval : EvaluatesSparing flaws level eval) (op : AssignOp)
    {target value : Expr} (htarget : target.Fits flaws level)
    (assignable : .target ∈ flaws → target.isAssignable = true)
    (hvalue : value.Fits flaws level) :
    Sparing flaws level (evalAssign eval frame op target value) :=
  .bind (sparing_placeOf heval htarget assignable) fun place _ =>
    .bind (sparing_assigned heval op place hvalue) fun result _ =>
      .bind (sparing_writePlace result place) fun _ _ => .pure trivial

theorem sparing_evalUpdate (heval : EvaluatesSparing flaws level eval) (op : UpdateOp)
    (before : Bool) {target : Expr} (htarget : target.Fits flaws level)
    (assignable : .target ∈ flaws → target.isAssignable = true) :
    Sparing flaws level (evalUpdate eval frame op before target) :=
  .bind (sparing_placeOf heval htarget assignable) fun place _ =>
    .bind (sparing_readPlace place) fun _ _ => .inStore fun _ _ =>
      .bind (sparing_writePlace _ place) fun _ _ => .pure trivial

/-! ## Calls around their parts -/

variable {invoke : FunctionRef → List Value → Run Value}

theorem sparing_callValue (hinvoke : ∀ ref arguments, Sparing flaws level (invoke ref arguments))
    (name : String) (arguments : List Value) (value : Value) :
    Sparing flaws level (callValue invoke name arguments value) := by
  cases value with
  | function ref => exact hinvoke ref arguments
  | _ => exact .fail rfl

theorem sparing_callMethod
    (hinvoke : ∀ ref arguments, Sparing flaws level (invoke ref arguments)) (receiver : Value)
    (name : String) (arguments : List Value) :
    Sparing flaws level (callMethod invoke receiver name arguments) := by
  unfold callMethod
  cases Method.find? receiver name with
  | some method => exact sparing_method arguments method
  | none =>
    exact .inStore fun _ _ => .bind (sparing_ofFault _) fun value _ =>
      sparing_callValue hinvoke name arguments value

theorem sparing_evalCall (heval : EvaluatesSparing flaws level eval)
    (hinvoke : ∀ ref arguments, Sparing flaws level (invoke ref arguments))
    {arguments : List Expr} {callee : Expr} (hcallee : callee.Fits flaws level)
    (harguments : ∀ e ∈ arguments, e.Fits flaws level) :
    Sparing flaws level (evalCall eval invoke arguments callee) := by
  have hmapM : Sparing flaws level (arguments.mapM eval) :=
    sparing_mapM fun e he => heval e (harguments e he)
  unfold evalCall
  split
  · exact .bind (heval _ (hcallee.inner _ (by simp [Expr.parts]))) fun _ _ =>
      .bind hmapM fun _ _ => sparing_callMethod hinvoke _ _ _
  · exact .bind (heval _ (hcallee.inner _ (by simp [Expr.parts]))) fun _ _ =>
      .bind (heval _ (hcallee.inner _ (by simp [Expr.parts]))) fun _ _ => .inStore fun _ _ =>
        .bind hmapM fun _ _ => sparing_callMethod hinvoke _ _ _
  · exact .bind (heval _ hcallee) fun _ _ => .bind hmapM fun _ _ =>
      sparing_callValue hinvoke _ _ _

end Expressions

/-! ## Bodies of functions -/

/-- Whether a statement ends with one of some jumps, if with any. -/
def Within (flaws : Set Flaw) (jumps : List Jump) (flow : Flow) : Prop :=
  .jump ∈ flaws → ∀ jump ∈ flow.jump?, jump ∈ jumps

section Statements

variable {flaws : Set Flaw} {level : Nat} {eval : Expr → Run Value} {exec : Stmt → Run Flow}
  {frame : FrameRef} {jumps jumps' : List Jump}

theorem within_normal (value : Option Value) : Within flaws jumps (.normal value) :=
  fun _ _ h => nomatch h

theorem Within.mono {flow : Flow} (h : Within flaws jumps flow) (sub : jumps ⊆ jumps') :
    Within flaws jumps' flow :=
  fun hjump jump hmem => sub (h hjump jump hmem)

/-- A jump that may not happen does not end a run. -/
theorem spares_illegalJump {α : Type} {post : α → Prop} {flow : Flow} {jump : Jump}
    (h : Within flaws jumps flow) (hflow : flow.jump? = some jump)
    (apart : .jump ∈ flaws → jump ∉ jumps) :
    Spares flaws level (fail (.illegalJump jump) : Run α) post := by
  refine .throw fun flaw hflaw => ?_
  cases hflaw
  exact fun hjump => apart hjump (h hjump jump hflow)

theorem sparing_returned {definition : FunctionDef} (hdefinition : definition.Flawless flaws)
    {flow : Flow} (h : Within flaws (jumpsOfBody definition.body) flow) :
    Sparing flaws level (ofExcept flow.returned) := by
  have apart : ∀ jump, jump ≠ .ret → .jump ∈ flaws → jump ∉ jumpsOfBody definition.body :=
    fun jump hne hjump hmem => hne (hdefinition.jump hjump jump hmem)
  cases flow with
  | normal value => exact .pure trivial
  | ret value => exact .pure trivial
  | breakLoop => exact spares_illegalJump h rfl (apart _ (by decide))
  | continueLoop => exact spares_illegalJump h rfl (apart _ (by decide))

theorem sparing_completion {program : Program} (hprogram : program.Flawless flaws) {flow : Flow}
    (h : Within flaws (jumpsOfBody program.body) flow) :
    Sparing flaws level (ofExcept flow.completion) := by
  have apart : ∀ jump, .jump ∈ flaws → jump ∉ jumpsOfBody program.body :=
    fun jump hjump hmem => by
      rw [hprogram.jump hjump] at hmem
      cases hmem
  cases flow with
  | normal value => exact .pure trivial
  | ret value => exact spares_illegalJump h rfl (apart _)
  | breakLoop => exact spares_illegalJump h rfl (apart _)
  | continueLoop => exact spares_illegalJump h rfl (apart _)

/-- Whether bodies that lack the flaws do not end because of them. -/
def RunsSparing (flaws : Set Flaw) (runBody : FrameRef → List Stmt → Run Flow) : Prop :=
  ∀ frame body, (∀ s ∈ body, s.Flawless flaws) →
    Spares flaws 0 (runBody frame body) (Within flaws (jumpsOfBody body))

theorem sparing_enter (definition : FunctionDef) (scope : FrameRef) (arguments : List Value) :
    Sparing flaws level (enter definition scope arguments) :=
  .bind (.updateStore fun _ holds => holds) fun _ _ =>
    .bind (.modifyStore fun _ holds => holds.declareArguments _ _ _) fun _ _ =>
      .bind (.newArray _) fun _ _ => .bind (.modifyStore fun _ holds => holds) fun _ _ =>
        .pure trivial

theorem sparing_callCallable {runBody : FrameRef → List Stmt → Run Flow}
    (hbody : RunsSparing flaws runBody) (arguments : List Value) {callable : Callable}
    (h : callable.Flawless flaws) : Sparing flaws 0 (callCallable runBody arguments callable) := by
  cases callable with
  | script definition scope =>
    have hdefinition : definition.Flawless flaws := h
    exact .bind (sparing_enter definition scope arguments) fun frame _ =>
      .bind (hbody frame definition.body hdefinition.body) fun flow hflow =>
        sparing_returned hdefinition hflow
  | intrinsic function => exact sparing_intrinsic arguments function
  | builtin name function => exact .inStore fun _ _ => sparing_ofFunction _

/-! ## Statements around their parts -/

/-- Whether statements that lack the flaws do not end because of them. -/
def ExecutesSparing (flaws : Set Flaw) (exec : Stmt → Run Flow) : Prop :=
  ∀ s : Stmt, s.Flawless flaws → Spares flaws 0 (exec s) (Within flaws s.jumps)

theorem spares_executeList (hexec : ExecutesSparing flaws exec) {body : List Stmt}
    (h : ∀ s ∈ body, s.Flawless flaws) (completion : Option Value) :
    Spares flaws 0 (executeList exec body completion) (Within flaws (jumpsOfBody body)) := by
  induction body generalizing completion with
  | nil => exact .pure (within_normal _)
  | cons statement rest ih =>
    obtain ⟨hfirst, hrest⟩ := List.forall_mem_cons.mp h
    refine .bind (hexec statement hfirst) fun flow hflow => ?_
    have hjump : Within flaws (jumpsOfBody (statement :: rest)) flow :=
      hflow.mono (List.subset_append_left _ _)
    cases flow with
    | normal value =>
      exact (ih hrest _).imp fun _ hrest => hrest.mono (List.subset_append_right _ _)
    | ret value => exact .pure hjump
    | breakLoop => exact .pure hjump
    | continueLoop => exact .pure hjump

theorem spares_executeBody (hexec : ExecutesSparing flaws exec) {body : List Stmt}
    (h : ∀ s ∈ body, s.Flawless flaws) :
    Spares flaws 0 (executeBody exec frame body) (Within flaws (jumpsOfBody body)) :=
  .bind (.modifyStore fun _ holds => holds.hoist fun _ hmem => (h _ hmem).function) fun _ _ =>
    spares_executeList hexec h none

theorem sparing_executeDeclaration (heval : EvaluatesSparing flaws level eval)
    {declarators : List (String × Option Expr)}
    (h : ∀ e ∈ declarators.filterMap Prod.snd, e.Fits flaws level) :
    Sparing flaws level (executeDeclaration eval frame declarators) := by
  induction declarators with
  | nil => exact .pure trivial
  | cons declarator rest ih =>
    obtain ⟨name, initial⟩ := declarator
    cases initial with
    | some initial =>
      obtain ⟨hinitial, hrest⟩ := List.forall_mem_cons.mp h
      exact .bind (heval initial hinitial) fun _ _ =>
        .bind (.modifyStore fun _ holds => holds) fun _ _ => ih hrest
    | none =>
      exact .bind (.modifyStore fun _ holds => holds.declareMissing frame name) fun _ _ => ih h

/-- The value that is returned, the test of a loop and its step are optional expressions. -/
theorem sparing_ofOption (heval : EvaluatesSparing flaws level eval) {e : Option Expr}
    (h : ∀ inner ∈ e.toList, inner.Fits flaws level) :
    Sparing flaws level (returnValue eval e) ∧ Sparing flaws level (loopTest eval e) ∧
      Sparing flaws level (loopStep eval e) := by
  cases e with
  | some e =>
    have he := heval e (h e List.mem_cons_self)
    exact ⟨he, .bind he fun _ _ => .pure trivial, .bind he fun _ _ => .pure trivial⟩
  | none => exact ⟨.pure trivial, .pure trivial, .pure trivial⟩

theorem sparing_loopStart (hexec : ExecutesSparing flaws exec) {start : Option Stmt}
    (h : ∀ s ∈ start.toList, s.Flawless flaws) : Sparing flaws 0 (loopStart exec start) := by
  cases start with
  | some start => exact .bind (hexec start (h start List.mem_cons_self)) fun _ _ => .pure trivial
  | none => exact .pure trivial

theorem spares_executeIf (heval : EvaluatesSparing flaws 0 eval)
    (hexec : ExecutesSparing flaws exec) {test : Expr} {consequent : Stmt}
    {alternate : Option Stmt} (htest : test.Fits flaws 0)
    (h : ∀ s ∈ (Stmt.ifElse test consequent alternate).parts, s.Flawless flaws) :
    Spares flaws 0 (executeIf eval exec test consequent alternate)
      (Within flaws (Stmt.ifElse test consequent alternate).jumps) := by
  obtain ⟨hconsequent, halternate⟩ := List.forall_mem_cons.mp h
  refine .bind (heval test htest) fun value _ => ?_
  split
  · exact (hexec consequent hconsequent).imp fun _ hflow =>
      hflow.mono (by simp)
  · cases alternate with
    | some alternate =>
      exact (hexec alternate (halternate alternate List.mem_cons_self)).imp fun _ hflow =>
        hflow.mono (by simp [jumpsOfBranch])
    | none => exact .pure (within_normal _)

/-- Only `return` goes on behind a loop. -/
theorem spares_iterate {test : Run Bool} {body : Run Flow} {step : Run Unit}
    (htest : Sparing flaws 0 test) (hbody : Spares flaws 0 body (Within flaws jumps))
    (hstep : Sparing flaws 0 step) (rounds : Nat) (completion : Option Value) :
    Spares flaws 0 (iterate test body step rounds completion)
      (Within flaws (jumps.filter (· = .ret))) := by
  induction rounds generalizing completion with
  | zero => exact .throw fun _ h => nomatch h
  | succ rounds ih =>
    refine .bind htest fun goesOn _ => ?_
    split
    · refine .bind hbody fun flow hflow => ?_
      cases flow with
      | normal value => exact .bind hstep fun _ _ => ih _
      | continueLoop => exact .bind hstep fun _ _ => ih _
      | breakLoop => exact .pure (within_normal _)
      | ret value =>
        refine .pure fun hjump jump hmem => ?_
        cases hmem
        exact List.mem_filter.mpr ⟨hflow hjump .ret rfl, rfl⟩
    · exact .pure (within_normal _)

end Statements

/-! ## Recursion -/

section Recursion

variable {flaws : Set Flaw} {limit fuel : Nat} {frame : FrameRef}

theorem sparing_evaluate
    (heval : ∀ level, EvaluatesSparing flaws level (evaluate limit fuel frame))
    (hinvoke : ∀ level ref arguments, Sparing flaws level (invoke limit fuel ref arguments))
    (level : Nat) : EvaluatesSparing flaws level (evaluate limit (fuel + 1) frame) := by
  intro e h
  refine .deeper ?_ fun hdepth => Nat.lt_of_lt_of_le (Nat.lt_add_of_pos_right e.depth_pos)
    (h.depth hdepth)
  have hparts := h.parts
  replace heval := heval (level + 1)
  cases e with
  | literal literal => exact .pure trivial
  | identifier name => exact sparing_lookUp name
  | array elements =>
    exact .bind (sparing_mapM fun e he => heval e (hparts e he)) fun _ _ => .newArray _
  | object properties =>
    refine .bind (sparing_mapM fun property hmem => ?_) fun _ _ => .newObject _
    exact .bind (heval property.2 (hparts _ (List.mem_map_of_mem hmem))) fun _ _ => .pure trivial
  | member object name =>
    exact .bind (heval object (List.forall_mem_singleton.mp hparts)) fun _ _ =>
      .inStore fun _ _ => sparing_ofFault _
  | index object key =>
    exact .bind (heval object (hparts _ (by simp [Expr.parts]))) fun _ _ =>
      .bind (heval key (hparts _ (by simp [Expr.parts]))) fun _ _ =>
        .inStore fun _ _ => sparing_ofFault _
  | call callee arguments =>
    obtain ⟨hcallee, harguments⟩ := List.forall_mem_cons.mp hparts
    exact sparing_evalCall heval (hinvoke _) hcallee harguments
  | unary op operand => exact sparing_evalUnary heval op (List.forall_mem_singleton.mp hparts)
  | binary op left right =>
    exact .bind (heval left (hparts _ (by simp [Expr.parts]))) fun _ _ =>
      .bind (heval right (hparts _ (by simp [Expr.parts]))) fun _ _ => sparing_inStore_pure _
  | logical op left right =>
    exact sparing_evalLogical heval op (hparts _ (by simp [Expr.parts]))
      (hparts _ (by simp [Expr.parts]))
  | conditional test consequent alternate =>
    exact sparing_evalConditional heval (hparts _ (by simp [Expr.parts]))
      (hparts _ (by simp [Expr.parts])) (hparts _ (by simp [Expr.parts]))
  | assign op target value =>
    exact sparing_evalAssign heval op (hparts _ (by simp [Expr.parts])) h.all.node
      (hparts _ (by simp [Expr.parts]))
  | update op before target =>
    exact sparing_evalUpdate heval op before (List.forall_mem_singleton.mp hparts) h.all.node
  | function definition =>
    have hcallable : (Callable.script definition frame).Flawless flaws := h.function
    exact .updateStore fun _ holds => holds.newFunction hcallable

theorem spares_execute (heval : EvaluatesSparing flaws 0 (evaluate limit fuel frame))
    (hexec : ExecutesSparing flaws (execute limit fuel frame)) :
    ExecutesSparing flaws (execute limit (fuel + 1) frame) := by
  intro s h
  have hroots := h.fits
  have hparts := h.parts
  cases s with
  | expression value =>
    exact .bind (heval value (List.forall_mem_singleton.mp hroots)) fun _ _ =>
      .pure (within_normal _)
  | declaration declarators =>
    exact .bind (sparing_executeDeclaration heval hroots) fun _ _ => .pure (within_normal _)
  | function definition =>
    exact .bind (.modifyStore fun _ holds => holds.declareFunction h.function) fun _ _ =>
      .pure (within_normal _)
  | ret value =>
    refine .bind (sparing_ofOption heval hroots).1 fun _ _ => .pure fun _ jump hmem => ?_
    cases hmem
    exact List.mem_cons_self
  | ifElse test consequent alternate =>
    exact spares_executeIf heval hexec (List.forall_mem_singleton.mp hroots) hparts
  | whileLoop test body =>
    have htest : ∀ inner ∈ (some test).toList, inner.Fits flaws 0 := hroots
    exact spares_iterate (sparing_ofOption heval htest).2.1
      (hexec body (List.forall_mem_singleton.mp hparts)) (.pure trivial) fuel none
  | forLoop start test step body =>
    obtain ⟨hbody, hstart⟩ := List.forall_mem_cons.mp hparts
    obtain ⟨htest, hstep⟩ := List.forall_mem_append.mp hroots
    exact .bind (sparing_loopStart hexec hstart) fun _ _ =>
      spares_iterate (sparing_ofOption heval htest).2.1 (hexec body hbody)
        (sparing_ofOption heval hstep).2.2 fuel none
  | block body => exact spares_executeList hexec hparts none
  | breakLoop => exact .pure fun _ _ hmem => List.mem_singleton.mpr (Option.some.inj hmem).symm
  | continueLoop => exact .pure fun _ _ hmem => List.mem_singleton.mpr (Option.some.inj hmem).symm
  | empty => exact .pure (within_normal _)

theorem sparing_invoke (hexec : ∀ frame, ExecutesSparing flaws (execute limit fuel frame))
    (level : Nat) (ref : FunctionRef) (arguments : List Value) :
    Sparing flaws level (invoke limit (fuel + 1) ref arguments) :=
  .calling (.inStore fun _ holds => sparing_callCallable
    (fun frame _ hbody => spares_executeBody (hexec frame) hbody) arguments (holds ref)) limit

/-- **Expressions, statements and calls that lack some flaws do not end because of them,** whatever
the fuel and whatever the limit on calls. -/
theorem spares_recursion (flaws : Set Flaw) (limit fuel : Nat) :
    (∀ frame level, EvaluatesSparing flaws level (evaluate limit fuel frame)) ∧
    (∀ frame, ExecutesSparing flaws (execute limit fuel frame)) ∧
    (∀ level ref arguments, Sparing flaws level (invoke limit fuel ref arguments)) := by
  induction fuel with
  | zero =>
    have spared : Halt.outOfFuel.Spares flaws := fun _ h => nomatch h
    exact ⟨fun _ _ _ _ => .throw spared, fun _ _ _ => .throw spared, fun _ _ _ => .throw spared⟩
  | succ fuel ih =>
    obtain ⟨heval, hexec, hinvoke⟩ := ih
    exact ⟨fun frame => sparing_evaluate (heval frame) hinvoke,
      fun frame => spares_execute (heval frame 0) (hexec frame), sparing_invoke hexec⟩

end Recursion

end Run

/-- **A program that lacks some flaws does not end because of them** in a machine whose functions
lack them. -/
theorem Program.spares_run {flaws : Set Flaw} {program : Program} (h : program.Flawless flaws)
    (limit fuel : Nat) (frame : FrameRef) :
    Run.Sparing flaws 0 (program.run limit fuel frame) :=
  .bind (Run.spares_executeBody ((Run.spares_recursion flaws limit fuel).2.1 frame)
    (Program.all_iff.mp h.all)) fun _ hflow => Run.sparing_completion h hflow

end Formulary
