import Formulary.Proofs.Script.Linked

/-!
# Evaluation in machines that correspond

* `Run.Evaluates`, `Run.Executes`, `Run.Invokes` : expressions, statements and calls that come to
  the same in linked machines;
* `Run.linked_recursion` : those that mention no hidden names do;
* `Program.linked_run` : so does a program.
-/

namespace Formulary

namespace Run

section Parts

variable {shifts : Shifts} {hidden : List String} {since : Store}
  {arguments arguments' : List Value}

/-! ## Expressions around their parts -/

/-- Places whose parts are linked. A name among them is not hidden. -/
inductive Place.Linked (hidden : List String) (links : Links) : Place → Place → Prop where
  | name {name : String} (visible : name ∉ hidden) : Linked hidden links (.name name) (.name name)
  | property {target target' : Value} (htarget : target.Linked links target') (name : String) :
      Linked hidden links (.property target name) (.property target' name)
  | index {target target' key key' : Value} (htarget : target.Linked links target')
      (hkey : key.Linked links key') :
      Linked hidden links (.index target key) (.index target' key')

theorem Place.Linked.mono {store later : Store} {place place' : Place}
    (h : place.Linked hidden (shifts.links store) place') (grows : store.Grows later) :
    place.Linked hidden (shifts.links later) place' := by
  cases h with
  | name visible => exact .name visible
  | property htarget name => exact .property (htarget.mono grows) name
  | index htarget hkey => exact .index (htarget.mono grows) (hkey.mono grows)

/-- Whether expressions that mention no hidden names come to the same. -/
def Evaluates (shifts : Shifts) (hidden : List String) (since : Store)
    (eval eval' : Expr → Run Value) : Prop :=
  ∀ e : Expr, Avoid hidden e.expressions →
    Linked shifts hidden hidden since Value.Linked (eval e) (eval' e)

theorem Evaluates.later {eval eval' : Expr → Run Value}
    (h : Evaluates shifts hidden since eval eval') {middle : Store} (grows : since.Grows middle) :
    Evaluates shifts hidden middle eval eval' :=
  fun e avoid => (h e avoid).later grows

variable {frame frame' : FrameRef} {eval eval' : Expr → Run Value}

theorem linked_lookUp (hframe : (shifts.links since).frame frame frame') {name : String}
    (visible : name ∉ hidden) :
    Linked shifts hidden hidden since Value.Linked (lookUp frame name) (lookUp frame' name) := by
  refine .inStore fun later other grows corresponds _ => ?_
  have hvalue := corresponds.binding? (links_frame_mono hframe grows) visible
  generalize later.binding? frame name = value at hvalue
  generalize other.binding? frame' name = value' at hvalue
  cases hvalue with
  | none => exact .throw _
  | some h => exact .pure fun _ hgrows => h.mono hgrows

theorem linked_placeOf (heval : Evaluates shifts hidden since eval eval') {target : Expr}
    (avoid : Avoid hidden target.expressions) :
    Linked shifts hidden hidden since (Place.Linked hidden) (placeOf eval target)
      (placeOf eval' target) := by
  cases target with
  | identifier name =>
    exact .pure fun _ _ => .name ((avoid_cons.mp avoid).1 name rfl)
  | member object name =>
    have hobject := (avoid_cons.mp avoid).2
    exact .bind (heval object hobject) fun _ _ _ _ h =>
      .pure fun _ grows => .property (h.mono grows) name
  | index object key =>
    obtain ⟨hobject, hkey⟩ := avoid_append.mp (avoid_cons.mp avoid).2
    refine .bind (heval object hobject) fun later _ _ grows h => ?_
    exact .bind (heval.later grows key hkey) fun _ _ _ hgrows hkey =>
      .pure fun _ hlast => .index (h.mono (hgrows.trans hlast)) (hkey.mono hlast)
  | _ => exact .throw _

/-- A property that is read from the store. -/
theorem linked_inStore_ofFault {read read' : Store → Except TypeFault Value}
    (h : ∀ later other, since.Grows later → later.Corresponds shifts hidden other →
      ResultsLinked (Value.Linked (shifts.links later)) (read later) (read' other)) :
    Linked shifts hidden hidden since Value.Linked (do ofFault (read (← store)))
      (do ofFault (read' (← store))) :=
  .inStore fun _ _ grows corresponds _ => linked_ofFault fun _ hgrows =>
    (h _ _ grows corresponds).imp fun _ _ hvalue => hvalue.mono hgrows

theorem linked_readPlace (hframe : (shifts.links since).frame frame frame') {place place' : Place}
    (hplace : place.Linked hidden (shifts.links since) place') :
    Linked shifts hidden hidden since Value.Linked (readPlace frame place)
      (readPlace frame' place') := by
  cases hplace with
  | name visible => exact linked_lookUp hframe visible
  | property htarget name =>
    exact linked_inStore_ofFault fun _ _ grows h => h.linked.readProperty (htarget.mono grows) name
  | index htarget hkey =>
    exact linked_inStore_ofFault fun _ _ grows h =>
      h.linked.readIndexed (htarget.mono grows) (hkey.mono grows)

theorem linked_applyEdit {edit edit' : Edit} (h : edit.Linked (shifts.links since) edit') :
    Linked shifts hidden hidden since Same (applyEdit edit) (applyEdit edit') := by
  refine .modifyStore (fun later other grows corresponds => ?_) (fun later => ?_)
    fun later htame => ?_
  · exact corresponds.apply (h.mono grows)
  · exact later.grows_apply edit
  · exact htame.apply edit

theorem linked_writePlace (hframe : (shifts.links since).frame frame frame') {value value' : Value}
    (hvalue : value.Linked (shifts.links since) value') {place place' : Place}
    (hplace : place.Linked hidden (shifts.links since) place') :
    Linked shifts hidden hidden since Same (writePlace frame value place)
      (writePlace frame' value' place') := by
  cases hplace with
  | @name name visible =>
    show Linked _ _ _ _ Same (modifyStore fun store => store.assign frame name value)
      (modifyStore fun store => store.assign frame' name value')
    refine .modifyStore (fun later other grows corresponds => ?_) (fun later => ?_)
      fun later htame => ?_
    · exact corresponds.assign (links_frame_mono hframe grows) visible (hvalue.mono grows)
    · exact Store.grows_declare _ _ _
    · exact htame
  | property htarget name =>
    refine .bind (linked_ofFault (r := Edit.Linked) fun later grows => ?_) fun _ _ _ _ h => ?_
    · exact Store.Linked.editProperty_linked (htarget.mono grows) name (hvalue.mono grows)
    · exact linked_applyEdit h
  | index htarget hkey =>
    refine .inStore fun later other grows corresponds _ => ?_
    refine .bind (linked_ofFault (r := Edit.Linked) fun last hgrows => ?_) fun _ _ _ _ h => ?_
    · exact (corresponds.linked.editIndexed (htarget.mono grows) (hkey.mono grows)
        (hvalue.mono grows)).imp fun _ _ hedit => hedit.mono hgrows
    · exact linked_applyEdit h

theorem linked_evalArray (heval : Evaluates shifts hidden since eval eval') {elements : List Expr}
    (avoid : Avoid hidden (expressionsOfAll elements)) :
    Linked shifts hidden hidden since Value.Linked (evalArray eval elements)
      (evalArray eval' elements) := by
  refine .bind (linked_mapM (r := Value.Linked) (fun e hmem => ?_)
    fun _ _ _ _ grows h => h.mono grows) fun later _ _ _ hvalues => ?_
  · exact heval e (forall_expressionsOfAll.mp avoid e hmem)
  · exact .updateStore fun last other grows h => h.made_newArray (ValuesLinked.mono hvalues grows)

theorem linked_evalObject (heval : Evaluates shifts hidden since eval eval')
    {properties : List (String × Expr)}
    (avoid : Avoid hidden (expressionsOfProperties properties)) :
    Linked shifts hidden hidden since Value.Linked (evalObject eval properties)
      (evalObject eval' properties) := by
  refine .bind (linked_mapM (r := EntryLinked) (fun property hmem => ?_)
    fun _ _ _ _ grows h => ⟨h.1, h.2.mono grows⟩) fun later _ _ _ hentries => ?_
  · refine .bind (heval _ (forall_expressionsOfProperties.mp avoid property hmem))
      fun _ _ _ _ h => ?_
    exact .pure fun _ grows => ⟨rfl, h.mono grows⟩
  · refine .updateStore fun last other grows h => h.made_newObject ?_
    exact .ofList (hentries.imp fun _ _ hentry => ⟨hentry.1, hentry.2.mono grows⟩)

theorem linked_evalMember (heval : Evaluates shifts hidden since eval eval') {object : Expr}
    (avoid : Avoid hidden object.expressions) (name : String) :
    Linked shifts hidden hidden since Value.Linked (evalMember eval object name)
      (evalMember eval' object name) :=
  .bind (heval object avoid) fun _ _ _ _ hobject => linked_inStore_ofFault fun _ _ grows h =>
    h.linked.readProperty (hobject.mono grows) name

theorem linked_evalIndex (heval : Evaluates shifts hidden since eval eval') {object key : Expr}
    (hobject : Avoid hidden object.expressions) (hkey : Avoid hidden key.expressions) :
    Linked shifts hidden hidden since Value.Linked (evalIndex eval object key)
      (evalIndex eval' object key) := by
  refine .bind (heval object hobject) fun later _ _ grows hobject => ?_
  refine .bind (heval.later grows key hkey) fun last _ _ hgrows hkey => ?_
  exact linked_inStore_ofFault fun _ _ hlast h =>
    h.linked.readIndexed (hobject.mono (hgrows.trans hlast)) (hkey.mono hlast)

theorem linked_evalUnary (heval : Evaluates shifts hidden since eval eval')
    (hframe : (shifts.links since).frame frame frame') (op : UnaryOp) {operand : Expr}
    (avoid : Avoid hidden operand.expressions) :
    Linked shifts hidden hidden since Value.Linked (evalUnary eval frame op operand)
      (evalUnary eval' frame' op operand) := by
  unfold evalUnary
  split
  · next name =>
    refine linked_inStore_pure fun later other grows h => Value.linked_string ?_
    have hvisible : name ∉ hidden := (avoid_cons.mp avoid).1 name rfl
    exact (rel_getD (h.binding? (links_frame_mono hframe grows) hvisible) .undefined).typeName
  · refine .bind (heval operand avoid) fun _ _ _ _ hvalue => ?_
    exact linked_inStore_pure fun _ _ grows h => h.linked.unary op (hvalue.mono grows)

theorem linked_evalBinary (heval : Evaluates shifts hidden since eval eval') (op : BinaryOp)
    {left right : Expr} (hleft : Avoid hidden left.expressions)
    (hright : Avoid hidden right.expressions) :
    Linked shifts hidden hidden since Value.Linked (evalBinary eval op left right)
      (evalBinary eval' op left right) := by
  refine .bind (heval left hleft) fun later _ _ grows hleft => ?_
  refine .bind (heval.later grows right hright) fun last _ _ hgrows hright => ?_
  exact linked_inStore_pure fun _ _ hlast h =>
    h.linked.binary op (hleft.mono (hgrows.trans hlast)) (hright.mono hlast)

theorem linked_evalLogical (heval : Evaluates shifts hidden since eval eval') (op : LogicalOp)
    {left right : Expr} (hleft : Avoid hidden left.expressions)
    (hright : Avoid hidden right.expressions) :
    Linked shifts hidden hidden since Value.Linked (evalLogical eval op left right)
      (evalLogical eval' op left right) := by
  refine .bind (heval left hleft) fun later _ _ grows hleft => ?_
  rw [Store.Linked.settles_linked op hleft]
  split
  · exact .pure fun _ hgrows => hleft.mono hgrows
  · exact heval.later grows right hright

theorem linked_evalConditional (heval : Evaluates shifts hidden since eval eval')
    {test consequent alternate : Expr} (htest : Avoid hidden test.expressions)
    (hconsequent : Avoid hidden consequent.expressions)
    (halternate : Avoid hidden alternate.expressions) :
    Linked shifts hidden hidden since Value.Linked (evalConditional eval test consequent alternate)
      (evalConditional eval' test consequent alternate) := by
  refine .bind (heval test htest) fun later _ _ grows hvalue => ?_
  rw [hvalue.truth]
  split
  · exact heval.later grows consequent hconsequent
  · exact heval.later grows alternate halternate

theorem linked_assigned (heval : Evaluates shifts hidden since eval eval')
    (hframe : (shifts.links since).frame frame frame') (op : AssignOp) {place place' : Place}
    (hplace : place.Linked hidden (shifts.links since) place') {value : Expr}
    (avoid : Avoid hidden value.expressions) :
    Linked shifts hidden hidden since Value.Linked (assigned eval frame op place value)
      (assigned eval' frame' op place' value) := by
  unfold assigned
  cases op.binary? with
  | none => exact heval value avoid
  | some op =>
    refine .bind (linked_readPlace hframe hplace) fun later _ _ grows hcurrent => ?_
    refine .bind (heval.later grows value avoid) fun last _ _ hgrows hoperand => ?_
    exact linked_inStore_pure fun _ _ hlast h =>
      h.linked.binary op (hcurrent.mono (hgrows.trans hlast)) (hoperand.mono hlast)

theorem linked_evalAssign (heval : Evaluates shifts hidden since eval eval')
    (hframe : (shifts.links since).frame frame frame') (op : AssignOp) {target value : Expr}
    (htarget : Avoid hidden target.expressions) (hvalue : Avoid hidden value.expressions) :
    Linked shifts hidden hidden since Value.Linked (evalAssign eval frame op target value)
      (evalAssign eval' frame' op target value) := by
  refine .bind (linked_placeOf heval htarget) fun later _ _ grows hplace => ?_
  have hframe' := links_frame_mono hframe grows
  refine .bind (linked_assigned (heval.later grows) hframe' op hplace hvalue)
    fun last _ _ hgrows hresult => ?_
  refine .bind (linked_writePlace (links_frame_mono hframe (grows.trans hgrows)) hresult
    (hplace.mono hgrows)) fun _ _ _ hlast _ => ?_
  exact .pure fun _ hend => hresult.mono (hlast.trans hend)

theorem linked_evalUpdate (heval : Evaluates shifts hidden since eval eval')
    (hframe : (shifts.links since).frame frame frame') (op : UpdateOp) (before : Bool)
    {target : Expr} (avoid : Avoid hidden target.expressions) :
    Linked shifts hidden hidden since Value.Linked (evalUpdate eval frame op before target)
      (evalUpdate eval' frame' op before target) := by
  refine .bind (linked_placeOf heval avoid) fun later _ _ grows hplace => ?_
  refine .bind (linked_readPlace (links_frame_mono hframe grows) hplace)
    fun last _ _ hgrows hcurrent => ?_
  refine .inStore fun final other hlast h _ => ?_
  dsimp only
  rw [h.linked.toNumber (hcurrent.mono hlast)]
  refine .bind (linked_writePlace (links_frame_mono hframe ((grows.trans hgrows).trans hlast))
    (.number _) (hplace.mono (hgrows.trans hlast))) fun _ _ _ _ _ => ?_
  exact .pure fun _ _ => .number _

/-! ## Calls around their parts -/

/-- Whether calls of linked functions with linked arguments come to the same. -/
def Invokes (shifts : Shifts) (hidden : List String)
    (invoke : FunctionRef → List Value → Run Value) : Prop :=
  ∀ {since : Store} {ref ref' : FunctionRef} {arguments arguments' : List Value},
    (shifts.links since).function ref ref' →
    ValuesLinked (shifts.links since) arguments arguments' →
    Linked shifts hidden hidden since Value.Linked (invoke ref arguments) (invoke ref' arguments')

/-- Whether bodies that mention no hidden names come to the same in linked frames. -/
def RunsBodies (shifts : Shifts) (hidden : List String)
    (runBody : FrameRef → List Stmt → Run Flow) : Prop :=
  ∀ {since : Store} {frame frame' : FrameRef}, (shifts.links since).frame frame frame' →
    ∀ {body : List Stmt}, Avoid hidden (expressionsOfBody body) →
    Linked shifts hidden hidden since Flow.Linked (runBody frame body) (runBody frame' body)

variable {invoke : FunctionRef → List Value → Run Value}
  {runBody : FrameRef → List Stmt → Run Flow}

theorem linked_callValue (hinvoke : Invokes shifts hidden invoke) (name : String)
    (harguments : ValuesLinked (shifts.links since) arguments arguments') {value value' : Value}
    (hvalue : value.Linked (shifts.links since) value') :
    Linked shifts hidden hidden since Value.Linked (callValue invoke name arguments value)
      (callValue invoke name arguments' value') := by
  cases hvalue with
  | function href => exact hinvoke href harguments
  | _ => exact .throw _

theorem linked_callMethod (hinvoke : Invokes shifts hidden invoke) {receiver receiver' : Value}
    (hreceiver : receiver.Linked (shifts.links since) receiver') (name : String)
    (harguments : ValuesLinked (shifts.links since) arguments arguments') :
    Linked shifts hidden hidden since Value.Linked (callMethod invoke receiver name arguments)
      (callMethod invoke receiver' name arguments') := by
  have hmethod := Method.find?_linked hreceiver name
  unfold callMethod
  generalize Method.find? receiver name = method at hmethod
  generalize Method.find? receiver' name = method' at hmethod
  cases hmethod with
  | some hmethod => exact linked_method hmethod harguments
  | none =>
    refine .inStore fun later other grows h _ => ?_
    refine .bind (linked_ofFault (r := Value.Linked) fun last hgrows => ?_)
      fun last _ _ hgrows hvalue => ?_
    · exact (h.linked.readProperty (hreceiver.mono grows) name).imp fun _ _ h => h.mono hgrows
    · exact linked_callValue hinvoke name (harguments.mono (grows.trans hgrows)) hvalue

theorem linked_evalArguments (heval : Evaluates shifts hidden since eval eval')
    {arguments : List Expr} (avoid : Avoid hidden (expressionsOfAll arguments)) :
    Linked shifts hidden hidden since ValuesLinked (arguments.mapM eval) (arguments.mapM eval') :=
  linked_mapM (fun e hmem => heval e (forall_expressionsOfAll.mp avoid e hmem))
    fun _ _ _ _ grows h => h.mono grows

theorem linked_evalCall (heval : Evaluates shifts hidden since eval eval')
    (hinvoke : Invokes shifts hidden invoke) {arguments : List Expr} {callee : Expr}
    (hcallee : Avoid hidden callee.expressions)
    (harguments : Avoid hidden (expressionsOfAll arguments)) :
    Linked shifts hidden hidden since Value.Linked (evalCall eval invoke arguments callee)
      (evalCall eval' invoke arguments callee) := by
  unfold evalCall
  split
  · next object name =>
    have hobject := (avoid_cons.mp hcallee).2
    refine .bind (heval object hobject) fun later _ _ grows hreceiver => ?_
    refine .bind (linked_evalArguments (heval.later grows) harguments)
      fun _ _ _ hgrows hvalues => ?_
    exact linked_callMethod hinvoke (hreceiver.mono hgrows) name hvalues
  · next object key =>
    obtain ⟨hobject, hkey⟩ := avoid_append.mp (avoid_cons.mp hcallee).2
    refine .bind (heval object hobject) fun later _ _ grows hreceiver => ?_
    refine .bind (heval.later grows key hkey) fun last _ _ hgrows hkey => ?_
    refine .inStore fun next other hlast h _ => ?_
    dsimp only
    rw [h.linked.display (hkey.mono hlast)]
    refine .bind (linked_evalArguments (heval.later ((grows.trans hgrows).trans hlast)) harguments)
      fun _ _ _ hend hvalues => ?_
    exact linked_callMethod hinvoke (hreceiver.mono ((hgrows.trans hlast).trans hend)) _ hvalues
  · refine .bind (heval callee hcallee) fun later _ _ grows hfunction => ?_
    refine .bind (linked_evalArguments (heval.later grows) harguments)
      fun _ _ _ hgrows hvalues => ?_
    exact linked_callValue hinvoke _ hvalues (hfunction.mono hgrows)

theorem linked_enter (definition : FunctionDef) {scope scope' : FrameRef}
    (hscope : (shifts.links since).frame scope scope')
    (harguments : ValuesLinked (shifts.links since) arguments arguments') :
    Linked shifts hidden hidden since Links.frame (enter definition scope arguments)
      (enter definition scope' arguments') := by
  refine .bind (.updateStore fun later other grows h =>
    h.made_newFrame (links_frame_mono hscope grows)) fun later frame frame' grows hframe => ?_
  have hparameters := harguments.mono grows
  refine .bind (.modifyStore (fun last other hgrows h => ?_) (fun last => ?_) fun last htame => ?_)
    fun last _ _ hgrows _ => ?_
  · exact h.declare_foldl (links_frame_mono hframe hgrows) (hparameters.mono hgrows) _
  · exact Store.grows_foldl (fun _ _ => Store.grows_declare _ _ _) _
  · exact htame.declare_foldl _ _ _
  refine .bind (.updateStore fun next other hlast h =>
    h.made_newArray (ValuesLinked.mono hparameters (hgrows.trans hlast)))
    fun next _ _ hlast hlist => ?_
  have hframe' := links_frame_mono hframe (hgrows.trans hlast)
  refine .bind (.modifyStore (fun end_ other hend h => ?_) (fun _ => ?_) fun _ htame => htame)
    fun _ _ _ hend _ => ?_
  · exact h.declare (links_frame_mono hframe' hend) "arguments" (hlist.mono hend)
  · exact Store.grows_declare _ _ _
  · exact .pure fun _ hfinal => links_frame_mono hframe' (hend.trans hfinal)

theorem linked_callScript (hbody : RunsBodies shifts hidden runBody) {definition : FunctionDef}
    (avoid : Avoid hidden definition.expressions) {scope scope' : FrameRef}
    (hscope : (shifts.links since).frame scope scope')
    (harguments : ValuesLinked (shifts.links since) arguments arguments') :
    Linked shifts hidden hidden since Value.Linked (callScript runBody definition scope arguments)
      (callScript runBody definition scope' arguments') := by
  rw [FunctionDef.expressions_eq] at avoid
  refine .bind (linked_enter definition hscope harguments) fun later _ _ _ hframe => ?_
  refine .bind (hbody hframe avoid) fun _ _ _ _ hflow => ?_
  exact linked_ofExcept fun _ grows => hflow.returned.imp fun _ _ h => h.mono grows

theorem linked_callCallable (hbody : RunsBodies shifts hidden runBody)
    {callable callable' : Callable} (hcallable : callable.Linked (shifts.links since) callable')
    (tame : callable.Tame hidden)
    (harguments : ValuesLinked (shifts.links since) arguments arguments') :
    Linked shifts hidden hidden since Value.Linked (callCallable runBody arguments callable)
      (callCallable runBody arguments' callable') := by
  cases hcallable with
  | script definition hscope => exact linked_callScript hbody tame hscope harguments
  | intrinsic function => exact linked_intrinsic harguments function
  | builtin name function =>
    refine .inStore fun later other grows h _ => linked_ofFunction fun _ hgrows => ?_
    have hcall := Call.linked_ofValues h.linked name (harguments.mono grows)
    exact (tame.call (shifts.oneToOne_links later) hcall).imp fun _ _ hvalue => hvalue.mono hgrows

/-! ## Statements around their parts -/

/-- Whether statements that mention no hidden names come to the same. -/
def Executes (shifts : Shifts) (hidden : List String) (since : Store)
    (exec exec' : Stmt → Run Flow) : Prop :=
  ∀ s : Stmt, Avoid hidden s.expressions →
    Linked shifts hidden hidden since Flow.Linked (exec s) (exec' s)

theorem Executes.later {exec exec' : Stmt → Run Flow}
    (h : Executes shifts hidden since exec exec') {middle : Store} (grows : since.Grows middle) :
    Executes shifts hidden middle exec exec' :=
  fun s avoid => (h s avoid).later grows

variable {exec exec' : Stmt → Run Flow} {completion completion' : Option Value}

theorem linked_executeList (hexec : Executes shifts hidden since exec exec') {body : List Stmt}
    (avoid : Avoid hidden (expressionsOfBody body))
    (hcompletion : Option.Rel (Value.Linked (shifts.links since)) completion completion') :
    Linked shifts hidden hidden since Flow.Linked (executeList exec body completion)
      (executeList exec' body completion') := by
  induction body generalizing since completion completion' with
  | nil => exact .pure fun _ grows => .normal (rel_imp hcompletion fun _ _ h => h.mono grows)
  | cons statement rest ih =>
    obtain ⟨hfirst, hrest⟩ := avoid_append.mp avoid
    refine .bind (hexec statement hfirst) fun later _ _ grows hflow => ?_
    cases hflow with
    | normal hvalue =>
      have hearlier := rel_imp hcompletion fun _ _ h => h.mono grows
      exact ih (hexec.later grows) hrest (rel_or hvalue hearlier)
    | ret hvalue => exact .pure fun _ hgrows => .ret (hvalue.mono hgrows)
    | breakLoop => exact .pure fun _ _ => .breakLoop
    | continueLoop => exact .pure fun _ _ => .continueLoop

theorem linked_executeBody (hframe : (shifts.links since).frame frame frame')
    (hexec : Executes shifts hidden since exec exec') {body : List Stmt}
    (avoid : Avoid hidden (expressionsOfBody body)) :
    Linked shifts hidden hidden since Flow.Linked (executeBody exec frame body)
      (executeBody exec' frame' body) := by
  refine .bind (.modifyStore (fun later other grows h => ?_) (fun later => ?_)
    fun later htame => ?_) fun later _ _ grows _ => ?_
  · exact h.hoist (links_frame_mono hframe grows) body
  · exact Store.grows_hoist frame body
  · refine htame.hoist frame fun definition hmem => ?_
    exact forall_expressionsOfBody.mp avoid _ hmem
  · exact linked_executeList (hexec.later grows) avoid .none

theorem linked_executeDeclaration (hframe : (shifts.links since).frame frame frame')
    (heval : Evaluates shifts hidden since eval eval') {declarators : List (String × Option Expr)}
    (avoid : Avoid hidden (expressionsOfDeclarators declarators)) :
    Linked shifts hidden hidden since Same (executeDeclaration eval frame declarators)
      (executeDeclaration eval' frame' declarators) := by
  induction declarators generalizing since with
  | nil => exact .pure fun _ _ => rfl
  | cons declarator rest ih =>
    obtain ⟨name, initial⟩ := declarator
    obtain ⟨hinitial, hrest⟩ := avoid_append.mp avoid
    cases initial with
    | some initial =>
      refine .bind (heval initial hinitial) fun later _ _ grows hvalue => ?_
      have hframe := links_frame_mono hframe grows
      refine .bind (.modifyStore (fun last other hgrows h => ?_) (fun _ => ?_) fun _ htame => htame)
        fun last _ _ hgrows _ => ?_
      · exact h.declare (links_frame_mono hframe hgrows) name (hvalue.mono hgrows)
      · exact Store.grows_declare _ _ _
      · exact ih (links_frame_mono hframe hgrows) (heval.later (grows.trans hgrows)) hrest
    | none =>
      refine .bind (.modifyStore (fun later other grows h => ?_) (fun _ => ?_) fun _ htame => ?_)
        fun later _ _ grows _ => ?_
      · exact h.declareMissing (links_frame_mono hframe grows) name
      · exact Store.grows_declareMissing _ _
      · exact htame.declareMissing _ _
      · exact ih (links_frame_mono hframe grows) (heval.later grows) hrest

theorem linked_returnValue (heval : Evaluates shifts hidden since eval eval') {value : Option Expr}
    (avoid : Avoid hidden (expressionsOfOption value)) :
    Linked shifts hidden hidden since Value.Linked (returnValue eval value)
      (returnValue eval' value) := by
  cases value with
  | some value => exact heval value avoid
  | none => exact .pure fun _ _ => .undefined

theorem linked_executeIf (heval : Evaluates shifts hidden since eval eval')
    (hexec : Executes shifts hidden since exec exec') {test : Expr} {consequent : Stmt}
    {alternate : Option Stmt} (htest : Avoid hidden test.expressions)
    (hconsequent : Avoid hidden consequent.expressions)
    (halternate : Avoid hidden (expressionsOfBranch alternate)) :
    Linked shifts hidden hidden since Flow.Linked (executeIf eval exec test consequent alternate)
      (executeIf eval' exec' test consequent alternate) := by
  refine .bind (heval test htest) fun later _ _ grows hvalue => ?_
  rw [hvalue.truth]
  split
  · exact hexec.later grows consequent hconsequent
  · cases alternate with
    | some alternate => exact hexec.later grows alternate halternate
    | none => exact .pure fun _ _ => .normal .none

theorem linked_loopTest (heval : Evaluates shifts hidden since eval eval') {test : Option Expr}
    (avoid : Avoid hidden (expressionsOfOption test)) :
    Linked shifts hidden hidden since Same (loopTest eval test) (loopTest eval' test) := by
  cases test with
  | some test => exact .bind (heval test avoid) fun _ _ _ _ h => .pure fun _ _ => h.truth
  | none => exact .pure fun _ _ => rfl

theorem linked_loopStep (heval : Evaluates shifts hidden since eval eval') {step : Option Expr}
    (avoid : Avoid hidden (expressionsOfOption step)) :
    Linked shifts hidden hidden since Same (loopStep eval step) (loopStep eval' step) := by
  cases step with
  | some step => exact .bind (heval step avoid) fun _ _ _ _ _ => .pure fun _ _ => rfl
  | none => exact .pure fun _ _ => rfl

theorem linked_loopStart (hexec : Executes shifts hidden since exec exec') {start : Option Stmt}
    (avoid : Avoid hidden (expressionsOfBranch start)) :
    Linked shifts hidden hidden since Same (loopStart exec start) (loopStart exec' start) := by
  cases start with
  | some start => exact .bind (hexec start avoid) fun _ _ _ _ _ => .pure fun _ _ => rfl
  | none => exact .pure fun _ _ => rfl

theorem linked_iterate {test test' : Run Bool} {body body' : Run Flow} {step step' : Run Unit}
    (htest : Linked shifts hidden hidden since Same test test')
    (hbody : Linked shifts hidden hidden since Flow.Linked body body')
    (hstep : Linked shifts hidden hidden since Same step step') (rounds : Nat)
    (hcompletion : Option.Rel (Value.Linked (shifts.links since)) completion completion') :
    Linked shifts hidden hidden since Flow.Linked (iterate test body step rounds completion)
      (iterate test' body' step' rounds completion') := by
  -- the parts have to come to the same behind every round, with all that the rounds have made
  induction rounds generalizing since completion completion' with
  | zero => exact .throw _
  | succ rounds ih =>
    refine .bind htest fun later goesOn _ grows heq => ?_
    subst heq
    have hlater := rel_imp hcompletion fun _ _ h => Value.Linked.mono h grows
    split
    · refine .bind (hbody.later grows) fun last _ _ hgrows hflow => ?_
      have hlast := rel_imp hlater fun _ _ h => Value.Linked.mono h hgrows
      cases hflow with
      | breakLoop => exact .pure fun _ hend => .normal (rel_imp hlast fun _ _ h => h.mono hend)
      | ret hvalue => exact .pure fun _ hend => .ret (hvalue.mono hend)
      | continueLoop =>
        have hsofar := grows.trans hgrows
        refine .bind (hstep.later hsofar) fun _ _ _ hend _ => ?_
        exact ih (htest.later (hsofar.trans hend)) (hbody.later (hsofar.trans hend))
          (hstep.later (hsofar.trans hend)) (rel_imp hlast fun _ _ h => h.mono hend)
      | normal hvalue =>
        have hsofar := grows.trans hgrows
        refine .bind (hstep.later hsofar) fun _ _ _ hend _ => ?_
        exact ih (htest.later (hsofar.trans hend)) (hbody.later (hsofar.trans hend))
          (hstep.later (hsofar.trans hend))
          (rel_imp (rel_or hvalue hlast) fun _ _ h => h.mono hend)
    · exact .pure fun _ hgrows => .normal (rel_imp hlater fun _ _ h => h.mono hgrows)

end Parts

/-! ## Recursion -/

section Recursion

variable {shifts : Shifts} {hidden : List String} {since : Store} {frame frame' : FrameRef}
  {limit fuel : Nat}

/-- Expressions come to the same when the ones inside them do, and the functions they call. -/
theorem linked_evaluate (hframe : (shifts.links since).frame frame frame')
    (heval : Evaluates shifts hidden since (evaluate limit fuel frame) (evaluate limit fuel frame'))
    (hinvoke : Invokes shifts hidden (invoke limit fuel)) :
    Evaluates shifts hidden since (evaluate limit (fuel + 1) frame)
      (evaluate limit (fuel + 1) frame') := by
  refine fun e avoid => .deeper ?_
  cases e with
  | literal literal => exact .pure fun _ _ => literal.linked_value _
  | identifier name => exact linked_lookUp hframe ((avoid_cons.mp avoid).1 name rfl)
  | array elements => exact linked_evalArray heval (avoid_cons.mp avoid).2
  | object properties => exact linked_evalObject heval (avoid_cons.mp avoid).2
  | member object name => exact linked_evalMember heval (avoid_cons.mp avoid).2 name
  | index object key =>
    obtain ⟨hobject, hkey⟩ := avoid_append.mp (avoid_cons.mp avoid).2
    exact linked_evalIndex heval hobject hkey
  | call callee arguments =>
    obtain ⟨hcallee, harguments⟩ := avoid_append.mp (avoid_cons.mp avoid).2
    exact linked_evalCall heval hinvoke hcallee harguments
  | unary op operand => exact linked_evalUnary heval hframe op (avoid_cons.mp avoid).2
  | binary op left right =>
    obtain ⟨hleft, hright⟩ := avoid_append.mp (avoid_cons.mp avoid).2
    exact linked_evalBinary heval op hleft hright
  | logical op left right =>
    obtain ⟨hleft, hright⟩ := avoid_append.mp (avoid_cons.mp avoid).2
    exact linked_evalLogical heval op hleft hright
  | conditional test consequent alternate =>
    obtain ⟨hboth, halternate⟩ := avoid_append.mp (avoid_cons.mp avoid).2
    obtain ⟨htest, hconsequent⟩ := avoid_append.mp hboth
    exact linked_evalConditional heval htest hconsequent halternate
  | assign op target value =>
    obtain ⟨htarget, hvalue⟩ := avoid_append.mp (avoid_cons.mp avoid).2
    exact linked_evalAssign heval hframe op htarget hvalue
  | update op before target =>
    exact linked_evalUpdate heval hframe op before (avoid_cons.mp avoid).2
  | function definition =>
    exact .updateStore fun later other grows h => h.made_newFunction
      (.script definition (links_frame_mono hframe grows)) (avoid_cons.mp avoid).2

/-- Statements come to the same when what they are made of does. -/
theorem linked_execute (hframe : (shifts.links since).frame frame frame')
    (heval : Evaluates shifts hidden since (evaluate limit fuel frame) (evaluate limit fuel frame'))
    (hexec : Executes shifts hidden since (execute limit fuel frame) (execute limit fuel frame')) :
    Executes shifts hidden since (execute limit (fuel + 1) frame)
      (execute limit (fuel + 1) frame') := by
  intro s avoid
  cases s with
  | expression value =>
    exact .bind (heval value avoid) fun _ _ _ _ h =>
      .pure fun _ grows => .normal (.some (h.mono grows))
  | declaration declarators =>
    exact .bind (linked_executeDeclaration hframe heval avoid) fun _ _ _ _ _ =>
      .pure fun _ _ => .normal .none
  | function definition =>
    refine .bind (.modifyStore (fun later other grows h => ?_) (fun _ => ?_) fun _ htame => ?_)
      fun _ _ _ _ _ => .pure fun _ _ => .normal .none
    · exact h.declareFunction (links_frame_mono hframe grows) definition
    · exact Store.grows_declareFunction _ _
    · exact htame.declareFunction _ avoid
  | ret value =>
    exact .bind (linked_returnValue heval avoid) fun _ _ _ _ h =>
      .pure fun _ grows => .ret (h.mono grows)
  | ifElse test consequent alternate =>
    obtain ⟨hboth, halternate⟩ := avoid_append.mp avoid
    obtain ⟨htest, hconsequent⟩ := avoid_append.mp hboth
    exact linked_executeIf heval hexec htest hconsequent halternate
  | whileLoop test body =>
    obtain ⟨hhead, hbody⟩ := avoid_append.mp avoid
    have htest : Avoid hidden (expressionsOfOption (some test)) := hhead
    exact linked_iterate (linked_loopTest heval htest) (hexec body hbody)
      (.pure fun _ _ => rfl) fuel .none
  | forLoop start test step body =>
    obtain ⟨hhead, hbody⟩ := avoid_append.mp avoid
    obtain ⟨hboth, hstep⟩ := avoid_append.mp hhead
    obtain ⟨hstart, htest⟩ := avoid_append.mp hboth
    refine .bind (linked_loopStart hexec hstart) fun later _ _ grows _ => ?_
    exact linked_iterate (linked_loopTest (heval.later grows) htest) (hexec.later grows body hbody)
      (linked_loopStep (heval.later grows) hstep) fuel .none
  | block body => exact linked_executeList hexec avoid .none
  | breakLoop => exact .pure fun _ _ => .breakLoop
  | continueLoop => exact .pure fun _ _ => .continueLoop
  | empty => exact .pure fun _ _ => .normal .none

/-- Calls come to the same when the statements of the functions called do. -/
theorem linked_invoke (hexec : ∀ {since frame frame'}, (shifts.links since).frame frame frame' →
      Executes shifts hidden since (execute limit fuel frame) (execute limit fuel frame')) :
    Invokes shifts hidden (invoke limit (fuel + 1)) := by
  refine fun {since ref ref' arguments arguments'} href harguments => .calling limit ?_
  refine .inStore fun later other grows h htame => ?_
  refine linked_callCallable (fun hframe _ avoid => ?_)
    (h.linked.callable (links_function_mono href grows)) (htame ref) (harguments.mono grows)
  exact linked_executeBody hframe (hexec hframe) avoid

end Recursion

/-- **Expressions, statements and calls that mention no hidden names come to the same in linked
machines,** whatever the fuel. -/
theorem linked_recursion (shifts : Shifts) (hidden : List String) (limit fuel : Nat) :
    (∀ {since frame frame'}, (shifts.links since).frame frame frame' →
      Evaluates shifts hidden since (evaluate limit fuel frame) (evaluate limit fuel frame')) ∧
    (∀ {since frame frame'}, (shifts.links since).frame frame frame' →
      Executes shifts hidden since (execute limit fuel frame) (execute limit fuel frame')) ∧
    Invokes shifts hidden (invoke limit fuel) := by
  induction fuel with
  | zero => exact ⟨fun _ _ _ => .throw _, fun _ _ _ => .throw _, fun _ _ => .throw _⟩
  | succ fuel ih =>
    obtain ⟨heval, hexec, hinvoke⟩ := ih
    exact ⟨fun hframe => linked_evaluate hframe (heval hframe) hinvoke,
      fun hframe => linked_execute hframe (heval hframe) (hexec hframe), linked_invoke hexec⟩

end Run

/-- **A program that mentions no hidden names comes to the same in linked machines.** -/
theorem Program.linked_run {shifts : Shifts} {hidden : List String} {since : Store}
    {frame frame' : FrameRef} (hframe : (shifts.links since).frame frame frame') {program : Program}
    (avoid : Avoid hidden program.expressions) (limit fuel : Nat) :
    Run.Linked shifts hidden hidden since Value.Linked (program.run limit fuel frame)
      (program.run limit fuel frame') := by
  have hexec := (Run.linked_recursion shifts hidden limit fuel).2.1 hframe
  refine .bind (Run.linked_executeBody hframe hexec avoid) fun _ _ _ _ hflow => ?_
  exact Run.linked_ofExcept fun _ grows => hflow.completion.imp fun _ _ h => h.mono grows

end Formulary
