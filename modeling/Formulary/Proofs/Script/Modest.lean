import Formulary.Proofs.Script.Composed
import Formulary.Proofs.Sequence
import Formulary.Proofs.Source.Expressions
import Formulary.Proofs.Value.Kept

/-!
# Scripts that write to some global names only

* `Expr.isModest`, `Stmt.isModest` : scripts that call nothing and write to the given names only;
* `Run.Keeping` : runs that keep everything but the values of the given global names;
* `Program.keeping_run` : a modest script does.
-/

namespace Formulary

/-! ## Modest scripts -/

/-- Whether an expression, apart from what is inside it, calls nothing and writes to the given names
only. -/
def Expr.isModest (names : List String) : Expr → Bool
  | .call _ _ => false
  | .assign _ (.identifier name) _ => name ∈ names
  | .assign _ _ _ => false
  | .update _ _ (.identifier name) => name ∈ names
  | .update _ _ _ => false
  | _ => true

/-- Whether some expressions call nothing and write to the given names only. -/
def Modest (names : List String) (expressions : List Expr) : Prop :=
  ∀ e ∈ expressions, e.isModest names = true

instance (names : List String) (expressions : List Expr) : Decidable (Modest names expressions) :=
  inferInstanceAs (Decidable (∀ e ∈ expressions, e.isModest names = true))

mutual

/-- Whether a statement calls nothing, and writes to the given names and declares them only. -/
def Stmt.isModest (names : List String) : Stmt → Bool
  | .expression value => Modest names value.expressions
  | .declaration declarators =>
    declarators.all (fun declarator => declarator.1 ∈ names) &&
      decide (Modest names (expressionsOfDeclarators declarators))
  | .function definition => definition.name.all (· ∈ names)
  | .ret value => Modest names (expressionsOfOption value)
  | .ifElse test consequent alternate =>
    decide (Modest names test.expressions) && consequent.isModest names &&
      branchIsModest names alternate
  | .whileLoop test body => decide (Modest names test.expressions) && body.isModest names
  | .forLoop start test step body =>
    branchIsModest names start && decide (Modest names (expressionsOfOption test)) &&
      decide (Modest names (expressionsOfOption step)) && body.isModest names
  | .block body => bodyIsModest names body
  | _ => true

/-- Whether an optional statement is of this kind. -/
def branchIsModest (names : List String) : Option Stmt → Bool
  | some statement => statement.isModest names
  | none => true

/-- Whether statements are of this kind. -/
def bodyIsModest (names : List String) : List Stmt → Bool
  | [] => true
  | statement :: rest => statement.isModest names && bodyIsModest names rest

end

section Declared

variable {names : List String}

theorem mem_of_isModest_function {definition : FunctionDef}
    (h : Stmt.isModest names (.function definition) = true) :
    ∀ name ∈ definition.name, name ∈ names := by
  unfold Stmt.isModest at h
  intro name hname
  rw [Option.mem_def.mp hname] at h
  exact of_decide_eq_true h

mutual

/-- A modest statement declares the given names only. -/
theorem mem_of_declaredNames (s : Stmt) (h : s.isModest names = true) :
    ∀ name ∈ s.declaredNames, name ∈ names := by
  cases s with
  | declaration declarators =>
    unfold Stmt.isModest at h
    intro name hname
    obtain ⟨declarator, hmem, rfl⟩ := List.mem_map.mp hname
    exact of_decide_eq_true (List.all_eq_true.mp (Bool.and_eq_true_iff.mp h).1 declarator hmem)
  | ifElse test consequent alternate =>
    obtain ⟨hboth, halternate⟩ := Bool.and_eq_true_iff.mp h
    have hconsequent := (Bool.and_eq_true_iff.mp hboth).2
    unfold Stmt.declaredNames
    refine List.forall_mem_append.mpr ⟨mem_of_declaredNames consequent hconsequent, ?_⟩
    cases alternate with
    | some alternate => exact mem_of_declaredNames alternate halternate
    | none => exact fun _ hname => nomatch hname
  | whileLoop test body => exact mem_of_declaredNames body (Bool.and_eq_true_iff.mp h).2
  | forLoop start test step body =>
    obtain ⟨hhead, hbody⟩ := Bool.and_eq_true_iff.mp h
    have hstart := (Bool.and_eq_true_iff.mp (Bool.and_eq_true_iff.mp hhead).1).1
    unfold Stmt.declaredNames
    refine List.forall_mem_append.mpr ⟨?_, mem_of_declaredNames body hbody⟩
    cases start with
    | some start => exact mem_of_declaredNames start hstart
    | none => exact fun _ hname => nomatch hname
  | block body => exact mem_of_declaredNamesOf body h
  | _ => exact fun _ hname => nomatch hname

theorem mem_of_declaredNamesOf (body : List Stmt) (h : bodyIsModest names body = true) :
    ∀ name ∈ declaredNamesOf body, name ∈ names := by
  cases body with
  | nil => exact fun _ hname => nomatch hname
  | cons s rest =>
    obtain ⟨hfirst, hrest⟩ := Bool.and_eq_true_iff.mp h
    exact List.forall_mem_append.mpr
      ⟨mem_of_declaredNames s hfirst, mem_of_declaredNamesOf rest hrest⟩

end

end Declared

namespace Run

/-! ## Runs that keep what was there -/

/-- Whether a run that has an answer keeps everything but the values of some global names. -/
def Keeping (names : List String) {α : Type} (run : Run α) : Prop :=
  ∀ machine a later, run machine = .ok a later → machine.store.Keeps names later.store

section Steps

variable {names : List String} {α β : Type}

theorem keeping_pure (a : α) : Keeping names (pure a) := by
  intro machine b later h
  cases h
  exact machine.store.keeps_refl

theorem keeping_throw (halt : Halt) : Keeping names (throw halt : Run α) :=
  fun _ _ _ h => nomatch h

theorem Keeping.bind {run : Run α} {next : α → Run β} (first : Keeping names run)
    (second : ∀ a, Keeping names (next a)) : Keeping names (run >>= next) := by
  intro machine b later h
  obtain ⟨a, middle, hrun, h⟩ := bind_eq_ok.mp h
  exact (first _ _ _ hrun).trans (second a _ _ _ h)

theorem keeping_inStore {next : Store → Run α} (h : ∀ store, Keeping names (next store)) :
    Keeping names (store >>= next) :=
  fun machine => h machine.store machine

theorem keeping_modifyStore {change : Store → Store}
    (h : ∀ store : Store, store.Keeps names (change store)) :
    Keeping names (modifyStore change) := by
  intro machine a later heq
  cases heq
  exact h machine.store

theorem keeping_updateStore {change : Store → α × Store}
    (h : ∀ store : Store, store.Keeps names (change store).2) :
    Keeping names (updateStore change) := by
  rintro ⟨store, log, calls, nesting⟩ a later heq
  cases heq
  exact h store

theorem Keeping.deeper {run : Run α} (h : Keeping names run) : Keeping names (deeper run) := by
  intro machine a later heq
  unfold Run.deeper at heq
  dsimp only at heq
  split at heq
  · cases heq
  · cases hrun : run { machine with nesting := machine.nesting + 1 } with
    | ok b after =>
      rw [hrun] at heq
      cases heq
      exact h { machine with nesting := machine.nesting + 1 } a after hrun
    | error halt after =>
      rw [hrun] at heq
      cases heq

theorem keeping_mapM {step : α → Run β} {items : List α}
    (h : ∀ item ∈ items, Keeping names (step item)) : Keeping names (items.mapM step) := by
  induction items with
  | nil => exact keeping_pure []
  | cons item items ih =>
    obtain ⟨hfirst, hrest⟩ := List.forall_mem_cons.mp h
    rw [List.mapM_cons]
    exact hfirst.bind fun _ => (ih hrest).bind fun _ => keeping_pure _

theorem keeping_ofExcept (result : Except EvalError α) : Keeping names (ofExcept result) := by
  cases result with
  | ok a => exact keeping_pure a
  | error e => exact keeping_throw _

theorem keeping_ofFault (result : Except TypeFault α) : Keeping names (ofFault result) :=
  ofFault_eq result ▸ keeping_ofExcept _

end Steps

/-! ## Parts of modest scripts -/

section Parts

variable {names : List String} {eval : Expr → Run Value} {exec : Stmt → Run Flow}

/-- Whether modest expressions keep what was there. -/
def EvaluatesModestly (names : List String) (eval : Expr → Run Value) : Prop :=
  ∀ e : Expr, Modest names e.expressions → Keeping names (eval e)

/-- Whether modest statements keep what was there. -/
def ExecutesModestly (names : List String) (exec : Stmt → Run Flow) : Prop :=
  ∀ s : Stmt, s.isModest names = true → Keeping names (exec s)

theorem keeping_lookUp (name : String) : Keeping names (lookUp globalFrame name) := by
  refine keeping_inStore fun store => ?_
  cases store.binding? globalFrame name with
  | some value => exact keeping_pure value
  | none => exact keeping_throw _

theorem keeping_write {name : String} (h : name ∈ names) (value : Value) :
    Keeping names (writePlace globalFrame value (.name name)) :=
  keeping_modifyStore fun store => store.keeps_assign h value

theorem keeping_assigned (heval : EvaluatesModestly names eval) (op : AssignOp) (name : String)
    {value : Expr} (h : Modest names value.expressions) :
    Keeping names (assigned eval globalFrame op (.name name) value) := by
  unfold assigned
  cases op.binary? with
  | none => exact heval value h
  | some op =>
    exact (keeping_lookUp name).bind fun _ => (heval value h).bind fun _ =>
      keeping_inStore fun _ => keeping_pure _

theorem keeping_evalAssign (heval : EvaluatesModestly names eval) (op : AssignOp)
    {target value : Expr} (h : Modest names (Expr.assign op target value).expressions) :
    Keeping names (evalAssign eval globalFrame op target value) := by
  obtain ⟨hself, hparts⟩ := List.forall_mem_cons.mp h
  obtain ⟨-, hvalue⟩ := List.forall_mem_append.mp hparts
  cases target with
  | identifier name =>
    have hname : name ∈ names := of_decide_eq_true hself
    have heq : evalAssign eval globalFrame op (.identifier name) value = do
        let result ← assigned eval globalFrame op (.name name) value
        writePlace globalFrame result (.name name)
        return result := rfl
    rw [heq]
    exact (keeping_assigned heval op name hvalue).bind fun result =>
      (keeping_write hname result).bind fun _ => keeping_pure result
  | _ => cases hself

theorem keeping_evalUpdate (op : UpdateOp) (before : Bool) {target : Expr}
    (h : Modest names (Expr.update op before target).expressions) :
    Keeping names (evalUpdate eval globalFrame op before target) := by
  obtain ⟨hself, -⟩ := List.forall_mem_cons.mp h
  cases target with
  | identifier name =>
    have hname : name ∈ names := of_decide_eq_true hself
    have heq : evalUpdate eval globalFrame op before (.identifier name) = do
        let current ← lookUp globalFrame name
        let old := current.toNumber (← store)
        let new := op.apply old
        writePlace globalFrame (.number new) (.name name)
        return .number (if before then new else old) := rfl
    rw [heq]
    exact (keeping_lookUp name).bind fun _ => keeping_inStore fun _ =>
      (keeping_write hname _).bind fun _ => keeping_pure _
  | _ => cases hself

theorem keeping_evalUnary (heval : EvaluatesModestly names eval) (op : UnaryOp) {operand : Expr}
    (h : Modest names operand.expressions) :
    Keeping names (evalUnary eval globalFrame op operand) := by
  unfold evalUnary
  split
  · exact keeping_inStore fun _ => keeping_pure _
  · exact (heval operand h).bind fun _ => keeping_inStore fun _ => keeping_pure _

theorem keeping_evalLogical (heval : EvaluatesModestly names eval) (op : LogicalOp)
    {left right : Expr} (hleft : Modest names left.expressions)
    (hright : Modest names right.expressions) :
    Keeping names (evalLogical eval op left right) := by
  refine (heval left hleft).bind fun value => ?_
  split
  · exact keeping_pure value
  · exact heval right hright

theorem keeping_evalConditional (heval : EvaluatesModestly names eval)
    {test consequent alternate : Expr} (htest : Modest names test.expressions)
    (hconsequent : Modest names consequent.expressions)
    (halternate : Modest names alternate.expressions) :
    Keeping names (evalConditional eval test consequent alternate) := by
  refine (heval test htest).bind fun value => ?_
  split
  · exact heval consequent hconsequent
  · exact heval alternate halternate

theorem keeping_executeList (hexec : ExecutesModestly names exec) {body : List Stmt}
    (h : bodyIsModest names body = true) (completion : Option Value) :
    Keeping names (executeList exec body completion) := by
  induction body generalizing completion with
  | nil => exact keeping_pure _
  | cons statement rest ih =>
    obtain ⟨hfirst, hrest⟩ := Bool.and_eq_true_iff.mp h
    refine (hexec statement hfirst).bind fun flow => ?_
    cases flow with
    | normal value => exact ih hrest _
    | _ => exact keeping_pure _

theorem keeping_executeDeclaration (heval : EvaluatesModestly names eval)
    {declarators : List (String × Option Expr)}
    (hnames : ∀ declarator ∈ declarators, declarator.1 ∈ names)
    (h : Modest names (expressionsOfDeclarators declarators)) :
    Keeping names (executeDeclaration eval globalFrame declarators) := by
  induction declarators with
  | nil => exact keeping_pure ()
  | cons declarator rest ih =>
    obtain ⟨name, initial⟩ := declarator
    obtain ⟨hname, hrest⟩ := List.forall_mem_cons.mp hnames
    obtain ⟨hinitial, hexpressions⟩ := List.forall_mem_append.mp h
    cases initial with
    | some initial =>
      exact (heval initial hinitial).bind fun value =>
        (keeping_modifyStore fun store => store.keeps_declare hname value).bind fun _ =>
          ih hrest hexpressions
    | none =>
      exact (keeping_modifyStore fun store => store.keeps_declareMissing hname).bind fun _ =>
        ih hrest hexpressions

theorem keeping_iterate {test : Run Bool} {body : Run Flow} {step : Run Unit}
    (htest : Keeping names test) (hbody : Keeping names body) (hstep : Keeping names step)
    (rounds : Nat) (completion : Option Value) :
    Keeping names (iterate test body step rounds completion) := by
  induction rounds generalizing completion with
  | zero => exact keeping_throw _
  | succ rounds ih =>
    refine htest.bind fun goesOn => ?_
    split
    · refine hbody.bind fun flow => ?_
      cases flow with
      | normal value => exact hstep.bind fun _ => ih _
      | continueLoop => exact hstep.bind fun _ => ih _
      | _ => exact keeping_pure _
    · exact keeping_pure _

theorem keeping_ofOption (heval : EvaluatesModestly names eval) {e : Option Expr}
    (h : Modest names (expressionsOfOption e)) :
    Keeping names (returnValue eval e) ∧ Keeping names (loopTest eval e) ∧
      Keeping names (loopStep eval e) := by
  cases e with
  | some e =>
    exact ⟨heval e h, (heval e h).bind fun _ => keeping_pure _,
      (heval e h).bind fun _ => keeping_pure ()⟩
  | none => exact ⟨keeping_pure _, keeping_pure _, keeping_pure ()⟩

theorem keeping_loopStart (hexec : ExecutesModestly names exec) {start : Option Stmt}
    (h : branchIsModest names start = true) : Keeping names (loopStart exec start) := by
  cases start with
  | some start => exact (hexec start h).bind fun _ => keeping_pure ()
  | none => exact keeping_pure ()

theorem keeping_executeIf (heval : EvaluatesModestly names eval)
    (hexec : ExecutesModestly names exec) {test : Expr} {consequent : Stmt}
    {alternate : Option Stmt} (htest : Modest names test.expressions)
    (hconsequent : consequent.isModest names = true)
    (halternate : branchIsModest names alternate = true) :
    Keeping names (executeIf eval exec test consequent alternate) := by
  refine (heval test htest).bind fun value => ?_
  split
  · exact hexec consequent hconsequent
  · cases alternate with
    | some alternate => exact hexec alternate halternate
    | none => exact keeping_pure _

end Parts

/-! ## Recursion -/

section Recursion

variable {names : List String} {limit fuel : Nat}

/-- Modest expressions keep what was there when the ones inside them do. -/
theorem keeping_evaluate (heval : EvaluatesModestly names (evaluate limit fuel globalFrame)) :
    EvaluatesModestly names (evaluate limit (fuel + 1) globalFrame) := by
  refine fun e h => .deeper ?_
  cases e with
  | literal literal => exact keeping_pure _
  | identifier name => exact keeping_lookUp name
  | array elements =>
    have helements := forall_expressionsOfAll.mp (List.forall_mem_cons.mp h).2
    exact (keeping_mapM fun e hmem => heval e (helements e hmem)).bind fun _ =>
      keeping_updateStore fun store => store.keeps_newArray _
  | object properties =>
    have hproperties := forall_expressionsOfProperties.mp (List.forall_mem_cons.mp h).2
    refine (keeping_mapM fun property hmem => ?_).bind fun _ =>
      keeping_updateStore fun store => store.keeps_newObject _
    exact (heval _ (hproperties property hmem)).bind fun _ => keeping_pure _
  | member object name =>
    exact (heval object (List.forall_mem_cons.mp h).2).bind fun _ =>
      keeping_inStore fun _ => keeping_ofFault _
  | index object key =>
    obtain ⟨hobject, hkey⟩ := List.forall_mem_append.mp (List.forall_mem_cons.mp h).2
    exact (heval object hobject).bind fun _ => (heval key hkey).bind fun _ =>
      keeping_inStore fun _ => keeping_ofFault _
  | call callee arguments => cases (List.forall_mem_cons.mp h).1
  | unary op operand => exact keeping_evalUnary heval op (List.forall_mem_cons.mp h).2
  | binary op left right =>
    obtain ⟨hleft, hright⟩ := List.forall_mem_append.mp (List.forall_mem_cons.mp h).2
    exact (heval left hleft).bind fun _ => (heval right hright).bind fun _ =>
      keeping_inStore fun _ => keeping_pure _
  | logical op left right =>
    obtain ⟨hleft, hright⟩ := List.forall_mem_append.mp (List.forall_mem_cons.mp h).2
    exact keeping_evalLogical heval op hleft hright
  | conditional test consequent alternate =>
    obtain ⟨hboth, halternate⟩ := List.forall_mem_append.mp (List.forall_mem_cons.mp h).2
    obtain ⟨htest, hconsequent⟩ := List.forall_mem_append.mp hboth
    exact keeping_evalConditional heval htest hconsequent halternate
  | assign op target value => exact keeping_evalAssign heval op h
  | update op before target => exact keeping_evalUpdate op before h
  | function definition => exact keeping_updateStore fun store => store.keeps_newFunction _

/-- Modest statements keep what was there when what they are made of does. -/
theorem keeping_execute (heval : EvaluatesModestly names (evaluate limit fuel globalFrame))
    (hexec : ExecutesModestly names (execute limit fuel globalFrame)) :
    ExecutesModestly names (execute limit (fuel + 1) globalFrame) := by
  intro s h
  cases s with
  | expression value =>
    exact (heval value (of_decide_eq_true h)).bind fun _ => keeping_pure _
  | declaration declarators =>
    obtain ⟨hnames, hexpressions⟩ := Bool.and_eq_true_iff.mp h
    refine (keeping_executeDeclaration heval (fun declarator hmem => ?_)
      (of_decide_eq_true hexpressions)).bind fun _ => keeping_pure _
    exact of_decide_eq_true (List.all_eq_true.mp hnames declarator hmem)
  | function definition =>
    exact (keeping_modifyStore fun store =>
      store.keeps_declareFunction (mem_of_isModest_function h)).bind fun _ => keeping_pure _
  | ret value =>
    exact (keeping_ofOption heval (of_decide_eq_true h)).1.bind fun _ => keeping_pure _
  | ifElse test consequent alternate =>
    obtain ⟨hboth, halternate⟩ := Bool.and_eq_true_iff.mp h
    obtain ⟨htest, hconsequent⟩ := Bool.and_eq_true_iff.mp hboth
    exact keeping_executeIf heval hexec (of_decide_eq_true htest) hconsequent halternate
  | whileLoop test body =>
    obtain ⟨htest, hbody⟩ := Bool.and_eq_true_iff.mp h
    exact keeping_iterate ((heval test (of_decide_eq_true htest)).bind fun _ => keeping_pure _)
      (hexec body hbody) (keeping_pure ()) fuel none
  | forLoop start test step body =>
    obtain ⟨hhead, hbody⟩ := Bool.and_eq_true_iff.mp h
    obtain ⟨hboth, hstep⟩ := Bool.and_eq_true_iff.mp hhead
    obtain ⟨hstart, htest⟩ := Bool.and_eq_true_iff.mp hboth
    exact (keeping_loopStart hexec hstart).bind fun _ =>
      keeping_iterate (keeping_ofOption heval (of_decide_eq_true htest)).2.1 (hexec body hbody)
        (keeping_ofOption heval (of_decide_eq_true hstep)).2.2 fuel none
  | block body => exact keeping_executeList hexec h none
  | breakLoop => exact keeping_pure _
  | continueLoop => exact keeping_pure _
  | empty => exact keeping_pure _

end Recursion

/-- **Modest expressions and statements keep what was there,** whatever the fuel. -/
theorem keeping_recursion (names : List String) (limit fuel : Nat) :
    EvaluatesModestly names (evaluate limit fuel globalFrame) ∧
      ExecutesModestly names (execute limit fuel globalFrame) := by
  induction fuel with
  | zero => exact ⟨fun _ _ => keeping_throw _, fun _ _ => keeping_throw _⟩
  | succ fuel ih => exact ⟨keeping_evaluate ih.1, keeping_execute ih.1 ih.2⟩

end Run

theorem Store.keeps_hoist {names : List String} (store : Store) {body : List Stmt}
    (h : bodyIsModest names body = true) : store.Keeps names (store.hoist globalFrame body) := by
  induction body generalizing store with
  | nil => exact store.keeps_refl
  | cons statement rest ih =>
    obtain ⟨hfirst, hrest⟩ := Bool.and_eq_true_iff.mp h
    refine Keeps.trans ?_ (ih (store.hoistOne globalFrame statement) hrest)
    have hnames := mem_of_declaredNames statement hfirst
    cases statement with
    | function definition => exact store.keeps_declareFunction (mem_of_isModest_function hfirst)
    | _ =>
      exact store.keeps_foldl fun name hmem store => store.keeps_declareMissing (hnames name hmem)

/-- **A modest script keeps everything but the values of the given global names.** -/
theorem Program.keeping_run {names : List String} {program : Program}
    (h : bodyIsModest names program.body = true) (limit fuel : Nat) :
    Run.Keeping names (program.run limit fuel globalFrame) := by
  have hexec := (Run.keeping_recursion names limit fuel).2
  refine Run.Keeping.bind ?_ fun flow => Run.keeping_ofExcept _
  exact (Run.keeping_modifyStore fun store => store.keeps_hoist h).bind fun _ =>
    Run.keeping_executeList hexec h none

end Formulary
