import Formulary.Dispatch
import Formulary.Proofs.Script.Composed

/-!
# Work is put together from elementary steps

* `Work.Composed` : work that runs in the machine, finds programs, looks at the states of functions
  and notes them, begins contexts, and does nothing else with a context;
* `Formula.composed_prepare`, `Formula.composed_begin`, `Formula.composed_evaluate`,
  `Formula.composed_fire` : all that an engine does in a context is of this kind.
-/

namespace Formulary

namespace Work

/-- Leaves the context for a new one, which keeps the programs and the messages. -/
def renew : Work Unit :=
  modify fun context =>
    { Context.fresh context.programs with
      machine := { Machine.fresh with log := context.machine.log } }

/-- Work that is put together from elementary steps. -/
inductive Composed : {α : Type} → Work α → Prop where
  | pure {α : Type} (a : α) : Composed (pure a)
  | throw {α : Type} (e : Failure) : Composed (throw e : Work α)
  | bind {α β : Type} {work : Work α} {next : α → Work β} (first : Composed work)
      (second : ∀ a, Composed (next a)) : Composed (work >>= next)
  | ofRun {α : Type} {run : Run α} (composed : run.Composed) : Composed (ofRun run)
  | parse (text : String) : Composed (parse text)
  | store : Composed store
  /-- Nothing of the context is looked at but the states of functions. -/
  | inLedger {α : Type} {next : Context → Work α}
      (same : ∀ context other, context.ledger = other.ledger → next context = next other)
      (inner : ∀ context, Composed (next context)) : Composed (get >>= next)
  | mark (name : String) (state : LoadState) : Composed (mark name state)
  | renew : Composed renew

/-! ## Scripts, names and values -/

variable {α β : Type}

theorem composed_forM {items : List β} {work : β → Work Unit} (h : ∀ item, Composed (work item)) :
    Composed (items.forM work) := by
  induction items with
  | nil => exact .pure ()
  | cons item items ih => exact (h item).bind fun _ => ih

theorem composed_filterAuxM {items kept : List β} {test : β → Work Bool}
    (h : ∀ item, Composed (test item)) : Composed (items.filterAuxM test kept) := by
  induction items generalizing kept with
  | nil => exact .pure kept
  | cons item items ih => exact (h item).bind fun _ => ih

theorem composed_filterM {items : List β} {test : β → Work Bool}
    (h : ∀ item, Composed (test item)) : Composed (items.filterM test) :=
  (composed_filterAuxM h).bind fun _ => .pure _

theorem composed_runProgram (limits : Limits) (program : Program) :
    Composed (runProgram limits program) :=
  .ofRun (program.composed_run _ _ _)

theorem composed_run (limits : Limits) (text : String) : Composed (run limits text) :=
  (Composed.parse text).bind (composed_runProgram limits)

theorem Composed.withStore {work : Work α} (h : work.Composed) : work.withStore.Composed :=
  h.bind fun _ => Composed.store.bind fun _ => .pure _

theorem composed_lookUp (name : String) : Composed (lookUp name) :=
  Composed.store.bind fun _ => .pure _

theorem composed_define (name : String) (value : Value) : Composed (define name value) :=
  .ofRun (.modifyStore _)

theorem composed_defineJson (name : String) (json : Json) : Composed (defineJson name json) :=
  (Composed.ofRun (.updateStore _)).bind (composed_define name)

theorem composed_defineAll (members : List (String × Json)) : Composed (defineAll members) :=
  composed_forM fun entry => composed_defineJson entry.1 entry.2

theorem composed_toJson (value : Value) : Composed (toJson value) := by
  refine Composed.store.bind fun store => ?_
  cases value.toJson store with
  | ok json => exact .pure json
  | error e => exact .throw _

theorem composed_write (entry : LogEntry) : Composed (write entry) :=
  .ofRun (.write entry)

theorem composed_install (name : String) (builtin : Builtin) : Composed (install name builtin) :=
  (Composed.ofRun (.updateStore _)).bind (composed_define name)

end Work

namespace Formula

variable (formula : Formula) (fuel : Nat) (trigger : Trigger) (input : Members)

/-! ## Loading functions -/

theorem composed_missing (policy : UnresolvedPolicy) (name : String) :
    (missing policy name).Composed := by
  cases policy with
  | ignore => exact .pure ()
  | warn => exact Work.composed_write _
  | strict => exact .throw _

theorem composed_loadBuiltin (name : String) (builtin : Builtin) :
    (loadBuiltin name builtin).Composed :=
  (Work.Composed.mark name .loading).bind fun _ =>
    (Work.composed_install name builtin).bind fun _ => .mark name .loaded

theorem composed_loadBody {run : String → Work Value} {inject : String → Work Unit}
    (hrun : ∀ text, (run text).Composed) (hinject : ∀ name, (inject name).Composed)
    (name body : String) : (loadBody run inject name body).Composed :=
  (Work.Composed.mark name .loading).bind fun _ =>
    (Work.composed_forM hinject).bind fun _ =>
      (Work.Composed.mark name .loaded).bind fun _ => (hrun body).bind fun _ => .pure ()

theorem composed_injectWithin (depth : Nat) (name : String) :
    (formula.injectWithin fuel depth name).Composed := by
  induction depth generalizing name with
  | zero => exact .throw _
  | succ depth ih =>
    unfold injectWithin
    refine .inLedger (fun context other h => by rw [h]) fun context => ?_
    cases context.ledger.state name with
    | loaded => exact .pure ()
    | loading => exact .pure ()
    | notLoaded =>
      cases formula.registry.builtin? name with
      | some builtin => exact composed_loadBuiltin name builtin
      | none =>
        cases formula.registry.body? name with
        | some body => exact composed_loadBody (Work.composed_run _) ih name body
        | none => exact composed_missing _ name

theorem composed_inject (name : String) : (formula.inject fuel name).Composed :=
  formula.composed_injectWithin fuel _ name

theorem composed_prepare (text : String) : (formula.prepare fuel text).Composed :=
  Work.composed_forM (formula.composed_inject fuel)

/-! ## New contexts -/

/-- What is done in a context that has been left for a new one. -/
theorem composed_start :
    (match formula.start with
      | none => return ()
      | some program => do
        let _ ← Work.runProgram (formula.limits fuel) program
        return () : Work Unit).Composed := by
  cases formula.start with
  | none => exact .pure ()
  | some program => exact (Work.composed_runProgram _ program).bind fun _ => .pure ()

theorem composed_begin : (formula.begin fuel).Composed :=
  Work.Composed.renew.bind fun _ => formula.composed_start fuel

theorem composed_beginFor (text : String) : (formula.beginFor fuel text).Composed :=
  (formula.composed_begin fuel).bind fun _ => formula.composed_prepare fuel text

theorem composed_evaluate (script : String) (members : List (String × Json)) :
    (formula.evaluate fuel script members).Composed :=
  (formula.composed_beginFor fuel script).bind fun _ =>
    (Work.composed_defineAll members).bind fun _ => Work.composed_run _ script

/-! ## Firing -/

theorem composed_defineMembers (name : String) (members : Members) :
    (defineMembers name members).Composed := by
  unfold defineMembers
  split
  · exact .pure ()
  · exact Work.composed_defineJson _ _

theorem composed_accepts (entry : FormulaEntry) :
    (formula.accepts fuel trigger input entry).Composed := by
  refine (Work.composed_defineJson _ _).bind fun _ =>
    (composed_defineMembers _ _).bind fun _ => (Work.composed_run _ _).bind fun verdict => ?_
  cases verdict with
  | boolean b => exact .pure b
  | _ => exact .throw _

theorem composed_matching (entries : List FormulaEntry) :
    (formula.matching fuel trigger input entries).Composed :=
  (formula.composed_beginFor fuel _).bind fun _ =>
    Work.composed_filterM (formula.composed_accepts fuel trigger input)

theorem composed_runMapping (mapping : String) : (formula.runMapping fuel mapping).Composed :=
  (formula.composed_prepare fuel mapping).bind fun _ =>
    (Work.composed_run _ mapping).bind fun _ => .pure ()

theorem composed_mapInputs : (formula.mapInputs fuel trigger input).Composed := by
  unfold mapInputs
  split
  · exact .pure ()
  · exact (composed_defineMembers _ _).bind fun _ => formula.composed_runMapping fuel _

theorem composed_outputMembers (name : String) : (outputMembers name).Composed := by
  refine (Work.composed_lookUp name).bind fun value =>
    (Work.composed_toJson value).bind fun json => ?_
  cases json with
  | object members => exact .pure members
  | _ => exact .throw _

theorem composed_mapOutputs : (formula.mapOutputs fuel trigger).Composed := by
  unfold mapOutputs
  split
  · exact .pure []
  · refine (composed_defineMembers _ _).bind fun _ =>
      (formula.composed_runMapping fuel _).bind fun _ => ?_
    split
    · exact .pure []
    · exact composed_outputMembers _

/-- What is done for a trigger in a context that has been begun for the formula. -/
theorem composed_behind_beginFor (entry : FormulaEntry) :
    (do
      formula.mapInputs fuel trigger input
      let returned ← Work.run (formula.limits fuel) entry.body
      let outputs ← formula.mapOutputs fuel trigger
      return insertMember returnName (← Work.toJson returned) outputs : Work Members).Composed :=
  (formula.composed_mapInputs fuel trigger input).bind fun _ =>
    (Work.composed_run _ _).bind fun returned =>
      (formula.composed_mapOutputs fuel trigger).bind fun _ =>
        (Work.composed_toJson returned).bind fun _ => .pure _

theorem composed_runEntry (entry : FormulaEntry) :
    (formula.runEntry fuel trigger input entry).Composed :=
  (formula.composed_beginFor fuel entry.body).bind fun _ =>
    formula.composed_behind_beginFor fuel trigger input entry

/-- **Firing a trigger is put together from elementary steps.** -/
theorem composed_fire (catalog : Catalog) (id : String) :
    (formula.fire fuel catalog id input).Composed := by
  unfold fire
  cases catalog.trigger? id with
  | none => exact .throw _
  | some trigger =>
    refine (formula.composed_matching fuel trigger input _).bind fun entries => ?_
    cases entries with
    | nil => exact .throw _
    | cons entry rest => exact formula.composed_runEntry fuel trigger input entry

end Formula

end Formulary
