import Formulary.Context.Basic
import Formulary.Proofs.Sequence

/-!
# What work comes to

* `Work.succeeds`, `Work.after` : whether work fails, and the context after it;
* `Work.get_bind`, `Work.parse_eq` : what looking at a context and finding a program come to;
* `Work.KeepsLedger` : work that leaves the states of functions as they are
  (`Work.keepsLedger_run`, `Work.keepsLedger_install`).
-/

namespace Formulary.Work

variable {α β : Type}

/-- Whether a piece of work does not fail. -/
def succeeds (work : Work α) (context : Context) : Bool :=
  match work context with
  | .ok _ _ => true
  | .error _ _ => false

/-- The context after a piece of work, whether or not it fails. -/
def after (work : Work α) (context : Context) : Context :=
  match work context with
  | .ok _ context => context
  | .error _ context => context

theorem succeeds_iff {work : Work α} {context : Context} :
    work.succeeds context = true ↔ ∃ a after, work context = .ok a after := by
  unfold succeeds
  constructor
  · intro h
    cases hwork : work context with
    | ok a after => exact ⟨a, after, rfl⟩
    | error e after =>
      rw [hwork] at h
      cases h
  · rintro ⟨a, after, hwork⟩
    rw [hwork]

/-- Work that looks at what it finds first. -/
theorem get_bind {ε σ α : Type} (next : σ → EStateM ε σ α) (state : σ) :
    (get >>= next) state = next state state := rfl

theorem pure_eq_ok {a b : α} {context later : Context} :
    (pure a : Work α) context = .ok b later ↔ a = b ∧ context = later := by
  show EStateM.Result.ok a context = .ok b later ↔ _
  rw [EStateM.Result.ok.injEq]

theorem modify_eq_ok {change : Context → Context} {context later : Context} {a : PUnit} :
    (modify change : Work PUnit) context = .ok a later ↔ later = change context := by
  show EStateM.Result.ok PUnit.unit (change context) = .ok a later ↔ _
  rw [EStateM.Result.ok.injEq]
  exact ⟨fun h => h.2.symm, fun h => ⟨rfl, h.symm⟩⟩

/-- Work by itself has the answer that it has without the earlier messages. -/
theorem answer_eq_ok {work : Work α} {context : Context} {a : α} :
    (work.perform context).answer = .ok a ↔ ∃ later, work context.silenced = .ok a later := by
  unfold perform
  cases work context.silenced with
  | ok b later => simp
  | error e later => simp

theorem withStore_eq_ok {work : Work α} {context later : Context} {a : α} {store : Store} :
    work.withStore context = .ok (a, store) later ↔
      work context = .ok a later ∧ later.machine.store = store := by
  unfold withStore
  rw [bind_eq_ok]
  constructor
  · rintro ⟨_, _, hwork, h⟩
    cases h
    exact ⟨hwork, rfl⟩
  · rintro ⟨hwork, rfl⟩
    exact ⟨a, later, hwork, rfl⟩

/-- An export leaves the context as it is. -/
theorem toJson_eq_ok {value : Value} {context later : Context} {json : Json} :
    toJson value context = .ok json later ↔
      value.toJson context.machine.store = .ok json ∧ context = later := by
  unfold toJson
  rw [bind_eq_ok]
  constructor
  · rintro ⟨store, middle, hstore, h⟩
    cases hstore
    cases hjson : value.toJson context.machine.store with
    | ok json' =>
      rw [hjson] at h
      cases h
      exact ⟨rfl, rfl⟩
    | error e =>
      rw [hjson] at h
      cases h
  · rintro ⟨hjson, rfl⟩
    refine ⟨_, _, rfl, ?_⟩
    rw [hjson]
    rfl

theorem after_modify_bind (change : Context → Context) (next : Work α) (context : Context) :
    (do modify change; next : Work α).after context = next.after (change context) := rfl

/-! ## States of functions -/

/-- Whether a piece of work leaves the states of functions as they are. -/
def KeepsLedger (work : Work α) : Prop :=
  ∀ context, (work.after context).ledger = context.ledger

theorem keepsLedger_pure (a : α) : KeepsLedger (pure a) := fun _ => rfl

theorem KeepsLedger.bind {work : Work α} {next : α → Work β} (first : work.KeepsLedger)
    (second : ∀ a, (next a).KeepsLedger) : (work >>= next).KeepsLedger := by
  intro context
  have hfirst := first context
  unfold after at hfirst ⊢
  show (match EStateM.bind work next context with
    | .ok _ context => context
    | .error _ context => context).ledger = context.ledger
  unfold EStateM.bind
  cases hwork : work context with
  | ok a later =>
    rw [hwork] at hfirst
    exact (second a later).trans hfirst
  | error e later =>
    rw [hwork] at hfirst
    exact hfirst

theorem keepsLedger_ofRun (run : Run α) : KeepsLedger (ofRun run) := by
  rintro ⟨machine, ledger, programs⟩
  unfold after ofRun
  dsimp only
  cases run machine <;> rfl

/-- What the program of a text comes to among the programs kept. -/
theorem parse_eq (text : String) (context : Context) : parse text context =
    match (context.programs.getOrParse text).1 with
    | .ok program => .ok program
        { context with programs := (context.programs.getOrParse text).2 }
    | .error e => .error (.parse e)
        { context with programs := (context.programs.getOrParse text).2 } := by
  unfold parse
  rw [get_bind]
  show (match (context.programs.getOrParse text).1 with
    | .ok program => (pure program : Work Program)
    | .error e => throw (Failure.parse e))
      { context with programs := (context.programs.getOrParse text).2 } = _
  cases (context.programs.getOrParse text).1 <;> rfl

theorem keepsLedger_parse (text : String) : KeepsLedger (parse text) := by
  intro context
  unfold after
  rw [parse_eq]
  cases (context.programs.getOrParse text).1 <;> rfl

theorem keepsLedger_runProgram (limits : Limits) (program : Program) :
    KeepsLedger (runProgram limits program) :=
  keepsLedger_ofRun _

theorem keepsLedger_run (limits : Limits) (text : String) : KeepsLedger (run limits text) :=
  (keepsLedger_parse text).bind (keepsLedger_runProgram limits)

theorem keepsLedger_define (name : String) (value : Value) : KeepsLedger (define name value) :=
  keepsLedger_ofRun _

theorem keepsLedger_defineAll (members : List (String × Json)) :
    KeepsLedger (defineAll members) := by
  induction members with
  | nil => exact keepsLedger_pure ()
  | cons entry members ih =>
    exact ((keepsLedger_ofRun _).bind fun _ => keepsLedger_define _ _).bind fun _ => ih

theorem keepsLedger_install (name : String) (builtin : Builtin) :
    KeepsLedger (install name builtin) :=
  (keepsLedger_ofRun _).bind fun _ => keepsLedger_define _ _

end Formulary.Work
