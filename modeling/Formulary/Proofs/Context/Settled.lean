import Formulary.Dispatch
import Formulary.Proofs.Context.Outcome
import Formulary.Proofs.Script.Composed
import Formulary.Proofs.Script.Evaluation

/-!
# Contexts between two pieces of work

* `Machine.Settled` : machines in which no call is active and every reference is good;
* `Work.Settles` : work that leaves settled machines settled;
* `Formula.settles_prepare`, `Formula.settles_accepts` : what an engine does to a context does;
* `Formula.settled_of_beginFor` : so the context that is prepared for a text is settled.
-/

namespace Formulary

/-- Every reference stands for itself. -/
def Shifts.still : Shifts :=
  ⟨⟨0, 0⟩, ⟨0, 0⟩, ⟨0, 0⟩, ⟨1, 0⟩⟩

theorem Shift.place_still (kept index : Nat) : (Shift.mk kept 0).place index = index := by
  unfold place
  split <;> rfl

/-- A machine between two pieces of work: every reference is good, built-in functions do not look
into references, and nothing is active. -/
structure Machine.Settled (machine : Machine) : Prop where
  linked : machine.Linked .still [] machine
  calls : machine.calls = 0
  nesting : machine.nesting = 0

/-! ## New machines -/

/-- Whether a value refers to something in a store, if to anything. -/
def Value.isInside (store : Store) : Value → Bool
  | array ref => ref.index < store.arrays.size
  | object ref => ref.index < store.objects.size
  | function ref => ref.index < store.functions.size
  | _ => true

/-- Whether a function is one that every script has. -/
def Callable.isIntrinsic : Callable → Bool
  | intrinsic _ => true
  | _ => false

/-- Whether all that a store has are functions that every script has, in objects or under global
names. -/
def Store.isPlain (store : Store) : Bool :=
  store.arrays.isEmpty &&
    store.objects.all (fun table => table.entries.all fun entry => entry.2.isInside store) &&
    store.functions.all Callable.isIntrinsic && store.frames.size == 1 &&
    store.frames.all fun frame => frame.parent.isNone &&
      frame.bindings.entries.all fun entry => entry.2.isInside store

theorem Value.linked_of_isInside {store : Store} {value : Value} (h : value.isInside store = true) :
    value.Linked (Shifts.still.links store) value := by
  cases value with
  | array ref => exact .array ⟨of_decide_eq_true h, (Shift.place_still _ _).symm⟩
  | object ref => exact .object ⟨of_decide_eq_true h, (Shift.place_still _ _).symm⟩
  | function ref => exact .function ⟨of_decide_eq_true h, (Shift.place_still _ _).symm⟩
  | _ => constructor

theorem Table.linked_of_isInside {store : Store} {table : Table Value}
    (h : table.entries.all (fun entry => entry.2.isInside store) = true) :
    table.Linked (Shifts.still.links store) table :=
  List.forall₂_same.mpr fun entry hmem =>
    ⟨rfl, Value.linked_of_isInside (List.all_eq_true.mp h entry hmem)⟩

theorem Frame.linked_of_isInside {store : Store} {frame : Frame} {hidden : List String}
    {ref : FrameRef} (parent : frame.parent.isNone = true)
    (h : frame.bindings.entries.all (fun entry => entry.2.isInside store) = true) :
    frame.Linked (Shifts.still.links store) hidden ref frame := by
  rw [Option.isNone_iff_eq_none] at parent
  refine ⟨?_, ?_, fun name _ => (Table.linked_of_isInside h).get? name⟩
  · rw [parent]
    exact .none
  · rw [parent]
    exact fun _ hmem => nomatch hmem

namespace Store

variable {store : Store}

theorem callable_of_intrinsic (h : store.functions.all Callable.isIntrinsic = true)
    {ref : FunctionRef} (hlt : ref.index < store.functions.size) :
    ∃ function, store.callable ref = .intrinsic function := by
  unfold callable
  rw [Array.getElem?_eq_getElem hlt, Option.getD_some]
  have hcallable := Array.all_eq_true'.mp h _ (Array.getElem_mem hlt)
  cases heq : store.functions[ref.index] with
  | intrinsic function => exact ⟨function, rfl⟩
  | _ => rw [heq] at hcallable; cases hcallable

theorem tame_of_intrinsic {names : List String}
    (h : store.functions.all Callable.isIntrinsic = true) : store.Tame names := by
  refine holds_of_functions (fun callable hmem => ?_) fun _ hmem => nomatch hmem
  have hcallable := Array.all_eq_true'.mp h callable hmem
  cases callable with
  | intrinsic function => trivial
  | _ => cases hcallable

/-- Functions that every script has mention nothing. -/
theorem avoid_of_intrinsic {names : List String}
    (h : store.functions.all Callable.isIntrinsic = true) :
    ∀ ref definition scope, store.callable ref = .script definition scope →
      Avoid names definition.expressions := by
  intro ref definition scope hcallable
  have htame : (store.callable ref).Tame names := tame_of_intrinsic h ref
  rw [hcallable] at htame
  exact htame

/-- **A plain store corresponds to itself.** -/
theorem corresponds_of_isPlain (h : store.isPlain = true) :
    store.Corresponds .still [] store ∧ store.Tame [] := by
  simp only [isPlain, Bool.and_eq_true, Array.isEmpty_iff, beq_iff_eq] at h
  obtain ⟨⟨⟨⟨harrays, hobjects⟩, hfunctions⟩, hsize⟩, hframes⟩ := h
  have hempty : ∀ size : Nat, Shift.Fits ⟨0, 0⟩ size size := fun _ => ⟨Nat.zero_le _, rfl⟩
  have hfit : Shifts.still.Fit store store :=
    ⟨hempty _, hempty _, hempty _, ⟨Nat.le_of_eq hsize.symm, rfl⟩⟩
  have hself : ∀ {kept i i' : Nat}, i' = Shift.place ⟨kept, 0⟩ i → i' = i :=
    fun heq => heq.trans (Shift.place_still _ _)
  refine ⟨⟨hfit, Nat.zero_lt_one, ⟨⟨Shifts.oneToOne_links _ _, ?_, ?_⟩, ?_⟩, ?_⟩,
    tame_of_intrinsic hfunctions⟩ <;>
    rintro ⟨i⟩ ⟨i'⟩ ⟨hlt, heq⟩ <;> obtain rfl : i' = i := hself heq
  · rw [harrays] at hlt
    exact absurd hlt (Nat.not_lt_zero _)
  · unfold properties
    rw [Array.getElem?_eq_getElem hlt]
    exact Table.linked_of_isInside (Array.all_eq_true'.mp hobjects _ (Array.getElem_mem hlt))
  · obtain ⟨function, hcallable⟩ := callable_of_intrinsic hfunctions hlt
    rw [hcallable]
    exact .intrinsic function
  · unfold frame
    rw [Array.getElem?_eq_getElem hlt]
    have hframe := Array.all_eq_true'.mp hframes _ (Array.getElem_mem hlt)
    obtain ⟨hparent, hbindings⟩ := Bool.and_eq_true_iff.mp hframe
    exact Frame.linked_of_isInside hparent hbindings

end Store

theorem Machine.settled_of_isPlain {machine : Machine} (h : machine.store.isPlain = true)
    (calls : machine.calls = 0) (nesting : machine.nesting = 0) : machine.Settled :=
  have hstore := Store.corresponds_of_isPlain h
  ⟨⟨hstore.1, hstore.2, rfl, rfl⟩, calls, nesting⟩

theorem Machine.settled_fresh : Machine.fresh.Settled :=
  settled_of_isPlain (by decide +kernel) rfl rfl

/-! ## Work that leaves machines settled -/

namespace Machine.Settled

variable {machine later : Machine}

theorem global (settled : machine.Settled) :
    (Shifts.still.links machine.store).frame globalFrame globalFrame :=
  settled.linked.store.global_linked

/-- Built-in functions never tell corresponding stores apart. -/
theorem tame_of_avoid (settled : machine.Settled) {names : List String}
    (avoid : ∀ ref definition scope, machine.store.callable ref = .script definition scope →
      Avoid names definition.expressions) : machine.store.Tame names := by
  intro ref
  have htame := settled.linked.tame ref
  cases hcallable : machine.store.callable ref with
  | script definition scope => exact avoid ref definition scope hcallable
  | intrinsic function => trivial
  | builtin name function =>
    rw [hcallable] at htame
    exact htame

theorem log (settled : machine.Settled) (log : Array LogEntry) :
    Settled { machine with log := log } :=
  ⟨⟨settled.linked.store, settled.linked.tame, rfl, rfl⟩, settled.calls, settled.nesting⟩

/-- A run that comes to the same in linked machines leaves a settled machine settled. -/
theorem run {α : Type} {run : Run α} {a : α} (settled : machine.Settled)
    (composed : run.Composed) {r : Links → α → α → Prop}
    (linked : Run.Linked .still [] [] machine.store r run run)
    (h : run machine = .ok a later) : later.Settled := by
  have halike := linked machine machine settled.linked machine.store.grows_refl
  have hcounts := composed.counts machine
  rw [h] at halike hcounts
  cases halike with
  | ok hlinked _ _ =>
    exact ⟨hlinked, hcounts.1.trans settled.calls, hcounts.2.trans settled.nesting⟩

end Machine.Settled

namespace Work

variable {α β : Type}

/-- Whether work leaves a settled machine settled when it has an answer. -/
def Settles (work : Work α) : Prop :=
  ∀ context a later, context.machine.Settled → work context = .ok a later → later.machine.Settled

theorem settles_pure (a : α) : Settles (pure a) := by
  intro context b later settled h
  cases h
  exact settled

theorem settles_throw (e : Failure) : Settles (throw e : Work α) :=
  fun _ _ _ _ h => nomatch h

theorem Settles.bind {work : Work α} {next : α → Work β} (first : work.Settles)
    (second : ∀ a, (next a).Settles) : (work >>= next).Settles := by
  intro context b later settled h
  obtain ⟨a, middle, hfirst, hnext⟩ := bind_eq_ok.mp h
  exact second a _ _ _ (first _ _ _ settled hfirst) hnext

theorem settles_forM {names : List β} {work : β → Work Unit} (h : ∀ name, (work name).Settles) :
    Settles (names.forM work) := by
  induction names with
  | nil => exact settles_pure ()
  | cons name names ih => exact (h name).bind fun _ => ih

theorem settles_ofRun {run : Run α} (composed : run.Composed) {r : Links → α → α → Prop}
    (linked : ∀ since : Store, (Shifts.still.links since).frame globalFrame globalFrame →
      Run.Linked .still [] [] since r run run) : Settles (ofRun run) := by
  rintro ⟨machine, ledger, programs⟩ a later settled h
  unfold ofRun at h
  dsimp only at h settled
  cases hrun : run machine with
  | ok b after =>
    rw [hrun] at h
    cases h
    exact settled.run composed (linked _ settled.global) hrun
  | error halt after =>
    rw [hrun] at h
    cases h

/-- Two runs one behind the other are one run. -/
theorem ofRun_bind (run : Run α) (next : α → Run β) :
    (do let a ← ofRun run; ofRun (next a)) = ofRun (run >>= next) := by
  funext context
  obtain ⟨machine, ledger, programs⟩ := context
  simp only [bind, EStateM.bind, ofRun]
  cases run machine with
  | ok a after => rfl
  | error halt after => rfl

theorem settles_parse (text : String) : Settles (parse text) := by
  intro context program later settled h
  rw [parse_eq] at h
  cases hparse : (context.programs.getOrParse text).1 with
  | ok found =>
    rw [hparse] at h
    cases h
    exact settled
  | error e =>
    rw [hparse] at h
    cases h

theorem settles_runProgram (limits : Limits) (program : Program) :
    Settles (runProgram limits program) :=
  settles_ofRun (program.composed_run _ _ _) fun _ hglobal =>
    program.linked_run hglobal (fun _ _ _ _ => List.not_mem_nil) _ _

theorem settles_run (limits : Limits) (text : String) : Settles (run limits text) :=
  (settles_parse text).bind (settles_runProgram limits)

/-- Making something and giving it a global name. -/
theorem settles_make (name : String) {change : Store → Value × Store}
    (h : ∀ store other : Store, store.Corresponds .still [] other →
      store.Made .still [] Value.Linked (change store) (change other)) :
    Settles (do define name (← ofRun (Run.updateStore change))) := by
  have heq : (do define name (← ofRun (Run.updateStore change)) : Work Unit) =
      ofRun (Run.updateStore change >>= fun value =>
        Run.modifyStore fun store => store.declare globalFrame name value) :=
    ofRun_bind _ _
  rw [heq]
  refine settles_ofRun (r := Same) (.bind (.updateStore _) fun _ => .modifyStore _)
    fun since hglobal => ?_
  refine .bind (.updateStore fun later other _ corresponds => h later other corresponds)
    fun later _ _ grows hvalue => ?_
  refine .modifyStore (fun last other hgrows corresponds => ?_) (fun _ => ?_) fun _ htame => htame
  · exact corresponds.declare corresponds.global_linked name (hvalue.mono hgrows)
  · exact Store.grows_declare _ _ _

theorem settles_defineJson (name : String) (json : Json) : Settles (defineJson name json) :=
  settles_make name fun _ _ corresponds => corresponds.ofJson json

theorem settles_install (name : String) {builtin : Builtin} (natural : builtin.Natural) :
    Settles (install name builtin) :=
  settles_make name fun _ _ corresponds =>
    corresponds.made_newFunction (.builtin name builtin) natural

theorem settles_write (entry : LogEntry) : Settles (write entry) :=
  settles_ofRun (.write entry) fun _ _ => .write entry entry

theorem settles_mark (name : String) (state : LoadState) : Settles (mark name state) := by
  intro context a later settled h
  cases h
  exact settled

end Work

/-! ## What an engine does to a context -/

namespace Formula

variable {formula : Formula} (fuel : Nat)

theorem settles_missing (policy : UnresolvedPolicy) (name : String) :
    (missing policy name).Settles := by
  cases policy with
  | ignore => exact Work.settles_pure ()
  | warn => exact Work.settles_write _
  | strict => exact Work.settles_throw _

theorem settles_injectWithin (natural : formula.registry.Natural) (depth : Nat) (name : String) :
    (formula.injectWithin fuel depth name).Settles := by
  induction depth generalizing name with
  | zero => exact Work.settles_throw _
  | succ depth ih =>
    intro context _ later settled h
    unfold injectWithin at h
    rw [Work.get_bind] at h
    cases hstate : context.ledger.state name with
    | notLoaded =>
      rw [hstate] at h
      cases hbuiltin : formula.registry.builtin? name with
      | some builtin =>
        rw [hbuiltin] at h
        refine Work.Settles.bind (Work.settles_mark name .loading) (fun _ =>
          (Work.settles_install name (natural name builtin hbuiltin)).bind fun _ =>
            Work.settles_mark name .loaded) _ _ _ settled h
      | none =>
        rw [hbuiltin] at h
        cases hbody : formula.registry.body? name with
        | some body =>
          rw [hbody] at h
          refine Work.Settles.bind (Work.settles_mark name .loading) (fun _ =>
            (Work.settles_forM ih).bind fun _ => (Work.settles_mark name .loaded).bind fun _ =>
              (Work.settles_run _ body).bind fun _ => Work.settles_pure ()) _ _ _ settled h
        | none =>
          rw [hbody] at h
          exact settles_missing _ name _ _ _ settled h
    | _ =>
      rw [hstate] at h
      cases h
      exact settled

theorem settles_prepare (natural : formula.registry.Natural) (text : String) :
    (formula.prepare fuel text).Settles :=
  Work.settles_forM fun name => settles_injectWithin fuel natural _ name

/-- **A new context is settled when it is prepared for a text.** -/
theorem settled_of_beginFor (natural : formula.registry.Natural) {text : String}
    {context later : Context} (h : formula.beginFor fuel text context = .ok () later) :
    later.machine.Settled := by
  obtain ⟨_, middle, hbegin, hprepare⟩ := bind_eq_ok.mp h
  refine settles_prepare fuel natural text _ _ _ ?_ hprepare
  unfold begin at hbegin
  obtain ⟨_, empty, hempty, hstart⟩ := bind_eq_ok.mp hbegin
  have hsettled : empty.machine.Settled := by
    rw [Work.modify_eq_ok.mp hempty]
    exact Machine.settled_fresh.log _
  cases hstart' : formula.start with
  | none =>
    rw [hstart'] at hstart
    exact Work.settles_pure () _ _ _ hsettled hstart
  | some program =>
    rw [hstart'] at hstart
    exact (Work.settles_runProgram _ program).bind (fun _ => Work.settles_pure ()) _ _ _ hsettled
      hstart

theorem settles_defineMembers (name : String) (members : Members) :
    (defineMembers name members).Settles := by
  unfold defineMembers
  split
  · exact Work.settles_pure ()
  · exact Work.settles_defineJson _ _

theorem settles_accepts (trigger : Trigger) (input : Members) (entry : FormulaEntry) :
    (formula.accepts fuel trigger input entry).Settles := by
  refine (Work.settles_defineJson _ _).bind fun _ => (settles_defineMembers _ _).bind fun _ =>
    (Work.settles_run _ _).bind fun verdict => ?_
  cases verdict with
  | boolean b => exact Work.settles_pure b
  | _ => exact Work.settles_throw _

end Formula

end Formulary
