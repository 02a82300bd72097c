import Formulary.Proofs.Context.Unheard
import Formulary.Session

/-!
# What a firing comes to

* `Dispatcher` : an engine with a catalog, and the programs kept from one firing to the next;
* `Dispatcher.Selects` : the formula that the filter pass of a trigger selects;
* `Dispatcher.reached_spec` : what firings leave of a dispatcher;
* `Dispatcher.answer_fire` : a firing comes to what the formula comes to in a new engine;
* `Dispatcher.fire_of_selects` : it depends on the input, on what the trigger maps and on the text
  of the formula, and on nothing else.
-/

namespace Formulary

/-- How a trigger hands values to the formula that it selects and takes results from it. -/
structure Mapping where
  contextName : String
  inputMapping : String
  outputName : String
  outputMapping : String
  deriving DecidableEq

/-- What a trigger does with the formula that it selects. -/
def Trigger.mapping (trigger : Trigger) : Mapping :=
  ⟨trigger.contextName, trigger.inputMapping, trigger.outputName, trigger.outputMapping⟩

/-- An engine with the catalog whose triggers it fires, and the programs kept from one firing to
the next. -/
structure Dispatcher where
  catalog : Catalog
  session : Session

namespace Dispatcher

/-- A dispatcher that has fired nothing. -/
def ofCatalog (formula : Formula) (catalog : Catalog) : Dispatcher :=
  ⟨catalog, .ofFormula formula⟩

/-- Fires a trigger in a context that is not kept, with the given fuel for each script. -/
def fire (dispatcher : Dispatcher) (fuel : Nat) (id : String) (input : Members) :
    Stepped Members :=
  dispatcher.session.apart
    (dispatcher.session.formula.fire fuel dispatcher.catalog id input)

/-- The dispatcher behind firings in order, whether or not they fail. -/
def after (dispatcher : Dispatcher) (fuel : Nat) (history : List (String × Members)) :
    Dispatcher :=
  history.foldl
    (fun dispatcher firing =>
      { dispatcher with session := (dispatcher.fire fuel firing.1 firing.2).session })
    dispatcher

/-- What the filter of a trigger comes to in a context that is not kept. -/
def matching (dispatcher : Dispatcher) (fuel : Nat) (trigger : Trigger) (input : Members) :
    Stepped (List FormulaEntry) :=
  dispatcher.session.apart
    (dispatcher.session.formula.matching fuel trigger input dispatcher.catalog.formulas)

/-- Whether an identity names a trigger whose filter pass selects a formula. -/
structure Selects (dispatcher : Dispatcher) (fuel : Nat) (id : String) (input : Members)
    (trigger : Trigger) (entry : FormulaEntry) : Prop where
  named : dispatcher.catalog.trigger? id = some trigger
  first : (dispatcher.matching fuel trigger input).answer.toOption.bind List.head? = some entry

/-- What an evaluation of a script comes to as JSON, in a context that is not kept. -/
def exported (dispatcher : Dispatcher) (fuel : Nat) (script : String) : Stepped Json :=
  dispatcher.session.apart do
    Work.toJson (← dispatcher.session.formula.evaluate fuel script [])

/-! ## Behind other firings -/

/-- Firings leave the engine and the catalog as they are, and keep programs of their texts only. -/
theorem after_spec {dispatcher : Dispatcher} (sound : dispatcher.session.programs.Sound)
    (fuel : Nat) (history : List (String × Members)) :
    (dispatcher.after fuel history).catalog = dispatcher.catalog ∧
      (dispatcher.after fuel history).session.formula = dispatcher.session.formula ∧
      (dispatcher.after fuel history).session.programs.Sound := by
  induction history generalizing dispatcher with
  | nil => exact ⟨rfl, rfl, sound⟩
  | cons firing history ih =>
    have hunheard := (dispatcher.session.formula.composed_fire fuel firing.2 dispatcher.catalog
      firing.1).unheard
    exact ih (hunheard.perform (Context.akin_fresh sound sound)).sound

theorem reached_spec {formula : Formula} {catalog : Catalog} {fuel : Nat}
    {history : List (String × Members)} {dispatcher : Dispatcher}
    (reached : dispatcher = (ofCatalog formula catalog).after fuel history) :
    dispatcher.session.formula = formula ∧ dispatcher.session.programs.Sound := by
  rw [reached]
  exact (after_spec (ProgramCache.sound_empty _) fuel history).2

/-! ## The formula selected -/

theorem answer_apart {α : Type} (session : Session) (work : Work α) :
    (session.apart work).answer =
      Work.answerOf (work (Context.fresh session.programs).silenced) :=
  Work.answer_perform work _

/-- **A firing comes to what the formula that it selects comes to in a new engine.** -/
theorem answer_fire {dispatcher : Dispatcher} (sound : dispatcher.session.programs.Sound)
    {fuel : Nat} {id : String} {input : Members} {trigger : Trigger} {entry : FormulaEntry}
    (selects : dispatcher.Selects fuel id input trigger entry) :
    (dispatcher.fire fuel id input).answer =
      (dispatcher.session.formula.perform
        (dispatcher.session.formula.runEntry fuel trigger input entry)).answer := by
  obtain ⟨hnamed, hfirst⟩ := selects
  have hsound := (dispatcher.session.formula.composed_matching fuel trigger input
    dispatcher.catalog.formulas).unheard _ _ (Context.akin_fresh sound sound).silenced
  unfold matching at hfirst
  rw [answer_apart] at hfirst
  unfold fire Formula.fire Formula.perform
  rw [answer_apart, Work.answer_perform, hnamed]
  simp only [bind, EStateM.bind]
  generalize dispatcher.session.formula.matching fuel trigger input dispatcher.catalog.formulas
    (Context.fresh dispatcher.session.programs).silenced = result at *
  -- the filter pass leaves messages and programs of their texts behind, and nothing else
  cases hsound with
  | error akin => cases hfirst
  | ok akin =>
    rename_i entries after
    cases entries with
    | nil => cases hfirst
    | cons entry' rest =>
      cases hfirst
      exact (dispatcher.session.formula.concur_runEntry fuel trigger input entry akin.sound
        (ProgramCache.sound_empty _)).answer

/-- What a formula comes to depends on what the trigger maps and on its text. -/
theorem runEntry_congr (formula : Formula) (fuel : Nat) (input : Members)
    {trigger trigger' : Trigger} {entry entry' : FormulaEntry}
    (mapping : trigger.mapping = trigger'.mapping) (body : entry.body = entry'.body) :
    formula.runEntry fuel trigger input entry = formula.runEntry fuel trigger' input entry' := by
  obtain ⟨hcontext, hinput, houtput, hmapping⟩ := Mapping.mk.inj mapping
  unfold Formula.runEntry Formula.mapInputs Formula.mapOutputs
  rw [hcontext, hinput, houtput, hmapping, body]

/-- Without mappings a formula comes to what its text evaluates to. -/
theorem runEntry_of_no_mapping (formula : Formula) (fuel : Nat) (input : Members)
    {trigger : Trigger} (entry : FormulaEntry) (inputs : trigger.inputMapping = "")
    (outputs : trigger.outputMapping = "") :
    formula.runEntry fuel trigger input entry = do
      let json ← (do Work.toJson (← formula.evaluate fuel entry.body []))
      return [(Formula.returnName, json)] := by
  unfold Formula.runEntry Formula.mapInputs Formula.mapOutputs Formula.evaluate
  rw [inputs, outputs]
  simp only [bind_assoc]
  rfl

theorem answerOf_map {α β : Type} (f : α → β) (work : Work α) (context : Context) :
    Work.answerOf ((do return f (← work) : Work β) context) =
      (Work.answerOf (work context)).map f := by
  simp only [bind, EStateM.bind]
  cases work context <;> rfl

/-- **What a firing comes to depends on the input, on what the trigger maps and on the text of the
formula that is selected.** It is the same for triggers of other names and filters, in another
catalog of the engine and behind any other firings. Without mappings it is what the text evaluates
to. -/
theorem fire_of_selects {formula : Formula} {fuel : Nat} {catalog catalog' : Catalog}
    {history history' : List (String × Members)} {dispatcher dispatcher' : Dispatcher}
    (reached : dispatcher = (ofCatalog formula catalog).after fuel history)
    (reached' : dispatcher' = (ofCatalog formula catalog').after fuel history')
    {id id' : String} {input : Members} {trigger trigger' : Trigger} {entry entry' : FormulaEntry}
    (selects : dispatcher.Selects fuel id input trigger entry)
    (selects' : dispatcher'.Selects fuel id' input trigger' entry')
    (mapping : trigger.mapping = trigger'.mapping) (body : entry.body = entry'.body) :
    (dispatcher.fire fuel id input).answer = (dispatcher'.fire fuel id' input).answer ∧
    (trigger.inputMapping = "" → trigger.outputMapping = "" →
      (dispatcher.fire fuel id input).answer =
        (dispatcher.exported fuel entry.body).answer.map
          fun json => [(Formula.returnName, json)]) := by
  obtain ⟨hformula, hsound⟩ := reached_spec reached
  obtain ⟨hformula', hsound'⟩ := reached_spec reached'
  rw [answer_fire hsound selects]
  refine ⟨?_, fun inputs outputs => ?_⟩
  · rw [answer_fire hsound' selects', hformula, hformula']
    exact congrArg (fun work => (Formula.perform _ work).answer)
      (runEntry_congr formula fuel input mapping body)
  · rw [runEntry_of_no_mapping _ fuel input entry inputs outputs]
    unfold Formula.perform exported
    rw [Work.answer_perform, answer_apart, answerOf_map]
    refine congrArg (Except.map _) (Work.Concur.answer ?_)
    exact ((Formula.unheard_evaluate _ fuel entry.body []).bind Work.unheard_toJson) _ _
      (Context.akin_fresh (ProgramCache.sound_empty _) hsound).silenced

/-- Two triggers that select formulas of one text by other filters. -/
def twins : Catalog where
  formulas := [⟨"A", "", "o = input.x; o", [], true⟩, ⟨"B", "", "o = input.x; o", [], true⟩]
  triggers := [⟨"first", "", "seen = config.ID; seen == 'A'", "input", "0", "", ""⟩,
    ⟨"second", "", "config.ID == 'B'", "input", "0", "", ""⟩]

/-- Triggers that select formulas of one text come to the same, also behind another firing. -/
theorem fire_of_selects_twins :
    (((ofCatalog (.ofConfig .lenient) twins).after 100 [("second", [])]).fire 100 "first"
        [("x", .string "y")]).answer =
      ((ofCatalog (.ofConfig .lenient) twins).fire 100 "second" [("x", .string "y")]).answer := by
  have selects : ((ofCatalog (.ofConfig .lenient) twins).after 100 [("second", [])]).Selects 100
      "first" [("x", .string "y")]
      ⟨"first", "", "seen = config.ID; seen == 'A'", "input", "0", "", ""⟩
      ⟨"A", "", "o = input.x; o", [], true⟩ := ⟨by decide +kernel, by decide +kernel⟩
  have selects' : ((ofCatalog (.ofConfig .lenient) twins).after 100 []).Selects 100
      "second" [("x", .string "y")] ⟨"second", "", "config.ID == 'B'", "input", "0", "", ""⟩
      ⟨"B", "", "o = input.x; o", [], true⟩ := ⟨by decide +kernel, by decide +kernel⟩
  exact (fire_of_selects rfl rfl selects selects' rfl rfl).1

end Dispatcher

end Formulary
