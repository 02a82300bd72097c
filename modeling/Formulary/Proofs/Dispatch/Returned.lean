import Formulary.Proofs.Context.Outcome
import Formulary.Proofs.Dispatch.Selection
import Formulary.Proofs.Json.Members
import Formulary.Proofs.Value.Linked

/-!
# The value that a firing returns

* `Store.Reaches`, `Store.SameFrom` : what a value holds at any depth, and stores in which all of it
  is the same;
* `Formula.runBody`, `Formula.Spares` : the run of a formula's text, and triggers that leave what
  its value holds as it is when they take their outputs;
* `Dispatcher.return_of_spares` : such a trigger returns the value as it stood when the text was
  done.
-/

namespace Formulary

/-! ## What a value holds -/

namespace Store

/-- The values that a value holds at any depth, itself included. -/
inductive Reaches (store : Store) (value : Value) : Value → Prop where
  | self : Reaches store value value
  | element {ref : ArrayRef} {item : Value} (around : Reaches store value (.array ref))
      (inside : item ∈ (store.elements ref).toList) : Reaches store value item
  | property {ref : ObjectRef} {entry : String × Value} (around : Reaches store value (.object ref))
      (inside : entry ∈ (store.properties ref).entries) : Reaches store value entry.2

/-- Whether every container that a value reaches holds the same in another store. -/
structure SameFrom (store : Store) (value : Value) (other : Store) : Prop where
  elements : ∀ {ref}, store.Reaches value (.array ref) → other.elements ref = store.elements ref
  properties : ∀ {ref}, store.Reaches value (.object ref) →
    other.properties ref = store.properties ref

theorem sameFrom_refl (store : Store) (value : Value) : store.SameFrom value store :=
  ⟨fun _ => rfl, fun _ => rfl⟩

/-- Every container that a value reaches stands for itself. -/
def reachedLinks (store : Store) (value : Value) : Links where
  array ref ref' := ref = ref' ∧ store.Reaches value (.array ref)
  object ref ref' := ref = ref' ∧ store.Reaches value (.object ref)
  function ref ref' := ref = ref'
  frame ref ref' := ref = ref'

variable {store other : Store} {value target : Value}

theorem Reaches.linked (reaches : store.Reaches value target) :
    target.Linked (store.reachedLinks value) target := by
  cases target with
  | array ref => exact .array ⟨rfl, reaches⟩
  | object ref => exact .object ⟨rfl, reaches⟩
  | function ref => exact .function rfl
  | _ => constructor

theorem SameFrom.contentsLinked (same : store.SameFrom value other) :
    store.ContentsLinked (store.reachedLinks value) other where
  oneToOne := by
    constructor
    · rintro _ _ _ _ ⟨rfl, -⟩ ⟨rfl, -⟩
      exact Iff.rfl
    · rintro _ _ _ _ ⟨rfl, -⟩ ⟨rfl, -⟩
      exact Iff.rfl
    · rintro _ _ _ _ rfl rfl
      exact Iff.rfl
    · rintro _ _ _ _ rfl rfl
      exact Iff.rfl
  elements := by
    rintro ref _ ⟨rfl, reaches⟩
    rw [same.elements reaches]
    exact List.forall₂_same.mpr fun item inside => (reaches.element inside).linked
  properties := by
    rintro ref _ ⟨rfl, reaches⟩
    rw [same.properties reaches]
    exact List.forall₂_same.mpr fun entry inside => ⟨rfl, (reaches.property inside).linked⟩

/-- **A value is exported alike from stores in which all that it reaches is the same.** -/
theorem SameFrom.toJson (same : store.SameFrom value other) :
    value.toJson store = value.toJson other :=
  same.contentsLinked.toJson Reaches.self.linked

/-- Entries with the same texts under the same names are the same. -/
theorem entries_eq_of_texts {entries entries' : List (String × Value)}
    (texts : ∀ entry ∈ entries, entry.2.string?.isSome)
    (h : entries'.map (Prod.map id Value.string?) = entries.map (Prod.map id Value.string?)) :
    entries' = entries := by
  induction entries generalizing entries' with
  | nil => exact List.map_eq_nil_iff.mp h
  | cons entry entries ih =>
    obtain ⟨entry', rest, rfl, hentry, hrest⟩ := List.map_eq_cons_iff.mp h
    obtain ⟨hhead, htail⟩ := List.forall_mem_cons.mp texts
    rw [ih htail hrest]
    obtain ⟨name, value⟩ := entry
    obtain ⟨name', value'⟩ := entry'
    simp only [Prod.map, id_eq, Prod.mk.injEq] at hentry hhead
    obtain ⟨rfl, hvalue⟩ := hentry
    cases value <;> cases hhead
    cases value' <;> cases hvalue
    rfl

/-- An object that holds texts only reaches nothing besides itself and them. -/
theorem Reaches.of_texts {ref : ObjectRef}
    (texts : ∀ entry ∈ (store.properties ref).entries, entry.2.string?.isSome)
    (reaches : store.Reaches (.object ref) target) :
    target = .object ref ∨ target.string?.isSome := by
  induction reaches with
  | self => exact .inl rfl
  | element _ inside ih =>
    rcases ih with h | h <;> cases h
  | property _ inside ih =>
    rcases ih with h | h
    · cases h
      exact .inr (texts _ inside)
    · cases h

theorem sameFrom_of_texts {ref : ObjectRef}
    (texts : ∀ entry ∈ (store.properties ref).entries, entry.2.string?.isSome)
    (same : (other.properties ref).entries.map (Prod.map id Value.string?) =
      (store.properties ref).entries.map (Prod.map id Value.string?)) :
    store.SameFrom (.object ref) other where
  elements reaches := by
    rcases Reaches.of_texts texts reaches with h | h <;> cases h
  properties reaches := by
    rcases Reaches.of_texts texts reaches with h | h
    · cases h
      exact congrArg Table.mk (entries_eq_of_texts texts same)
    · cases h

end Store

/-! ## The run of a formula's text -/

namespace Formula

variable (formula : Formula) (fuel : Nat) (trigger : Trigger) (input : Members)
  (entry : FormulaEntry)

/-- Runs the text of a formula behind what a trigger hands to it. -/
def runBody : Work Value := do
  formula.beginFor fuel entry.body
  formula.mapInputs fuel trigger input
  Work.run (formula.limits fuel) entry.body

/-- The value of a formula's text as JSON, as it stands when the text is done. -/
def exportBody : Work Json := do
  Work.toJson (← formula.runBody fuel trigger input entry)

/-- The value of a formula's text with the stores before and after the outputs are taken. -/
def runAround : Work (Value × Store × Store) := do
  let (value, before) ← (formula.runBody fuel trigger input entry).withStore
  let (_, after) ← (formula.mapOutputs fuel trigger).withStore
  return (value, before, after)

/-- Whether a trigger leaves what the value of a formula reaches as it is when it takes its
outputs. -/
def Spares : Prop :=
  ∀ value before after,
    (formula.perform (formula.runAround fuel trigger input entry)).answer
      = .ok (value, before, after) →
    before.SameFrom value after

variable {formula fuel trigger input entry} {trigger' : Trigger} {entry' : FormulaEntry}

theorem runEntry_eq : formula.runEntry fuel trigger input entry = do
    let returned ← formula.runBody fuel trigger input entry
    let outputs ← formula.mapOutputs fuel trigger
    return insertMember returnName (← Work.toJson returned) outputs := by
  unfold runEntry runBody
  simp only [bind_assoc]

/-- What a trigger takes from a formula does not count for the run of its text. -/
theorem runBody_congr (contexts : trigger.contextName = trigger'.contextName)
    (inputs : trigger.inputMapping = trigger'.inputMapping) (body : entry.body = entry'.body) :
    formula.runBody fuel trigger input entry = formula.runBody fuel trigger' input entry' := by
  unfold runBody mapInputs
  rw [contexts, inputs, body]

theorem runAround_eq_ok {context later : Context} {value : Value} {before after : Store} :
    formula.runAround fuel trigger input entry context = .ok (value, before, after) later ↔
      ∃ middle outputs, formula.runBody fuel trigger input entry context = .ok value middle ∧
        formula.mapOutputs fuel trigger middle = .ok outputs later ∧
        middle.machine.store = before ∧ later.machine.store = after := by
  unfold runAround
  rw [bind_eq_ok]
  constructor
  · rintro ⟨⟨_, _⟩, middle, hfirst, h⟩
    obtain ⟨hbody, rfl⟩ := Work.withStore_eq_ok.mp hfirst
    obtain ⟨⟨outputs, _⟩, _, hsecond, hlast⟩ := bind_eq_ok.mp h
    obtain ⟨hmap, rfl⟩ := Work.withStore_eq_ok.mp hsecond
    cases hlast
    exact ⟨middle, outputs, hbody, hmap, rfl, rfl⟩
  · rintro ⟨middle, outputs, hbody, hmap, rfl, rfl⟩
    refine ⟨_, middle, Work.withStore_eq_ok.mpr ⟨hbody, rfl⟩, ?_⟩
    exact bind_eq_ok.mpr ⟨_, later, Work.withStore_eq_ok.mpr ⟨hmap, rfl⟩, rfl⟩

/-- A trigger that takes no outputs leaves everything as it is. -/
theorem spares_of_no_outputs (outputs : trigger.outputMapping = "") :
    formula.Spares fuel trigger input entry := by
  intro value before after h
  obtain ⟨later, h⟩ := Work.answer_eq_ok.mp h
  obtain ⟨middle, _, -, hmap, rfl, rfl⟩ := runAround_eq_ok.mp h
  unfold mapOutputs at hmap
  rw [outputs] at hmap
  cases hmap
  exact Store.sameFrom_refl _ _

/-- **Where the outputs spare the value of a formula, it is returned as it stood when the text was
done.** -/
theorem lookup_return {result : Members} (spares : formula.Spares fuel trigger input entry)
    (ran : (formula.perform (formula.runEntry fuel trigger input entry)).answer = .ok result) :
    ∃ json, (formula.perform (formula.exportBody fuel trigger input entry)).answer = .ok json ∧
      result.lookup returnName = some json := by
  obtain ⟨last, hran⟩ := Work.answer_eq_ok.mp ran
  rw [runEntry_eq] at hran
  obtain ⟨value, middle, hbody, hrest⟩ := bind_eq_ok.mp hran
  obtain ⟨outputs, later, hmap, hlast⟩ := bind_eq_ok.mp hrest
  obtain ⟨json, _, hexport, hresult⟩ := bind_eq_ok.mp hlast
  obtain ⟨hjson, rfl⟩ := Work.toJson_eq_ok.mp hexport
  obtain ⟨rfl, -⟩ := Work.pure_eq_ok.mp hresult
  have hsame : middle.machine.store.SameFrom value later.machine.store := by
    refine spares value _ _ (Work.answer_eq_ok.mpr ⟨later, ?_⟩)
    exact runAround_eq_ok.mpr ⟨middle, outputs, hbody, hmap, rfl, rfl⟩
  refine ⟨json, Work.answer_eq_ok.mpr ⟨middle, ?_⟩,
    (lookup_insertMember _ _ _ _).trans (if_pos rfl)⟩
  refine bind_eq_ok.mpr ⟨value, middle, hbody, Work.toJson_eq_ok.mpr ⟨?_, rfl⟩⟩
  rw [hsame.toJson, hjson]

end Formula

/-! ## Firings -/

namespace Dispatcher

/-- **A firing returns the value of the formula as it stood when the text was done, whatever outputs
are taken, as long as they spare it.** -/
theorem return_of_spares {formula : Formula} {fuel : Nat} {catalog catalog' : Catalog}
    {history history' : List (String × Members)} {dispatcher dispatcher' : Dispatcher}
    (reached : dispatcher = (ofCatalog formula catalog).after fuel history)
    (reached' : dispatcher' = (ofCatalog formula catalog').after fuel history')
    {id id' : String} {input : Members} {trigger trigger' : Trigger} {entry entry' : FormulaEntry}
    (selects : dispatcher.Selects fuel id input trigger entry)
    (selects' : dispatcher'.Selects fuel id' input trigger' entry')
    (contexts : trigger.contextName = trigger'.contextName)
    (inputs : trigger.inputMapping = trigger'.inputMapping) (body : entry.body = entry'.body)
    (spares : formula.Spares fuel trigger input entry)
    (spares' : formula.Spares fuel trigger' input entry') {result result' : Members}
    (fires : (dispatcher.fire fuel id input).answer = .ok result)
    (fires' : (dispatcher'.fire fuel id' input).answer = .ok result') :
    ∃ json, (formula.perform (formula.exportBody fuel trigger input entry)).answer = .ok json ∧
      result.lookup Formula.returnName = some json ∧
      result'.lookup Formula.returnName = some json := by
  obtain ⟨hformula, hsound⟩ := reached_spec reached
  obtain ⟨hformula', hsound'⟩ := reached_spec reached'
  rw [answer_fire hsound selects, hformula] at fires
  rw [answer_fire hsound' selects', hformula'] at fires'
  obtain ⟨json, hexport, hlookup⟩ := Formula.lookup_return spares fires
  obtain ⟨json', hexport', hlookup'⟩ := Formula.lookup_return spares' fires'
  unfold Formula.exportBody at hexport hexport'
  rw [← Formula.runBody_congr contexts inputs body, hexport] at hexport'
  cases hexport'
  exact ⟨json, hexport, hlookup, hlookup'⟩

/-- A formula whose value is an object that holds a text. -/
def boxed : FormulaEntry := ⟨"A", "", "o = \x7ba: 'x'\x7d; o", [], true⟩

/-- A trigger that takes no outputs. -/
def taker : Trigger := ⟨"plain", "", "true", "", "", "", ""⟩

/-- A trigger that puts something else in the place of the object. -/
def replacer : Trigger := ⟨"replaces", "", "true", "", "", "out", "out.b = o.a; o = 'y'"⟩

/-- A trigger that changes what the object holds. -/
def alterer : Trigger := ⟨"alters", "", "true", "", "", "", "o.a = 'y'"⟩

/-- The catalog of these. -/
def takers : Catalog := ⟨[boxed], [alterer, taker, replacer]⟩

theorem exists_of_isOk {ε α : Type} {answer : Except ε α} (h : answer.isOk = true) :
    ∃ a, answer = .ok a := by
  cases answer with
  | ok a => exact ⟨a, rfl⟩
  | error e => cases h

theorem spares_replacer : (Formula.ofConfig .lenient).Spares 100 replacer [] boxed := by
  intro value before after h
  have hshape :
      ((Formula.ofConfig .lenient).perform
          ((Formula.ofConfig .lenient).runAround 100 replacer [] boxed)).answer.toOption.map
        (fun (value, before, after) =>
          (value.container?, (before.properties ⟨3⟩).entries.map (Prod.map id Value.string?),
            (after.properties ⟨3⟩).entries.map (Prod.map id Value.string?))) =
      some (some (.object ⟨3⟩), [("a", some "x")], [("a", some "x")]) := by
    decide +kernel
  rw [h] at hshape
  simp only [Except.toOption, Option.map_some, Option.some.injEq, Prod.mk.injEq] at hshape
  obtain ⟨hvalue, hbefore, hafter⟩ := hshape
  cases value with
  | object ref =>
    cases hvalue
    refine Store.sameFrom_of_texts (fun entry inside => ?_) (hafter.trans hbefore.symm)
    have htext := List.mem_map_of_mem (f := Prod.map id Value.string?) inside
    rw [hbefore, List.mem_singleton] at htext
    exact (congrArg (fun text => text.2.isSome) htext).trans rfl
  | _ => cases hvalue

/-- The value that is returned is that of the text, also where another one takes its place. -/
theorem return_of_spares_replaced :
    ∃ result result',
      ((ofCatalog (.ofConfig .lenient) takers).fire 100 "replaces" []).answer = .ok result ∧
      ((ofCatalog (.ofConfig .lenient) takers).fire 100 "plain" []).answer = .ok result' ∧
      result.lookup Formula.returnName = result'.lookup Formula.returnName := by
  have selects : ((ofCatalog (.ofConfig .lenient) takers).after 100 []).Selects 100 "replaces" []
      replacer boxed := ⟨by decide +kernel, by decide +kernel⟩
  have selects' : ((ofCatalog (.ofConfig .lenient) takers).after 100 []).Selects 100 "plain" []
      taker boxed := ⟨by decide +kernel, by decide +kernel⟩
  obtain ⟨result, fires⟩ := exists_of_isOk
    (show ((ofCatalog (.ofConfig .lenient) takers).fire 100 "replaces" []).answer.isOk = true by
      decide +kernel)
  obtain ⟨result', fires'⟩ := exists_of_isOk
    (show ((ofCatalog (.ofConfig .lenient) takers).fire 100 "plain" []).answer.isOk = true by
      decide +kernel)
  obtain ⟨json, -, hresult, hresult'⟩ := return_of_spares rfl rfl selects selects' rfl rfl rfl
    spares_replacer (Formula.spares_of_no_outputs rfl) fires fires'
  exact ⟨result, result', fires, fires', hresult.trans hresult'.symm⟩

/-- A trigger that changes what the value holds has the changed value returned. -/
theorem return_altered :
    ((ofCatalog (.ofConfig .lenient) takers).fire 100 "alters" []).answer.toOption.map
        (Json.compact ∘ .object) = some "\x7b\"_return\":\x7b\"a\":\"y\"\x7d\x7d" ∧
      ((Formula.ofConfig .lenient).perform
          ((Formula.ofConfig .lenient).exportBody 100 alterer [] boxed)).answer.toOption.map
        Json.compact = some "\x7b\"a\":\"x\"\x7d" ∧
      ((ofCatalog (.ofConfig .lenient) takers).fire 100 "plain" []).answer.toOption.map
        (Json.compact ∘ .object) = some "\x7b\"_return\":\x7b\"a\":\"x\"\x7d\x7d" := by
  decide +kernel

end Dispatcher

end Formulary
