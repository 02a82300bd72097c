import Formulary.Proofs.Context.Settled
import Formulary.Proofs.Context.Unheard
import Formulary.Proofs.Script.Modest
import Formulary.Proofs.Script.Renewal

/-!
# Verdicts on formulas

* `Store.Keeps.corresponds` : a store that keeps what another one holds corresponds to it;
* `Formula.answer_accepts` : a filter answers alike in a context that keeps what was prepared;
* `Work.Tested`, `Work.filterM_eq_ok` : the verdicts of a pass over formulas;
* `Formula.matching_singleton` : a verdict does not depend on the formulas that were asked about
  before, as long as they leave alone what the filter finds;
* `Formula.keeps_storeBehind` : they do when the filter calls nothing and writes to global names
  only.
-/

namespace Formulary

/-! ## Stores that keep what was there -/

/-- The things of a store stand in a later one where they stood. -/
def Shifts.between (store later : Store) : Shifts where
  arrays := ⟨store.arrays.size, later.arrays.size - store.arrays.size⟩
  objects := ⟨store.objects.size, later.objects.size - store.objects.size⟩
  functions := ⟨store.functions.size, later.functions.size - store.functions.size⟩
  frames := ⟨store.frames.size, later.frames.size - store.frames.size⟩

theorem Shifts.links_between (store later : Store) :
    (between store later).links store = still.links store := by
  have hplace : ∀ {kept gap i j : Nat},
      (i < kept ∧ j = Shift.place ⟨kept, gap⟩ i) = (i < kept ∧ j = i) := by
    intro kept gap i j
    refine propext (and_congr_right fun h => ?_)
    rw [Shift.place, if_pos h]
  simp only [links, between, still, hplace, Shift.place_still]

theorem getElem_of_initial {α : Type} {xs ys : Array α} (h : xs.toList <+: ys.toList) {i : Nat}
    (hi : i < xs.size) : ys[i]? = xs[i]? := by
  obtain ⟨rest, hrest⟩ := h
  rw [← Array.getElem?_toList, ← Array.getElem?_toList, ← hrest, List.getElem?_append_left hi]

namespace Store.Keeps

variable {names : List String} {store later : Store}

theorem fit (keeps : store.Keeps names later) : (Shifts.between store later).Fit store later := by
  have hfits : ∀ {size size' : Nat}, size ≤ size' → Shift.Fits ⟨size, size' - size⟩ size size' :=
    fun h => ⟨Nat.le_refl _, (Nat.add_sub_cancel' h).symm⟩
  exact ⟨hfits keeps.arrays.length_le, hfits keeps.objects.length_le,
    hfits keeps.functions.length_le, hfits keeps.frames⟩

/-- **A store that keeps what another one holds corresponds to it.** -/
theorem corresponds (keeps : store.Keeps names later) (h : store.Corresponds .still [] store) :
    store.Corresponds (.between store later) names later := by
  have hself : ∀ {i i' first : Nat}, i' = Shift.place ⟨first, 0⟩ i → i' = i :=
    fun heq => heq.trans (Shift.place_still _ _)
  -- references into the former store are good, so none of them leads to what has been added
  refine ⟨keeps.fit, Nat.lt_of_lt_of_le h.global h.fit.frames.kept,
    ⟨⟨Shifts.oneToOne_links _ _, ?_, ?_⟩, ?_⟩, ?_⟩ <;> rw [Shifts.links_between] <;>
    rintro ⟨i⟩ ⟨i'⟩ href <;> obtain rfl : i' = i := hself href.2
  · unfold Store.elements
    rw [getElem_of_initial keeps.arrays href.1]
    exact h.linked.elements href
  · unfold Store.properties
    rw [getElem_of_initial keeps.objects href.1]
    exact h.linked.properties href
  · unfold Store.callable
    rw [getElem_of_initial keeps.functions href.1]
    exact h.linked.callable href
  · obtain ⟨hparent, houtward, hbindings⟩ := h.frame href
    refine ⟨?_, houtward, fun name visible => ?_⟩
    · rw [keeps.parent _ href.1]
      exact hparent
    · show Option.Rel _ (store.ownBinding? _ name) (later.ownBinding? _ name)
      rw [keeps.binding _ name href.1 visible]
      exact hbindings name fun _ => List.not_mem_nil

end Store.Keeps

/-! ## What a filter finds -/

/-- Gives a global name the value of a JSON value. -/
def Store.defineJson (store : Store) (name : String) (json : Json) : Store :=
  (Value.ofJson json store).2.declare globalFrame name (Value.ofJson json store).1

/-- A context with another store. -/
def Context.inStore (context : Context) (store : Store) : Context :=
  { context with machine := { context.machine with store := store } }

namespace Store

variable {shifts : Shifts} {hidden : List String} {store other : Store}

theorem Corresponds.defineJson (h : store.Corresponds shifts hidden other) (name : String)
    (json : Json) :
    (store.defineJson name json).Corresponds shifts (hidden.filter (· ≠ name))
      (other.defineJson name json) :=
  have hmade := h.ofJson json
  hmade.corresponds.declare_global name hmade.value

theorem Tame.defineJson (tame : store.Tame hidden) (h : store.Corresponds .still [] store)
    (name : String) (json : Json) : (store.defineJson name json).Tame hidden :=
  ((h.mono_hidden (List.nil_subset hidden)).ofJson json).tame tame

end Store

namespace Trigger

variable (trigger : Trigger) (input : Members) (entry : FormulaEntry)

/-- The global names that are set for each formula that the filter is asked about. -/
def boundNames : List String :=
  if trigger.contextName.isEmpty then [Formula.candidateName]
  else [Formula.candidateName, trigger.contextName]

/-- A store in which these names are set for a formula. -/
def bound (store : Store) : Store :=
  let store := store.defineJson Formula.candidateName entry.toJson
  if trigger.contextName.isEmpty then store
  else store.defineJson trigger.contextName (.object input)

variable {shifts : Shifts} {names : List String} {store other : Store}

theorem corresponds_bound (h : store.Corresponds shifts (trigger.boundNames ++ names) other) :
    (trigger.bound input entry store).Corresponds shifts names
      (trigger.bound input entry other) := by
  have hcandidate := h.defineJson Formula.candidateName entry.toJson
  unfold bound
  unfold boundNames at hcandidate
  split at hcandidate
  · next hempty =>
    simp only [hempty, ↓reduceIte]
    refine hcandidate.mono_hidden fun name hmem => ?_
    simp only [List.mem_filter, List.mem_append, List.mem_singleton, decide_eq_true_eq] at hmem
    exact hmem.1.resolve_left hmem.2
  · next hempty =>
    simp only [hempty]
    have hinput := hcandidate.defineJson trigger.contextName (.object input)
    refine hinput.mono_hidden fun name hmem => ?_
    simp only [List.mem_filter, List.mem_append, List.mem_cons, List.not_mem_nil, or_false,
      decide_eq_true_eq] at hmem
    exact hmem.1.1.resolve_left fun h => h.elim hmem.1.2 hmem.2

theorem tame_bound (tame : store.Tame names) (h : store.Corresponds .still [] store) :
    (trigger.bound input entry store).Tame names := by
  have hcandidate := tame.defineJson h Formula.candidateName entry.toJson
  unfold bound
  dsimp only
  split
  · exact hcandidate
  · exact hcandidate.defineJson (h.defineJson _ _) _ _

theorem keeps_bound (names : List String) (store : Store) :
    store.Keeps (trigger.boundNames ++ names) (trigger.bound input entry store) := by
  have hdefine : ∀ (store : Store) {name : String} (json : Json),
      name ∈ trigger.boundNames ++ names →
      store.Keeps (trigger.boundNames ++ names) (store.defineJson name json) :=
    fun store _ json hmem => (store.keeps_ofJson json).trans (Store.keeps_declare _ hmem _)
  unfold bound
  dsimp only
  split
  · next hempty => exact hdefine _ _ (by simp [boundNames, hempty])
  · next hempty =>
    exact (hdefine store _ (by simp [boundNames, hempty])).trans
      (hdefine _ _ (by simp [boundNames, hempty]))

end Trigger

/-! ## Answers of a filter -/

namespace Work

variable {limits : Limits} {text : String} {context other : Context}

/-- The program that is run for a text does not depend on the programs kept. -/
theorem run_of_sound (sound : context.programs.Sound) : ∃ programs, run limits text context =
    match Program.parse text with
    | .ok program => runProgram limits program { context with programs := programs }
    | .error e => .error (.parse e) { context with programs := programs } := by
  have hparse := ProgramCache.getOrParse_eq sound text
  refine ⟨(context.programs.getOrParse text).2, ?_⟩
  unfold run
  simp only [bind, EStateM.bind]
  rw [parse_eq, hparse]
  cases Program.parse text <;> rfl

/-- A script that has a value has a program, whose run gives the value. -/
theorem run_eq_ok {later : Context} {value : Value} (sound : context.programs.Sound)
    (h : run limits text context = .ok value later) :
    ∃ program, Program.parse text = .ok program ∧
      program.run limits.calls limits.fuel globalFrame context.machine =
        .ok value later.machine := by
  obtain ⟨programs, hrun⟩ := run_of_sound sound
  rw [hrun] at h
  cases hprogram : Program.parse text with
  | error e =>
    rw [hprogram] at h
    cases h
  | ok program =>
    rw [hprogram] at h
    unfold runProgram ofRun at h
    dsimp only at h
    refine ⟨program, rfl, ?_⟩
    cases hresult : program.run limits.calls limits.fuel globalFrame context.machine <;>
      rw [hresult] at h <;> cases h
    rfl

/-- **A script that renews the hidden names has the same answer in linked contexts.** -/
theorem answer_run {shifts : Shifts} {names : List String}
    (renews : ∀ program, Program.parse text = .ok program → program.Renews names)
    (linked : context.machine.Linked shifts names other.machine)
    (sound : context.programs.Sound) (sound' : other.programs.Sound) :
    ResultsLinked Run.SameValue (answerOf (run limits text context))
      (answerOf (run limits text other)) := by
  obtain ⟨programs, hrun⟩ := run_of_sound sound
  obtain ⟨programs', hrun'⟩ := run_of_sound sound'
  rw [hrun, hrun']
  cases hprogram : Program.parse text with
  | error e => exact .error _
  | ok program =>
    have hanswers : Run.Answers Run.SameValue
        (program.run limits.calls limits.fuel globalFrame context.machine)
        (program.run limits.calls limits.fuel globalFrame other.machine) :=
      Program.concludes_run (renews program hprogram) linked.store.global_linked _ _ linked
        context.machine.store.grows_refl
    unfold runProgram ofRun
    dsimp only
    generalize program.run limits.calls limits.fuel globalFrame context.machine = result at *
    generalize program.run limits.calls limits.fuel globalFrame other.machine = result' at *
    cases hanswers with
    | ok h machine machine' => exact .ok h
    | error halt machine machine' => exact .error _

end Work

namespace Formula

variable {formula : Formula} {fuel : Nat} {trigger : Trigger} {input : Members}
  {entry : FormulaEntry} {names : List String}

theorem accepts_eq (context : Context) :
    formula.accepts fuel trigger input entry context =
      (do
        match ← Work.run (formula.limits fuel) trigger.filter with
        | .boolean verdict => return verdict
        | _ => throw (.filterNotBoolean trigger.id entry.id) : Work Bool)
        (context.inStore (trigger.bound input entry context.machine.store)) := by
  unfold accepts defineMembers Trigger.bound
  split <;> rfl

/-- **A filter answers alike in a context that keeps what was prepared for it.** -/
theorem answer_accepts
    (renews : ∀ program, Program.parse trigger.filter = .ok program → program.Renews names)
    {context later : Context} (settled : context.machine.Settled) (settled' : later.machine.Settled)
    (tame : context.machine.store.Tame names)
    (keeps : context.machine.store.Keeps (trigger.boundNames ++ names) later.machine.store)
    (sound : context.programs.Sound) (sound' : later.programs.Sound) :
    Work.answerOf (formula.accepts fuel trigger input entry context) =
      Work.answerOf (formula.accepts fuel trigger input entry later) := by
  rw [accepts_eq, accepts_eq]
  have hstore := settled.linked.store
  have hlinked : Machine.Linked (.between context.machine.store later.machine.store) names
      (context.inStore (trigger.bound input entry context.machine.store)).machine
      (later.inStore (trigger.bound input entry later.machine.store)).machine := {
    store := trigger.corresponds_bound input entry (keeps.corresponds hstore)
    tame := trigger.tame_bound input entry tame hstore
    calls := settled.calls.trans settled'.calls.symm
    nesting := settled.nesting.trans settled'.nesting.symm }
  have hanswer : ResultsLinked Run.SameValue
      (Work.answerOf (Work.run (formula.limits fuel) trigger.filter
        (context.inStore (trigger.bound input entry context.machine.store))))
      (Work.answerOf (Work.run (formula.limits fuel) trigger.filter
        (later.inStore (trigger.bound input entry later.machine.store)))) :=
    Work.answer_run renews hlinked sound sound'
  simp only [bind, EStateM.bind]
  generalize Work.run (formula.limits fuel) trigger.filter (context.inStore _) = result at *
  generalize Work.run (formula.limits fuel) trigger.filter (later.inStore _) = result' at *
  cases result <;> cases result' <;> cases hanswer
  · next h =>
    obtain ⟨links, h⟩ := h
    cases h <;> rfl
  · rfl

end Formula

/-! ## Passes over formulas -/

namespace Work

variable {β : Type} {test : β → Work Bool}

/-- Tests of items one behind the other, with their verdicts. -/
inductive Tested (test : β → Work Bool) : Context → List (β × Bool) → Context → Prop where
  | nil (context : Context) : Tested test context [] context
  | cons {context middle later : Context} {item : β} {verdict : Bool} {rest : List (β × Bool)}
      (first : test item context = .ok verdict middle) (tested : Tested test middle rest later) :
      Tested test context ((item, verdict) :: rest) later

/-- The items with a positive verdict, the last one first, in front of others. -/
def passedOnto (kept : List β) (verdicts : List (β × Bool)) : List β :=
  ((verdicts.filter Prod.snd).map Prod.fst).reverse ++ kept

theorem filterAuxM_eq_ok {items kept result : List β} {context later : Context} :
    items.filterAuxM test kept context = .ok result later ↔
      ∃ verdicts, Tested test context verdicts later ∧ verdicts.map Prod.fst = items ∧
        passedOnto kept verdicts = result := by
  induction items generalizing kept context with
  | nil =>
    constructor
    · intro h
      cases h
      exact ⟨[], .nil _, rfl, rfl⟩
    · rintro ⟨verdicts, htested, hitems, rfl⟩
      obtain rfl := List.map_eq_nil_iff.mp hitems
      cases htested
      rfl
  | cons item items ih =>
    unfold List.filterAuxM
    rw [bind_eq_ok]
    constructor
    · rintro ⟨verdict, middle, hfirst, hrest⟩
      obtain ⟨verdicts, htested, rfl, rfl⟩ := ih.mp hrest
      refine ⟨(item, verdict) :: verdicts, .cons hfirst htested, rfl, ?_⟩
      cases verdict <;> simp [passedOnto]
    · rintro ⟨verdicts, htested, hitems, rfl⟩
      cases htested with
      | nil => cases hitems
      | @cons _ middle _ first verdict rest hfirst htested =>
        obtain ⟨rfl, rfl⟩ := List.cons.inj hitems
        refine ⟨verdict, middle, hfirst, ih.mpr ⟨rest, htested, rfl, ?_⟩⟩
        cases verdict <;> simp [passedOnto]

/-- A filter keeps the items that pass. -/
theorem filterM_eq_ok {items result : List β} {context later : Context} :
    items.filterM test context = .ok result later ↔
      ∃ verdicts, Tested test context verdicts later ∧ verdicts.map Prod.fst = items ∧
        (verdicts.filter Prod.snd).map Prod.fst = result := by
  unfold List.filterM
  rw [bind_eq_ok]
  constructor
  · rintro ⟨kept, middle, hkept, hresult⟩
    obtain ⟨verdicts, htested, hitems, rfl⟩ := filterAuxM_eq_ok.mp hkept
    obtain ⟨rfl, rfl⟩ := pure_eq_ok.mp hresult
    exact ⟨verdicts, htested, hitems, by simp [passedOnto]⟩
  · rintro ⟨verdicts, htested, hitems, rfl⟩
    exact ⟨_, later, filterAuxM_eq_ok.mpr ⟨verdicts, htested, hitems, rfl⟩,
      pure_eq_ok.mpr ⟨by simp [passedOnto], rfl⟩⟩

theorem Tested.of_append {context later : Context} {before after : List (β × Bool)}
    (tested : Tested test context (before ++ after) later) :
    ∃ middle, Tested test context before middle ∧ Tested test middle after later := by
  induction before generalizing context with
  | nil => exact ⟨context, .nil context, tested⟩
  | cons entry before ih =>
    cases tested with
    | cons first rest =>
      obtain ⟨middle, hbefore, hafter⟩ := ih rest
      exact ⟨middle, .cons first hbefore, hafter⟩

theorem Tested.first {context later : Context} {item : β} {verdict : Bool}
    {rest : List (β × Bool)} (tested : Tested test context ((item, verdict) :: rest) later) :
    ∃ middle, test item context = .ok verdict middle := by
  cases tested with
  | cons first _ => exact ⟨_, first⟩

/-- What every test preserves holds behind all of them. -/
theorem Tested.preserves {P : Context → Prop}
    (h : ∀ item context verdict later, P context → test item context = .ok verdict later → P later)
    {context later : Context} {verdicts : List (β × Bool)}
    (tested : Tested test context verdicts later) (hcontext : P context) : P later := by
  induction tested with
  | nil => exact hcontext
  | cons first _ ih => exact ih (h _ _ _ _ hcontext first)

end Work

/-! ## Verdicts -/

namespace Formula

variable {formula : Formula} {fuel : Nat} {trigger : Trigger} {input : Members}

/-- The store that the filter of a trigger leaves when it has been asked about some formulas. -/
def storeBehind (formula : Formula) (fuel : Nat) (trigger : Trigger) (input : Members)
    (entries : List FormulaEntry) : Store :=
  (formula.perform (formula.matching fuel trigger input entries)).context.machine.store

theorem matching_eq_ok {entries accepted : List FormulaEntry} {context later : Context} :
    formula.matching fuel trigger input entries context = .ok accepted later ↔
      ∃ prepared verdicts, formula.beginFor fuel trigger.filter context = .ok () prepared ∧
        Work.Tested (formula.accepts fuel trigger input) prepared verdicts later ∧
        verdicts.map Prod.fst = entries ∧ (verdicts.filter Prod.snd).map Prod.fst = accepted := by
  unfold matching
  rw [bind_eq_ok]
  simp only [Work.filterM_eq_ok]
  exact ⟨fun ⟨_, prepared, h, verdicts, hrest⟩ => ⟨prepared, verdicts, h, hrest⟩,
    fun ⟨prepared, verdicts, h, hrest⟩ => ⟨(), prepared, h, verdicts, hrest⟩⟩

theorem storeBehind_eq {prepared later : Context} {verdicts : List (FormulaEntry × Bool)}
    (begun : formula.beginFor fuel trigger.filter (Context.fresh formula.newCache).silenced =
      .ok () prepared)
    (tested : Work.Tested (formula.accepts fuel trigger input) prepared verdicts later) :
    formula.storeBehind fuel trigger input (verdicts.map Prod.fst) = later.machine.store := by
  have hmatching := matching_eq_ok.mpr ⟨prepared, verdicts, begun, tested, rfl, rfl⟩
  unfold storeBehind perform Work.perform
  rw [hmatching]
  rfl

theorem storeBehind_nil {prepared : Context}
    (begun : formula.beginFor fuel trigger.filter (Context.fresh formula.newCache).silenced =
      .ok () prepared) :
    formula.storeBehind fuel trigger input [] = prepared.machine.store :=
  storeBehind_eq begun (.nil prepared)

/-- The programs kept when a filter pass begins are those of their texts. -/
theorem sound_of_beginFor {text : String} {prepared : Context}
    (begun : formula.beginFor fuel text (Context.fresh formula.newCache).silenced =
      .ok () prepared) : prepared.programs.Sound :=
  (formula.composed_beginFor fuel _).unheard.sound (ProgramCache.sound_empty _) begun

theorem sound_of_tested {prepared later : Context} {verdicts : List (FormulaEntry × Bool)}
    (sound : prepared.programs.Sound)
    (tested : Work.Tested (formula.accepts fuel trigger input) prepared verdicts later) :
    later.programs.Sound :=
  tested.preserves (P := fun context => context.programs.Sound)
    (fun item _ _ _ h hitem =>
      (formula.composed_accepts fuel trigger input item).unheard.sound h hitem)
    sound

theorem settled_of_tested {prepared later : Context} {verdicts : List (FormulaEntry × Bool)}
    (settled : prepared.machine.Settled)
    (tested : Work.Tested (formula.accepts fuel trigger input) prepared verdicts later) :
    later.machine.Settled :=
  tested.preserves (P := fun context => context.machine.Settled)
    (fun item _ _ _ h hitem => settles_accepts fuel trigger input item _ _ _ h hitem) settled

/-- What a filter pass over one formula comes to. -/
theorem answer_matching_one {entry : FormulaEntry} {verdict : Bool} {prepared : Context}
    (begun : formula.beginFor fuel trigger.filter (Context.fresh formula.newCache).silenced =
      .ok () prepared)
    (answers : Work.answerOf (formula.accepts fuel trigger input entry prepared) = .ok verdict) :
    (formula.perform (formula.matching fuel trigger input [entry])).answer =
      .ok (if verdict then [entry] else []) := by
  obtain ⟨asked, hasked⟩ := Work.answerOf_eq_ok.mp answers
  refine Work.answer_eq_ok.mpr ⟨asked, matching_eq_ok.mpr ⟨prepared, [(entry, verdict)], begun,
    .cons hasked (.nil asked), rfl, ?_⟩⟩
  cases verdict <;> rfl

/-- **The verdict on a formula is the one that it gets alone,** whatever formulas the filter has
been asked about before, as long as they leave alone what was there for the filter, apart from
global names that it sets before it mentions them. -/
theorem matching_singleton (natural : formula.registry.Natural) {names : List String}
    {entries accepted : List FormulaEntry} {entry : FormulaEntry}
    (matched : (formula.perform (formula.matching fuel trigger input entries)).answer =
      .ok accepted)
    (mem : entry ∈ entries)
    (renews : ∀ program, Program.parse trigger.filter = .ok program → program.Renews names)
    (avoid : ∀ ref definition scope,
      (formula.storeBehind fuel trigger input []).callable ref = .script definition scope →
      Avoid names definition.expressions)
    (keeps : ∀ before after, entries = before ++ entry :: after →
      (formula.storeBehind fuel trigger input []).Keeps (trigger.boundNames ++ names)
        (formula.storeBehind fuel trigger input before)) :
    (formula.perform (formula.matching fuel trigger input [entry])).answer =
      .ok (if entry ∈ accepted then [entry] else []) := by
  obtain ⟨later, hmatched⟩ := Work.answer_eq_ok.mp matched
  obtain ⟨prepared, verdicts, hprepared, htested, rfl, rfl⟩ := matching_eq_ok.mp hmatched
  have hsettled := settled_of_beginFor fuel natural hprepared
  have hsound := sound_of_beginFor hprepared
  rw [storeBehind_nil hprepared] at avoid keeps
  have halone : ∀ verdict, (entry, verdict) ∈ verdicts →
      (formula.perform (formula.matching fuel trigger input [entry])).answer =
        .ok (if verdict then [entry] else []) := by
    intro verdict hmem
    obtain ⟨before, after, rfl⟩ := List.append_of_mem hmem
    obtain ⟨middle, hbefore, hafter⟩ := htested.of_append
    have hkeeps := keeps (before.map Prod.fst) (after.map Prod.fst) (by simp)
    rw [storeBehind_eq hprepared hbefore] at hkeeps
    -- in the pass the formula is asked about in a context that keeps what was prepared
    have hanswer : Work.answerOf (formula.accepts fuel trigger input entry prepared) =
        Work.answerOf (formula.accepts fuel trigger input entry middle) :=
      answer_accepts renews hsettled (settled_of_tested hsettled hbefore)
        (hsettled.tame_of_avoid avoid) hkeeps hsound (sound_of_tested hsound hbefore)
    obtain ⟨next, hverdict⟩ := hafter.first
    rw [hverdict] at hanswer
    exact answer_matching_one hprepared hanswer
  split
  · next hin =>
    obtain ⟨⟨_, verdict⟩, hmem, rfl⟩ := List.mem_map.mp hin
    obtain ⟨hmem, rfl⟩ := List.mem_filter.mp hmem
    exact halone true hmem
  · next hout =>
    obtain ⟨⟨_, verdict⟩, hmem, rfl⟩ := List.mem_map.mp mem
    cases verdict with
    | false => exact halone false hmem
    | true => exact absurd (List.mem_map_of_mem (List.mem_filter.mpr ⟨hmem, rfl⟩)) hout

/-! ## Filters that write to names only -/

theorem keeps_accepts {names : List String}
    (modest : ∀ program, Program.parse trigger.filter = .ok program →
      bodyIsModest names program.body = true)
    {entry : FormulaEntry} {context later : Context} {verdict : Bool}
    (sound : context.programs.Sound)
    (accepts : formula.accepts fuel trigger input entry context = .ok verdict later) :
    context.machine.store.Keeps (trigger.boundNames ++ names) later.machine.store := by
  rw [accepts_eq] at accepts
  obtain ⟨value, asked, hrun, hvalue⟩ := bind_eq_ok.mp accepts
  obtain ⟨program, hparse, hprogram⟩ := Work.run_eq_ok (by exact sound) hrun
  have hlater : asked = later := by
    cases value with
    | boolean b => exact (Work.pure_eq_ok.mp hvalue).2
    | _ => cases hvalue
  subst hlater
  have hbound := trigger.keeps_bound input entry names context.machine.store
  refine hbound.trans (Store.Keeps.mono_names ?_ (List.subset_append_right _ names))
  exact Program.keeping_run (modest program hparse) _ _ _ _ _ hprogram

/-- **A filter that calls nothing and writes to global names only leaves alone all else that it
finds.** -/
theorem keeps_storeBehind {names : List String}
    (modest : ∀ program, Program.parse trigger.filter = .ok program →
      bodyIsModest names program.body = true)
    {before rest accepted : List FormulaEntry}
    (matched : (formula.perform (formula.matching fuel trigger input (before ++ rest))).answer =
      .ok accepted) :
    (formula.storeBehind fuel trigger input []).Keeps (trigger.boundNames ++ names)
      (formula.storeBehind fuel trigger input before) := by
  obtain ⟨later, hmatched⟩ := Work.answer_eq_ok.mp matched
  obtain ⟨prepared, verdicts, hprepared, htested, hitems, -⟩ := matching_eq_ok.mp hmatched
  obtain ⟨before, after, rfl, rfl, rfl⟩ := List.map_eq_append_iff.mp hitems
  obtain ⟨middle, hbefore, -⟩ := htested.of_append
  rw [storeBehind_nil hprepared, storeBehind_eq hprepared hbefore]
  have hsound := sound_of_beginFor hprepared
  refine (hbefore.preserves (P := fun context => context.programs.Sound ∧
    prepared.machine.store.Keeps (trigger.boundNames ++ names) context.machine.store)
    (fun item context verdict later h hitem => ?_) ⟨hsound, Store.keeps_refl _⟩).2
  exact ⟨(formula.composed_accepts fuel trigger input item).unheard.sound h.1 hitem,
    h.2.trans (keeps_accepts modest h.1 hitem)⟩

/-- A filter that notes the name of the formula before it looks at it. -/
def noting : Trigger := ⟨"noting", "", "seen = config.ID; seen == input.id", "input", "", "", ""⟩

/-- A filter that accepts a formula only when it is the first one. -/
def firstOnly : Trigger :=
  ⟨"first", "", "first = typeof seen == 'undefined'; seen = true; first", "", "", "", ""⟩

/-- Two formulas. -/
def pair : FormulaEntry × FormulaEntry := (⟨"A", "", "", [], false⟩, ⟨"B", "", "", [], false⟩)

theorem forall_program_of_all {text : String} {P : Program → Prop} [DecidablePred P]
    (h : (Program.parse text).toOption.all (fun program => decide (P program)) = true) :
    ∀ program, Program.parse text = .ok program → P program := by
  intro program hparse
  rw [hparse] at h
  exact of_decide_eq_true h

theorem eq_ok_of_toOption {ε α : Type} {answer : Except ε α} {a : α}
    (h : answer.toOption = some a) : answer = .ok a := by
  cases answer <;> cases h
  rfl

/-- The second formula is accepted alone too, though the filter has noted the name of the first. -/
theorem matching_singleton_noting :
    ((Formula.ofConfig .lenient).perform ((Formula.ofConfig .lenient).matching 100 noting
      [("id", .string "B")] [pair.2])).answer = .ok [pair.2] := by
  have matched : ((Formula.ofConfig .lenient).perform ((Formula.ofConfig .lenient).matching 100
      noting [("id", .string "B")] [pair.1, pair.2])).answer = .ok [pair.2] :=
    eq_ok_of_toOption (by decide +kernel)
  have modest : ∀ program, Program.parse noting.filter = .ok program →
      bodyIsModest ["seen"] program.body = true := forall_program_of_all (by decide +kernel)
  have avoid : ∀ ref definition scope,
      ((Formula.ofConfig .lenient).storeBehind 100 noting [("id", .string "B")] []).callable ref =
        .script definition scope → Avoid ["seen"] definition.expressions :=
    Store.avoid_of_intrinsic (by decide +kernel)
  refine matching_singleton (Formula.natural_ofConfig _) matched (by decide)
    (forall_program_of_all (by decide +kernel)) avoid fun before after heq => ?_
  rw [heq] at matched
  exact keeps_storeBehind modest matched

/-- What a filter has set for one formula may change its verdict on the next: the second formula is
accepted alone, and not behind the first. -/
theorem matching_changed :
    ((Formula.ofConfig .lenient).perform ((Formula.ofConfig .lenient).matching 100 firstOnly []
        [pair.1, pair.2])).answer.toOption = some [pair.1] ∧
      ((Formula.ofConfig .lenient).perform ((Formula.ofConfig .lenient).matching 100 firstOnly []
        [pair.2])).answer.toOption = some [pair.2] := by
  decide +kernel

end Formula

end Formulary
