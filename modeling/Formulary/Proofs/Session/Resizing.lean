import Formulary.Proofs.Session.Isolation

/-!
# How many programs are kept is not seen

* `Operation`, `Session.operate`, `Session.answers` : all that is done with an engine, and what it
  answers;
* `Session.Alike` : sessions that no context can tell apart (`Session.Alike.operate`);
* `Formula.resized`, `Session.operate_resized` : an engine with room for another number of programs
  does the same with the programs that are kept;
* `ProgramCache.transparent` : so every text has its program whatever has been asked before, and
  engines that differ only in that number answer the same.
-/

namespace Formulary

/-- Something done with an engine, or asked of it. -/
inductive Operation where
  | step (step : Step)
  /-- A name is given a new context in the place of the one that it has. -/
  | renew (context : String)
  /-- The text of a custom function is written. -/
  | register (name body : String)
  /-- A text is written into the store of the given identity. -/
  | write (store : Nat) (name body : String)
  /-- The functions that there are, with their names and texts. -/
  | registry
  /-- The states of the functions of a context. -/
  | ledger (context : String)
  /-- The formulas that the filter of a trigger accepts. -/
  | matching (trigger : Trigger) (input : Members) (entries : List FormulaEntry)
  /-- A trigger of a catalog is fired. -/
  | fire (catalog : Catalog) (id : String) (input : Members)

/-- What an operation answers. -/
inductive Answer where
  | reply (reply : Reply)
  /-- Whether there was a text before. -/
  | replaced (flag : Bool)
  | registry (registry : Registry)
  | ledger (ledger : Ledger)
  | accepted (entries : List FormulaEntry)
  | result (members : Members)

/-- A step with its answer in another form. -/
def Stepped.map {α β : Type} (stepped : Stepped α) (form : α → β) : Stepped β :=
  ⟨stepped.answer.map form, stepped.log, stepped.session⟩

namespace Session

/-- An operation, with the given fuel for each script. -/
def operate (session : Session) (fuel : Nat) : Operation → Stepped Answer
  | .step step => (session.step fuel step).map .reply
  | .renew name => (session.renew fuel name).map fun _ => .reply none
  | .register name body =>
    let (replaced, formula) := session.formula.register name body
    ⟨.ok (.replaced replaced), [], { session with formula := formula }⟩
  | .write store name body =>
    let registry := session.formula.registry
    ⟨.ok (.replaced (registry.isWritten store name)), [],
      { session with
        formula := { session.formula with registry := registry.write store name body } }⟩
  | .registry => ⟨.ok (.registry session.formula.registry), [], session⟩
  | .ledger name => (session.within fuel name do return (← get).ledger).map .ledger
  | .matching trigger input entries =>
    (session.apart (session.formula.matching fuel trigger input entries)).map .accepted
  | .fire catalog id input =>
    (session.apart (session.formula.fire fuel catalog id input)).map .result

/-- What operations in order answer, each with the messages written meanwhile. -/
def answers (session : Session) (fuel : Nat) :
    List Operation → List (Except Failure Answer × List LogEntry)
  | [] => []
  | operation :: operations =>
    let done := session.operate fuel operation
    (done.answer, done.log) :: done.session.answers fuel operations

/-! ## Sessions that no context can tell apart -/

/-- Whether sessions have the same engine and the same contexts. They may keep other programs, as
long as all of them are those of their texts. -/
def Alike (session other : Session) : Prop :=
  ∀ watched, AlikeFor watched session other

/-- Whether steps have come to the same, and leave sessions alike. -/
def Agree {α : Type} (stepped other : Stepped α) : Prop :=
  ∀ watched, AgreeFor watched stepped other

variable {α β : Type} {session other : Session} {name : String} {work : Work α}

theorem AlikeFor.symm {watched : Option String} (alike : AlikeFor watched session other) :
    AlikeFor watched other session :=
  ⟨alike.formula.symm, fun name hname => (alike.context name hname).symm, alike.sound_other,
    alike.sound⟩

theorem Alike.formula (alike : Alike session other) : session.formula = other.formula :=
  (alike none).formula

theorem Agree.map {stepped stepped' : Stepped α} (agree : Agree stepped stepped') (form : α → β) :
    Agree (stepped.map form) (stepped'.map form) :=
  fun watched => ⟨congrArg (Except.map form) (agree watched).answer, (agree watched).log,
    (agree watched).session⟩

theorem Agree.andThen {first first' : Stepped α} {next next' : α → Session → Stepped β}
    (agree : Agree first first')
    (hnext : ∀ a session other, Alike session other → Agree (next a session) (next' a other)) :
    Agree (first.andThen next) (first'.andThen next') := by
  obtain ⟨answer, log, after⟩ := first
  obtain ⟨answer', log', after'⟩ := first'
  obtain ⟨rfl, rfl, -⟩ := agree none
  have halike : Alike after after' := fun watched => (agree watched).session
  unfold Stepped.andThen
  cases answer with
  | error e => exact fun watched => ⟨rfl, rfl, halike watched⟩
  | ok a =>
    intro watched
    obtain ⟨hanswer, hlog, hsession⟩ := hnext a after after' halike watched
    exact ⟨hanswer, congrArg (log ++ ·) hlog, hsession⟩

/-- What is done for one context agrees when it does for that context and leaves all others as they
are. -/
theorem Alike.agree {act : Session → Stepped α} (alike : Alike session other)
    (own : ∀ session other, AlikeFor (some name) session other →
      AgreeFor (some name) (act session) (act other))
    (others : ∀ watched session other, watched ≠ some name → AlikeFor watched session other →
      AlikeFor watched (act session).session other) :
    Agree (act session) (act other) := by
  obtain ⟨hanswer, hlog, hsession⟩ := own _ _ (alike (some name))
  intro watched
  by_cases hname : watched = some name
  · rw [hname]
    exact ⟨hanswer, hlog, hsession⟩
  · -- the two sessions go on one after the other, and neither time does the context see it
    have hleft := others watched _ _ hname (alike watched)
    have hboth := others watched _ _ hname hleft.symm
    exact ⟨hanswer, hlog, hboth.symm⟩

namespace Alike

theorem within (alike : Alike session other) (fuel : Nat) (h : work.Oblivious) :
    Agree (session.within fuel name work) (other.within fuel name work) :=
  alike.agree (fun _ _ alike => alike.within fuel h)
    fun _ _ _ hname alike => alike.within_of_other fuel hname h

theorem apart (alike : Alike session other) (h : work.Oblivious) :
    Agree (session.apart work) (other.apart work) :=
  fun watched => (alike watched).apart h

theorem step (alike : Alike session other) (fuel : Nat) (step : Step) :
    Agree (session.step fuel step) (other.step fuel step) := by
  cases hcontext : step.context? with
  | some name =>
    refine alike.agree (fun _ _ alike => alike.step fuel hcontext)
      fun watched _ _ hname alike => alike.step_of_other fuel fun kept hkept => ?_
    rw [← hkept, hcontext]
    exact hname
  | none =>
    cases step with
    | evaluate script members => exact fun watched => (alike watched).step_evaluate fuel _ _
    | _ => cases hcontext

theorem replace {beginning : Work Unit} (alike : Alike session other) (h : beginning.Oblivious) :
    Agree (session.replace name beginning) (other.replace name beginning) :=
  alike.agree (fun _ _ alike => alike.replace h)
    fun _ _ _ hname alike => alike.replace_of_other hname h

theorem renew (alike : Alike session other) (fuel : Nat) (name : String) :
    Agree (session.renew fuel name) (other.renew fuel name) := by
  refine (alike.within fuel (Work.oblivious_pure ())).andThen fun _ session other alike => ?_
  rw [alike.formula]
  exact alike.replace (Formula.composed_begin _ fuel).oblivious

/-- Sessions stay alike when both are given the same engine. -/
theorem withFormula (alike : Alike session other) (formula : Formula) :
    Alike { session with formula := formula } { other with formula := formula } :=
  fun watched => ⟨rfl, (alike watched).context, (alike watched).sound, (alike watched).sound_other⟩

/-- **An operation comes to the same in sessions alike,** and leaves sessions alike. -/
theorem operate (alike : Alike session other) (fuel : Nat) (operation : Operation) :
    Agree (session.operate fuel operation) (other.operate fuel operation) := by
  have hformula := alike.formula
  cases operation with
  | step step => exact (alike.step fuel step).map _
  | renew name => exact (alike.renew fuel name).map _
  | register name body =>
    unfold Session.operate
    rw [hformula]
    exact fun watched => ⟨rfl, rfl, alike.withFormula _ watched⟩
  | write store name body =>
    unfold Session.operate
    rw [hformula]
    exact fun watched => ⟨rfl, rfl, alike.withFormula _ watched⟩
  | registry =>
    unfold Session.operate
    rw [hformula]
    exact fun watched => ⟨rfl, rfl, alike watched⟩
  | ledger name =>
    have hcomposed : (do return (← get).ledger : Work Ledger).Composed :=
      .inLedger (fun _ _ same => by rw [same]) fun _ => .pure _
    exact (alike.within fuel hcomposed.oblivious).map _
  | matching trigger input entries =>
    unfold Session.operate
    rw [hformula]
    exact (alike.apart (Formula.composed_matching _ fuel trigger input entries).oblivious).map _
  | fire catalog id input =>
    unfold Session.operate
    rw [hformula]
    exact (alike.apart (Formula.composed_fire _ fuel input catalog id).oblivious).map _

theorem answers (alike : Alike session other) (fuel : Nat) (operations : List Operation) :
    session.answers fuel operations = other.answers fuel operations := by
  induction operations generalizing session other with
  | nil => rfl
  | cons operation operations ih =>
    have hagree := alike.operate fuel operation
    obtain ⟨hanswer, hlog, -⟩ := hagree none
    unfold Session.answers
    dsimp only
    rw [hanswer, hlog, ih fun watched => (hagree watched).session]

end Alike

end Session

/-! ## Room for another number of programs -/

/-- The engine with room for another number of programs. -/
def Formula.resized (formula : Formula) (size : Nat) : Formula :=
  { formula with config := { formula.config with cacheSize := size } }

namespace Formula

variable (formula : Formula) (size fuel : Nat) (trigger : Trigger) (input : Members)

theorem injectWithin_resized (depth : Nat) (name : String) :
    (formula.resized size).injectWithin fuel depth name =
      formula.injectWithin fuel depth name := by
  induction depth generalizing name with
  | zero => rfl
  | succ depth ih =>
    have hinject : (formula.resized size).injectWithin fuel depth =
        formula.injectWithin fuel depth := funext ih
    unfold injectWithin
    rw [hinject]
    rfl

theorem inject_resized (name : String) :
    (formula.resized size).inject fuel name = formula.inject fuel name :=
  formula.injectWithin_resized size fuel _ name

theorem prepare_resized (text : String) :
    (formula.resized size).prepare fuel text = formula.prepare fuel text := by
  unfold prepare
  rw [funext (formula.inject_resized size fuel)]

theorem beginFor_resized (text : String) :
    (formula.resized size).beginFor fuel text = formula.beginFor fuel text := by
  unfold beginFor
  rw [prepare_resized]
  rfl

theorem evaluate_resized (script : String) (members : List (String × Json)) :
    (formula.resized size).evaluate fuel script members =
      formula.evaluate fuel script members := by
  unfold evaluate
  rw [beginFor_resized]
  rfl

theorem reply_resized (request : Request) :
    (formula.resized size).reply fuel request = formula.reply fuel request := by
  cases request with
  | prepare text => exact congrArg (· >>= fun _ => pure none) (prepare_resized ..)
  | inject name => exact congrArg (· >>= fun _ => pure none) (inject_resized ..)
  | _ => rfl

theorem matching_resized (entries : List FormulaEntry) :
    (formula.resized size).matching fuel trigger input entries =
      formula.matching fuel trigger input entries := by
  unfold matching
  rw [beginFor_resized]
  rfl

theorem runMapping_resized (mapping : String) :
    (formula.resized size).runMapping fuel mapping = formula.runMapping fuel mapping := by
  unfold runMapping
  rw [prepare_resized]
  rfl

theorem runEntry_resized (entry : FormulaEntry) :
    (formula.resized size).runEntry fuel trigger input entry =
      formula.runEntry fuel trigger input entry := by
  unfold runEntry mapInputs mapOutputs
  rw [beginFor_resized, runMapping_resized, runMapping_resized]
  rfl

theorem fire_resized (catalog : Catalog) (id : String) :
    (formula.resized size).fire fuel catalog id input = formula.fire fuel catalog id input := by
  unfold fire
  cases catalog.trigger? id with
  | none => rfl
  | some trigger =>
    dsimp only
    rw [matching_resized, funext (formula.runEntry_resized size fuel trigger input)]

end Formula

/-- The session with an engine that has room for another number of programs. What is kept already
stays. -/
def Session.resized (session : Session) (size : Nat) : Session :=
  { session with formula := session.formula.resized size }

/-- The step with the session behind it resized. -/
def Stepped.resized {α : Type} (stepped : Stepped α) (size : Nat) : Stepped α :=
  { stepped with session := stepped.session.resized size }

theorem Stepped.andThen_resized {α β : Type} {size : Nat} {next next' : α → Session → Stepped β}
    (first : Stepped α)
    (h : ∀ a session, next' a (session.resized size) = (next a session).resized size) :
    (first.resized size).andThen next' = (first.andThen next).resized size := by
  obtain ⟨answer, log, session⟩ := first
  cases answer with
  | error e => rfl
  | ok a =>
    unfold Stepped.andThen Stepped.resized
    dsimp only
    rw [h]
    rfl

namespace Session

variable {α : Type} (session : Session) (size fuel : Nat)

theorem replace_resized (name : String) (beginning : Work Unit) :
    (session.resized size).replace name beginning =
      (session.replace name beginning).resized size :=
  (session.start beginning).andThen_resized fun _ _ => rfl

theorem within_resized (name : String) (work : Work α) :
    (session.resized size).within fuel name work =
      (session.within fuel name work).resized size := by
  -- the contexts are the same, so the same one is found
  have hcontexts : (session.resized size).contexts = session.contexts := rfl
  unfold within
  rw [hcontexts]
  cases session.contexts.get? name with
  | some context => rfl
  | none => exact (session.start (session.formula.begin fuel)).andThen_resized fun _ _ => rfl

theorem renew_resized (name : String) :
    (session.resized size).renew fuel name = (session.renew fuel name).resized size := by
  unfold renew
  rw [within_resized]
  exact (session.within fuel name (return ())).andThen_resized fun _ session =>
    session.replace_resized size name (session.formula.begin fuel)

theorem step_resized (step : Step) :
    (session.resized size).step fuel step = (session.step fuel step).resized size := by
  cases step with
  | begin context =>
    exact congrArg Stepped.silent
      (session.replace_resized size context (session.formula.begin fuel))
  | beginFor context text =>
    unfold Session.step
    dsimp only [resized]
    rw [Formula.beginFor_resized]
    exact congrArg Stepped.silent
      (session.replace_resized size context (session.formula.beginFor fuel text))
  | ask context request =>
    unfold Session.step
    dsimp only [resized]
    rw [Formula.reply_resized]
    exact session.within_resized size fuel context (session.formula.reply fuel request)
  | evaluate script members =>
    unfold Session.step
    dsimp only [resized]
    rw [Formula.evaluate_resized]
    rfl

/-- **An operation comes to the same when the engine has room for another number of programs.** -/
theorem operate_resized (operation : Operation) :
    (session.resized size).operate fuel operation =
      (session.operate fuel operation).resized size := by
  cases operation with
  | step step => exact congrArg (Stepped.map · Answer.reply) (session.step_resized size fuel step)
  | renew name =>
    exact congrArg (Stepped.map · fun _ => Answer.reply none) (session.renew_resized size fuel name)
  | register name body => rfl
  | write store name body => rfl
  | registry => rfl
  | ledger name =>
    exact congrArg (Stepped.map · Answer.ledger) (session.within_resized size fuel name _)
  | matching trigger input entries =>
    unfold operate
    dsimp only [resized]
    rw [Formula.matching_resized]
    rfl
  | fire catalog id input =>
    unfold operate
    dsimp only [resized]
    rw [Formula.fire_resized]
    rfl

theorem answers_resized (operations : List Operation) :
    (session.resized size).answers fuel operations = session.answers fuel operations := by
  induction operations generalizing session with
  | nil => rfl
  | cons operation operations ih =>
    unfold answers
    rw [operate_resized]
    exact congrArg (List.cons _) (ih _)

/-- Sessions that keep nothing yet are alike, whatever they have room for. -/
theorem alike_empty (formula : Formula) (size size' : Nat) :
    Alike ⟨formula, .empty size, .empty⟩ ⟨formula, .empty size', .empty⟩ :=
  fun _ => ⟨rfl, fun _ _ => rfl, ProgramCache.sound_empty size, ProgramCache.sound_empty size'⟩

end Session

/-- **How many programs are kept is not seen.** Whatever has been asked of a cache, every text has
its own program or its own error, every program is kept under its text, there are no more of them
than the bound, and a text that is no script leaves the cache as it was. Two engines that differ
only in that bound answer the same to all operations in order. -/
theorem ProgramCache.transparent :
    (∀ (bound : Nat) (calls : List CacheCall),
      ((empty bound).after calls).Faithful bound ∧
      (∀ text, (((empty bound).after calls).getOrParse text).1 = Program.parse text) ∧
      (∀ text e, Program.parse text = .error e →
        (((empty bound).after calls).getOrParse text).2 = (empty bound).after calls)) ∧
    (∀ (formula : Formula) (size fuel : Nat) (operations : List Operation),
      (Session.ofFormula (formula.resized size)).answers fuel operations =
        (Session.ofFormula formula).answers fuel operations) := by
  constructor
  · intro bound calls
    have faithful := (faithful_empty bound).after calls
    exact ⟨faithful, getOrParse_eq faithful.sound, fun _ _ => getOrParse_of_error _⟩
  · intro formula size fuel operations
    have halike := Session.alike_empty formula size formula.config.cacheSize
    calc (Session.ofFormula (formula.resized size)).answers fuel operations
        = (Session.mk formula (.empty size) .empty).answers fuel operations :=
          Session.answers_resized ⟨formula, .empty size, .empty⟩ size fuel operations
      _ = (Session.ofFormula formula).answers fuel operations := halike.answers fuel operations

/-- A text that breaks off leaves a full cache as it was, and a custom function that is called twice
answers the same without any cache. -/
theorem ProgramCache.transparent_full :
    (∃ e, Program.parse "a +" = .error e ∧
      (((empty 2).after [.getOrParse "a", .clear, .getOrParse "b", .getOrParse "c"]).getOrParse
        "a +").2 = (empty 2).after [.getOrParse "a", .clear, .getOrParse "b", .getOrParse "c"]) ∧
    (Session.ofFormula ((Formula.ofConfig .testing).resized 0)).answers 100
        [.register "$F" "function $F(x) \x7b return x \x7d", .step (.evaluate "$F('a')" []),
          .step (.evaluate "$F('a')" [])] =
      (Session.ofFormula (Formula.ofConfig .testing)).answers 100
        [.register "$F" "function $F(x) \x7b return x \x7d", .step (.evaluate "$F('a')" []),
          .step (.evaluate "$F('a')" [])] := by
  have hbroken : (Program.parse "a +").toOption.isNone = true := by decide +kernel
  refine ⟨?_, transparent.2 _ 0 100 _⟩
  cases hparse : Program.parse "a +" with
  | ok program =>
    rw [hparse] at hbroken
    cases hbroken
  | error e => exact ⟨e, rfl, (transparent.1 2 _).2.2 "a +" e hparse⟩

end Formulary
