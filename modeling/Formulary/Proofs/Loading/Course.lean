import Formulary.Proofs.Loading.Noting
import Formulary.Proofs.Loading.Order

/-!
# Courses of a context

* `Deed`, `Course` : what is done with a context and with the functions that it loads, and what
  has come of it;
* `Course.perform`, `Course.after` : one deed, and deeds in order;
* `Course.perform_cases` : a deed leaves states and notes alone, or loads names;
* `Course.Once` : what all courses keep;
* `Course.Interrupted`, `Course.exists_fails_of_interrupted` : functions that a failure has left
  behind;
* `Course.InOrder` : what courses keep in which no loading has failed, while the functions stay the
  same;
* `Course.effects_once_in_order` : no effect is begun twice, and none before its function is ready.
-/

namespace Formulary

/-- Something done with a context, or with the functions that it loads. -/
inductive Deed where
  /-- The text of a custom function is written into the first store. -/
  | register (name body : String)
  /-- The text of a custom function is written into any store. -/
  | write (store : Nat) (name body : String)
  | prepare (text : String)
  | inject (name : String)
  | run (script : String)
  | define (members : List (String × Json))
  /-- Other contexts have changed the programs that all of them keep. -/
  | share (programs : ProgramCache)

/-- Whether a deed may change the functions. -/
def Deed.isRegistration : Deed → Bool
  | register _ _ => true
  | write _ _ _ => true
  | _ => false

/-- What has come of deeds: the engine with its functions, the context, the effects of loading noted
so far, and how often the loading of functions has failed. -/
structure Course where
  formula : Formula
  context : Context
  notes : List Note
  failures : Nat

namespace Course

/-- A course that begins with a new context. -/
def begun (formula : Formula) (fuel : Nat) (programs : ProgramCache) : Course :=
  ⟨formula, (formula.begin fuel).after (.fresh programs), [], 0⟩

/-- Loads functions; `noting` is the same with notes. -/
def load (course : Course) (work : Work Unit) (noting : Noting Unit) : Course :=
  { course with
    context := work.after course.context
    notes := course.notes ++ noting.notesFrom course.context
    failures := course.failures + if work.succeeds course.context then 0 else 1 }

/-- Does a deed, with the given fuel for scripts. -/
def perform (course : Course) (fuel : Nat) : Deed → Course
  | .register name body => { course with formula := (course.formula.register name body).2 }
  | .write store name body =>
    { course with
      formula := { course.formula with
        registry := course.formula.registry.write store name body } }
  | .prepare text =>
    course.load (course.formula.prepare fuel text) (course.formula.notePrepare fuel text)
  | .inject name =>
    course.load (course.formula.inject fuel name) (course.formula.noteInject fuel name)
  | .run script =>
    { course with context := (Work.run (course.formula.limits fuel) script).after course.context }
  | .define members => { course with context := (Work.defineAll members).after course.context }
  | .share programs => { course with context := { course.context with programs := programs } }

/-- Does deeds in order, each with fuel of its own. -/
def after (course : Course) (history : List (Nat × Deed)) : Course :=
  history.foldl (fun course entry => course.perform entry.1 entry.2) course

/-- The state of a function. -/
def state (course : Course) (name : String) : LoadState :=
  course.context.ledger.state name

variable {formula : Formula} {course : Course} {name : String}

theorem ledger_begun (formula : Formula) (fuel : Nat) (programs : ProgramCache) :
    (begun formula fuel programs).context.ledger = .empty := by
  unfold begun Formula.begin
  rw [Work.after_modify_bind]
  cases formula.start with
  | none => rfl
  | some program =>
    exact (Work.keepsLedger_runProgram _ program).bind (fun _ => Work.keepsLedger_pure ()) _

theorem load_loads {work : Work Unit} {noting : Noting Unit} {names : List String}
    (erases : noting.Erases work)
    (follows : ∀ noted, Noting.Follows noted (course.formula.Loads [] names noted.context.ledger)
      (noting noted)) :
    ∃ notes ok, course.formula.Loads [] names course.context.ledger notes ok
        (course.load work noting).context.ledger ∧
      (course.load work noting).notes = course.notes ++ notes ∧
      (course.load work noting).failures = course.failures + if ok then 0 else 1 :=
  ⟨_, _, Formula.loads_of_follows erases follows course.context, rfl, rfl⟩

/-- **A deed leaves states and notes alone, or loads names.** -/
theorem perform_cases (course : Course) (fuel : Nat) (deed : Deed) :
    ((course.perform fuel deed).context.ledger = course.context.ledger ∧
      (course.perform fuel deed).notes = course.notes ∧
      (course.perform fuel deed).failures = course.failures) ∨
    ∃ names notes ok, course.formula.Loads [] names course.context.ledger notes ok
        (course.perform fuel deed).context.ledger ∧
      (course.perform fuel deed).notes = course.notes ++ notes ∧
      (course.perform fuel deed).failures = course.failures + if ok then 0 else 1 := by
  cases deed with
  | register name body => exact Or.inl ⟨rfl, rfl, rfl⟩
  | write store name body => exact Or.inl ⟨rfl, rfl, rfl⟩
  | prepare text =>
    exact Or.inr ⟨_, load_loads (course.formula.notePrepare_erases fuel text)
      (course.formula.notePrepare_follows fuel text)⟩
  | inject name =>
    exact Or.inr ⟨_, load_loads (course.formula.noteInject_erases fuel name)
      (course.formula.noteInject_follows fuel name)⟩
  | run script => exact Or.inl ⟨Work.keepsLedger_run _ script _, rfl, rfl⟩
  | define members => exact Or.inl ⟨Work.keepsLedger_defineAll members _, rfl, rfl⟩
  | share programs => exact Or.inl ⟨rfl, rfl, rfl⟩

theorem formula_perform {deed : Deed} (fixed : deed.isRegistration = false) (fuel : Nat) :
    (course.perform fuel deed).formula = course.formula := by
  cases deed with
  | register => cases fixed
  | write => cases fixed
  | prepare => rfl
  | inject => rfl
  | run => rfl
  | define => rfl
  | share => rfl

/-- What deeds of a history keep holds after the history. -/
theorem after_induction (P : Course → Prop) {history : List (Nat × Deed)}
    (step : ∀ course, ∀ entry ∈ history, P course → P (course.perform entry.1 entry.2))
    (start : P course) : P (course.after history) := by
  induction history generalizing course with
  | nil => exact start
  | cons entry history ih =>
    refine ih (fun course later hmem => step course later (List.mem_cons_of_mem _ hmem)) ?_
    exact step course entry List.mem_cons_self start

/-! ## What courses keep -/

/-- No effect has been begun twice, and none of a function that is new. -/
structure Once (course : Course) : Prop where
  nodup : (begunNames course.notes).Nodup
  known : ∀ name ∈ begunNames course.notes, course.state name ≠ .notLoaded

theorem Once.perform (once : course.Once) (fuel : Nat) (deed : Deed) :
    (course.perform fuel deed).Once := by
  rcases course.perform_cases fuel deed with ⟨hledger, hnotes, -⟩ | ⟨names, notes, ok, hloads,
    hnotes, -⟩
  · refine ⟨by rw [hnotes]; exact once.nodup, fun name hname => ?_⟩
    rw [hnotes] at hname
    rw [state, hledger]
    exact once.known name hname
  · refine ⟨?_, fun name hname => ?_⟩
    · rw [hnotes, begunNames_append, List.nodup_append]
      refine ⟨once.nodup, hloads.nodup_begunNames, ?_⟩
      rintro first hfirst second hsecond rfl
      exact once.known first hfirst (hloads.of_mem_begunNames hsecond).1
    · rw [hnotes, begunNames_append, List.mem_append] at hname
      rcases hname with hold | hnew
      · exact fun hstate => once.known name hold (hloads.new_before hstate)
      · exact (hloads.of_mem_begunNames hnew).2

/-- Whether a function is known although its effect has not happened without a failure. -/
def Interrupted (course : Course) (name : String) : Prop :=
  course.state name ≠ .notLoaded ∧ name ∉ endedNames course.notes

/-- The functions whose effects have happened are loaded. -/
def Installs (course : Course) : Prop :=
  ∀ name ∈ endedNames course.notes, course.state name = .loaded

theorem Installs.perform (installs : course.Installs) (fuel : Nat) (deed : Deed) :
    (course.perform fuel deed).Installs := by
  intro name hname
  rcases course.perform_cases fuel deed with ⟨hledger, hnotes, -⟩ | ⟨names, notes, ok, hloads,
    hnotes, -⟩
  · rw [hnotes] at hname
    rw [state, hledger]
    exact installs name hname
  · rw [hnotes, endedNames_append, List.mem_append] at hname
    rcases hname with hold | hnew
    · exact hloads.loaded_kept (installs name hold)
    · exact hloads.loaded_of_mem_endedNames hnew

/-- **Only a failure interrupts the loading of a function,** one that has been new before it. -/
theorem fails_of_interrupted {fuel : Nat} {deed : Deed} (before : ¬course.Interrupted name)
    (interrupted : (course.perform fuel deed).Interrupted name) :
    course.failures < (course.perform fuel deed).failures ∧ course.state name = .notLoaded := by
  obtain ⟨hknown, hended⟩ := interrupted
  rcases course.perform_cases fuel deed with ⟨hledger, hnotes, -⟩ | ⟨names, notes, ok, hloads,
    hnotes, hfailures⟩
  · rw [hnotes] at hended
    rw [state, hledger] at hknown
    exact absurd ⟨hknown, hended⟩ before
  · rw [hnotes, endedNames_append, List.mem_append, not_or] at hended
    have hnew : course.state name = .notLoaded := by
      rcases eq_or_ne (course.state name) .notLoaded with hnew | hold
      · exact hnew
      · exact absurd ⟨hold, hended.1⟩ before
    cases ok with
    | true => exact absurd (hloads.loaded_of_new hnew hknown).2.2.2 hended.2
    | false => exact ⟨by rw [hfailures]; simp, hnew⟩

/-- **A function is interrupted by a deed that fails,** which has found it new. -/
theorem exists_fails_of_interrupted {history : List (Nat × Deed)}
    (before : ¬course.Interrupted name) (interrupted : (course.after history).Interrupted name) :
    ∃ earlier fuel deed later, history = earlier ++ (fuel, deed) :: later ∧
      (course.after earlier).failures < ((course.after earlier).perform fuel deed).failures ∧
      (course.after earlier).state name = .notLoaded ∧
      ((course.after earlier).perform fuel deed).Interrupted name := by
  induction history generalizing course with
  | nil => exact absurd interrupted before
  | cons entry history ih =>
    by_cases hentry : (course.perform entry.1 entry.2).Interrupted name
    · obtain ⟨hfails, hnew⟩ := fails_of_interrupted before hentry
      exact ⟨[], entry.1, entry.2, history, rfl, hfails, hnew, hentry⟩
    · obtain ⟨earlier, fuel, deed, later, rfl, hfails⟩ := ih hentry interrupted
      exact ⟨entry :: earlier, fuel, deed, later, rfl, hfails⟩

/-- While no loading fails and the functions stay the same, the states are sound between deeds, and
the effects have been in order. -/
structure InOrder (formula : Formula) (course : Course) : Prop where
  same : course.formula = formula
  sound : SoundLedger formula.registry formula.config.unresolved (endedNames course.notes) []
    course.context.ledger
  orderly : Orderly formula.registry [] course.notes

/-- The effects of a further deed are in order, also where it fails. -/
theorem InOrder.orderly_perform (inOrder : course.InOrder formula) (fuel : Nat) (deed : Deed) :
    Orderly formula.registry [] (course.perform fuel deed).notes := by
  rcases course.perform_cases fuel deed with ⟨-, hnotes, -⟩ | ⟨names, notes, ok, hloads, hnotes, -⟩
  · rw [hnotes]
    exact inOrder.orderly
  · rw [inOrder.same] at hloads
    rw [hnotes]
    refine orderly_append.mpr ⟨inOrder.orderly, ?_⟩
    exact hloads.orderly inOrder.sound fun outer houter => nomatch houter

theorem inOrder_perform (inOrder : course.failures = 0 → course.InOrder formula) (fuel : Nat)
    {deed : Deed} (fixed : deed.isRegistration = false)
    (clean : (course.perform fuel deed).failures = 0) :
    (course.perform fuel deed).InOrder formula := by
  rcases course.perform_cases fuel deed with ⟨hledger, hnotes, hfailures⟩ | ⟨names, notes, ok,
    hloads, hnotes, hfailures⟩
  · have hbefore := inOrder (hfailures ▸ clean)
    refine ⟨(formula_perform fixed fuel).trans hbefore.same, ?_, hbefore.orderly_perform fuel deed⟩
    rw [hledger, hnotes]
    exact hbefore.sound
  · rw [clean] at hfailures
    have hbefore := inOrder (by omega)
    cases ok with
    | false =>
      rw [if_neg Bool.false_ne_true] at hfailures
      omega
    | true =>
      refine ⟨(formula_perform fixed fuel).trans hbefore.same, ?_,
        hbefore.orderly_perform fuel deed⟩
      rw [hbefore.same] at hloads
      rw [hnotes, endedNames_append]
      exact hloads.sound hbefore.sound

/-! ## Courses of a new context -/

section Begun
variable (formula : Formula) (fuel : Nat) (programs : ProgramCache) (history : List (Nat × Deed))

theorem state_begun (name : String) : (begun formula fuel programs).state name = .notLoaded := by
  rw [state, ledger_begun, Ledger.state_empty]

theorem once_after : ((begun formula fuel programs).after history).Once :=
  after_induction Once (fun _ entry _ once => once.perform entry.1 entry.2)
    ⟨List.nodup_nil, fun _ h => nomatch h⟩

theorem installs_after : ((begun formula fuel programs).after history).Installs :=
  after_induction Installs (fun _ entry _ installs => installs.perform entry.1 entry.2)
    fun _ h => nomatch h

theorem inOrder_after (fixed : ∀ entry ∈ history, entry.2.isRegistration = false)
    (clean : ((begun formula fuel programs).after history).failures = 0) :
    ((begun formula fuel programs).after history).InOrder formula := by
  refine after_induction (fun course => course.failures = 0 → course.InOrder formula)
    (fun course entry hmem inOrder => inOrder_perform inOrder entry.1 (fixed entry hmem))
    (fun _ => ⟨rfl, ?_, trivial⟩) clean
  rw [ledger_begun]
  exact SoundLedger.empty _ _

/-- **No effect is begun twice, and effects are in order.** The first holds of all courses. As long
as no loading has failed and the functions stay the same, a function is ready when its effect
begins, also in a deed that fails. -/
theorem effects_once_in_order :
    (∀ name, (begunNames ((begun formula fuel programs).after history).notes).count name ≤ 1) ∧
    ((∀ entry ∈ history, entry.2.isRegistration = false) →
      ((begun formula fuel programs).after history).failures = 0 →
      ∀ fuel' deed before name chain ledger rest,
        (((begun formula fuel programs).after history).perform fuel' deed).notes =
          before ++ .begun name chain ledger :: rest →
        Ready formula.registry name chain ledger (endedNames before)) := by
  refine ⟨fun name => ?_, fun fixed clean fuel' deed before name chain ledger rest hnotes => ?_⟩
  · exact List.nodup_iff_count_le_one.mp (once_after formula fuel programs history).nodup name
  · have inOrder := inOrder_after formula fuel programs history fixed clean
    have horderly := inOrder.orderly_perform fuel' deed
    rw [hnotes] at horderly
    exact horderly.ready

end Begun

/-- Three functions that refer to one another. -/
def cyclic : Formula :=
  (Formula.ofConfig .strict).registerAll [("$A", "//$B("), ("$B", "//$C("), ("$C", "//$A(")]

/-- A function in a cycle is ready when its effect begins. -/
theorem effects_once_in_order_cyclic :
    ∃ before chain ledger rest,
      (((begun cyclic 100 cyclic.newCache).after [(100, .inject "$MAX")]).perform 100
        (.prepare "$A(")).notes = before ++ .begun "$C" chain ledger :: rest ∧
      Ready cyclic.registry "$C" chain ledger (endedNames before) := by
  obtain ⟨note, hmem, hname⟩ := List.mem_filterMap.mp (show "$C" ∈ begunNames
    (((begun cyclic 100 cyclic.newCache).after [(100, .inject "$MAX")]).perform 100
      (.prepare "$A(")).notes by decide +kernel)
  obtain ⟨before, rest, hnotes⟩ := List.append_of_mem hmem
  cases note with
  | ended name => cases hname
  | begun name chain ledger =>
    cases hname
    have hready := (effects_once_in_order cyclic 100 cyclic.newCache [(100, .inject "$MAX")]).2
      (by decide) (by decide +kernel) 100 (.prepare "$A(") before "$C" chain ledger rest hnotes
    exact ⟨before, chain, ledger, rest, hnotes, hready⟩

end Course

end Formulary
