import Formulary.Proofs.Context.Oblivious
import Formulary.Session

/-!
# Contexts of one engine do not see one another

* `Request`, `Step` : what is asked of a context, and what is done with an engine;
* `Session.step`, `Session.transcript` : a step, and steps in order with their outcomes;
* `Session.AlikeFor` : sessions that one context cannot tell apart (`Session.AlikeFor.step`,
  `Session.AlikeFor.step_of_other`);
* `Session.transcript_apart` : every context answers as if it were alone, and so does every
  evaluation.
-/

namespace Formulary

/-- Something asked of a context. -/
inductive Request where
  | run (script : String)
  | get (name : String)
  /-- A global name is given a value that is made in the context. -/
  | set (name : String) (value : Run Value)
  | setAll (members : List (String × Json))
  | prepare (text : String)
  | inject (name : String)

/-- Something done with an engine. -/
inductive Step where
  /-- A context is begun under a name. -/
  | begin (context : String)
  /-- A context is begun under a name and prepared for a text. -/
  | beginFor (context text : String)
  | ask (context : String) (request : Request)
  | evaluate (script : String) (members : List (String × Json))

/-- The name of the context that a step is about. An evaluation has a context of its own. -/
def Step.context? : Step → Option String
  | begin context => some context
  | beginFor context _ => some context
  | ask context _ => some context
  | evaluate _ _ => none

/-- What a step answers: a value and the store that it refers to, where it is asked for one. -/
abbrev Reply := Option (Value × Store)

/-- What is done for a request. -/
def Formula.reply (formula : Formula) (fuel : Nat) : Request → Work Reply
  | .run script => do return some (← (Work.run (formula.limits fuel) script).withStore)
  | .get name => do return some (← (Work.lookUp name).withStore)
  | .set name value => do
    Work.define name (← Work.ofRun value)
    return none
  | .setAll members => do
    Work.defineAll members
    return none
  | .prepare text => do
    formula.prepare fuel text
    return none
  | .inject name => do
    formula.inject fuel name
    return none

/-- A step that is asked for nothing. -/
def Stepped.silent {α : Type} (stepped : Stepped α) : Stepped Reply :=
  ⟨stepped.answer.map fun _ => none, stepped.log, stepped.session⟩

/-- A reply or a failure, and the messages written meanwhile. -/
structure Outcome where
  answer : Except Failure Reply
  log : List LogEntry

namespace Session

/-- Does a step, with the given fuel for each script. -/
def step (session : Session) (fuel : Nat) : Step → Stepped Reply
  | .begin name => (session.replace name (session.formula.begin fuel)).silent
  | .beginFor name text => (session.replace name (session.formula.beginFor fuel text)).silent
  | .ask name request => session.within fuel name (session.formula.reply fuel request)
  | .evaluate script members =>
    session.apart do return some (← (session.formula.evaluate fuel script members).withStore)

/-- Does steps in order; every step stands with its outcome. -/
def transcript (session : Session) (fuel : Nat) : List Step → List (Step × Outcome)
  | [] => []
  | step :: steps =>
    let done := session.step fuel step
    (step, ⟨done.answer, done.log⟩) :: done.session.transcript fuel steps

end Session

/-! ## Sessions that a context cannot tell apart -/

/-- What belongs to a context alone. -/
def Context.own (context : Context) : Machine × Ledger :=
  (context.machine, context.ledger)

namespace Session

/-- Whether the context of the watched name, if any, is the same in two sessions. They may keep
other programs, as long as all of them are those of their texts, and have other contexts. -/
structure AlikeFor (watched : Option String) (session other : Session) : Prop where
  formula : session.formula = other.formula
  context : ∀ name, watched = some name →
    (session.contexts.get? name).map Context.own = (other.contexts.get? name).map Context.own
  sound : session.programs.Sound
  sound_other : other.programs.Sound

/-- Whether steps have come to the same, and leave sessions alike for the watched context. -/
structure AgreeFor {α : Type} (watched : Option String) (stepped other : Stepped α) : Prop where
  answer : stepped.answer = other.answer
  log : stepped.log = other.log
  session : AlikeFor watched stepped.session other.session

variable {α : Type} {watched : Option String} {name kept : String} {session other : Session}
  {context context' : Context} {work : Work α}

theorem alikeFor_ofFormula (formula : Formula) (watched : Option String) :
    AlikeFor watched (ofFormula formula) (ofFormula formula) :=
  ⟨rfl, fun _ _ => rfl, ProgramCache.sound_empty _, ProgramCache.sound_empty _⟩

theorem AgreeFor.silent {stepped stepped' : Stepped α} (agree : AgreeFor watched stepped stepped') :
    AgreeFor watched stepped.silent stepped'.silent :=
  ⟨congrArg (Except.map fun _ => none) agree.answer, agree.log, agree.session⟩

namespace AlikeFor

/-! ### Steps of the watched context -/

theorem keep (alike : AlikeFor (some name) session other) (same : context.Alike context') :
    AlikeFor (some name) (session.keep name context) (other.keep name context') := by
  refine ⟨alike.formula, fun _ h => ?_, same.sound, same.sound_other⟩
  cases h
  unfold Session.keep
  rw [Table.get?_put, Table.get?_put, if_pos rfl, if_pos rfl, Option.map_some, Option.map_some,
    Context.own, Context.own, same.machine, same.ledger]

theorem resume (alike : AlikeFor (some name) session other) (same : context.own = context'.own)
    (h : work.Oblivious) :
    AgreeFor (some name) (session.resume name context work) (other.resume name context' work) := by
  have hcontext : Context.Alike { context with programs := session.programs }
      { context' with programs := other.programs } :=
    ⟨congrArg Prod.fst same, congrArg Prod.snd same, alike.sound, alike.sound_other⟩
  obtain ⟨hanswer, hlog, hafter⟩ := h.perform hcontext
  exact ⟨hanswer, hlog, alike.keep hafter⟩

/-- A context is begun in the same way whatever programs are kept. -/
theorem start_andThen {beginning : Work Unit} {next : Context → Session → Stepped α}
    (alike : AlikeFor watched session other) (h : beginning.Oblivious)
    (hnext : ∀ context context' session other, Context.Alike context context' →
      AlikeFor watched session other →
      AgreeFor watched (next context session) (next context' other)) :
    AgreeFor watched ((session.start beginning).andThen next)
      ((other.start beginning).andThen next) := by
  obtain ⟨hanswer, hlog, hafter⟩ := h.perform (Context.alike_fresh alike.sound alike.sound_other)
  unfold Session.start Stepped.andThen
  dsimp only
  generalize beginning.perform (.fresh session.programs) = done at *
  generalize beginning.perform (.fresh other.programs) = done' at *
  have halike : AlikeFor watched { session with programs := done.context.programs }
      { other with programs := done'.context.programs } :=
    ⟨alike.formula, alike.context, hafter.sound, hafter.sound_other⟩
  rw [hanswer, hlog]
  cases done'.answer with
  | error e => exact ⟨rfl, rfl, halike⟩
  | ok u =>
    have hagree := hnext done.context done'.context _ _ hafter halike
    exact ⟨hagree.answer, congrArg (done'.log ++ ·) hagree.log, hagree.session⟩

theorem replace {beginning : Work Unit} (alike : AlikeFor (some name) session other)
    (h : beginning.Oblivious) :
    AgreeFor (some name) (session.replace name beginning) (other.replace name beginning) :=
  alike.start_andThen h fun _ _ _ _ same alike => ⟨rfl, rfl, alike.keep same⟩

theorem within (alike : AlikeFor (some name) session other) (fuel : Nat) (h : work.Oblivious) :
    AgreeFor (some name) (session.within fuel name work) (other.within fuel name work) := by
  have hcontext := alike.context name rfl
  unfold Session.within
  cases hsession : session.contexts.get? name with
  | some context =>
    cases hother : other.contexts.get? name with
    | some context' =>
      rw [hsession, hother] at hcontext
      exact alike.resume (Option.some.inj hcontext) h
    | none =>
      rw [hsession, hother] at hcontext
      cases hcontext
  | none =>
    cases hother : other.contexts.get? name with
    | some context' =>
      rw [hsession, hother] at hcontext
      cases hcontext
    | none =>
      rw [alike.formula]
      refine alike.start_andThen (Formula.composed_begin _ fuel).oblivious
        fun _ _ _ _ same alike => ?_
      exact alike.resume (by rw [Context.own, Context.own, same.machine, same.ledger]) h

theorem apart (alike : AlikeFor watched session other) (h : work.Oblivious) :
    AgreeFor watched (session.apart work) (other.apart work) := by
  obtain ⟨hanswer, hlog, hafter⟩ := h.perform (Context.alike_fresh alike.sound alike.sound_other)
  exact ⟨hanswer, hlog, alike.formula, alike.context, hafter.sound, hafter.sound_other⟩

/-! ### Steps of other contexts -/

theorem keep_of_other (alike : AlikeFor watched session other) (hne : watched ≠ some kept)
    (sound : context.programs.Sound) : AlikeFor watched (session.keep kept context) other := by
  refine ⟨alike.formula, fun name hname => ?_, sound, alike.sound_other⟩
  unfold Session.keep
  rw [Table.get?_put, if_neg fun heq => hne (by rw [hname, heq])]
  exact alike.context name hname

theorem resume_of_other (alike : AlikeFor watched session other) (hne : watched ≠ some kept)
    (h : work.Oblivious) : AlikeFor watched (session.resume kept context work).session other := by
  have hcontext : Context.Alike { context with programs := session.programs }
      { context with programs := session.programs } := ⟨rfl, rfl, alike.sound, alike.sound⟩
  exact alike.keep_of_other hne (h.perform hcontext).2.2.sound

theorem start_andThen_of_other {beginning : Work Unit} {next : Context → Session → Stepped α}
    (alike : AlikeFor watched session other) (h : beginning.Oblivious)
    (hnext : ∀ context session, context.programs.Sound → AlikeFor watched session other →
      AlikeFor watched (next context session).session other) :
    AlikeFor watched ((session.start beginning).andThen next).session other := by
  have hsound := (h.perform (Context.alike_fresh alike.sound alike.sound)).2.2.sound
  unfold Session.start Stepped.andThen
  dsimp only
  generalize beginning.perform (.fresh session.programs) = done at *
  have halike : AlikeFor watched { session with programs := done.context.programs } other :=
    ⟨alike.formula, alike.context, hsound, alike.sound_other⟩
  cases done.answer with
  | error e => exact halike
  | ok u => exact hnext done.context _ hsound halike

theorem replace_of_other {beginning : Work Unit} (alike : AlikeFor watched session other)
    (hne : watched ≠ some kept) (h : beginning.Oblivious) :
    AlikeFor watched (session.replace kept beginning).session other :=
  alike.start_andThen_of_other h fun _ _ sound alike => alike.keep_of_other hne sound

theorem within_of_other (alike : AlikeFor watched session other) (fuel : Nat)
    (hne : watched ≠ some kept) (h : work.Oblivious) :
    AlikeFor watched (session.within fuel kept work).session other := by
  unfold Session.within
  cases session.contexts.get? kept with
  | some context => exact alike.resume_of_other hne h
  | none =>
    exact alike.start_andThen_of_other (Formula.composed_begin _ fuel).oblivious
      fun _ _ _ alike => alike.resume_of_other hne h

theorem apart_of_other (alike : AlikeFor watched session other) (h : work.Oblivious) :
    AlikeFor watched (session.apart work).session other := by
  have hsound := (h.perform (Context.alike_fresh alike.sound alike.sound)).2.2.sound
  exact ⟨alike.formula, alike.context, hsound, alike.sound_other⟩

end AlikeFor

end Session

/-! ## Steps -/

theorem Formula.oblivious_reply (formula : Formula) (fuel : Nat) (request : Request) :
    (formula.reply fuel request).Oblivious := by
  cases request with
  | run script => exact ((Work.composed_run _ script).withStore.bind fun _ => .pure _).oblivious
  | get name => exact ((Work.composed_lookUp name).withStore.bind fun _ => .pure _).oblivious
  | set name value =>
    -- the value may be made in any way whatever
    exact (Work.oblivious_ofRun value).bind fun made =>
      ((Work.composed_define name made).bind fun _ => .pure _).oblivious
  | setAll members => exact ((Work.composed_defineAll members).bind fun _ => .pure _).oblivious
  | prepare text => exact ((formula.composed_prepare fuel text).bind fun _ => .pure _).oblivious
  | inject name => exact ((formula.composed_inject fuel name).bind fun _ => .pure _).oblivious

/-- What is done for an evaluation whose value is asked for with the store. -/
theorem Formula.oblivious_evaluation (formula : Formula) (fuel : Nat) (script : String)
    (members : List (String × Json)) :
    (do return some (← (formula.evaluate fuel script members).withStore) : Work Reply).Oblivious :=
  ((formula.composed_evaluate fuel script members).withStore.bind fun _ => .pure _).oblivious

namespace Session

variable {watched : Option String} {name : String} {session other : Session}

/-- **A context answers the same in sessions that it cannot tell apart.** -/
theorem AlikeFor.step (alike : AlikeFor (some name) session other) (fuel : Nat) {step : Step}
    (h : step.context? = some name) :
    AgreeFor (some name) (session.step fuel step) (other.step fuel step) := by
  have hformula := alike.formula
  cases step with
  | begin context =>
    cases h
    unfold Session.step
    rw [hformula]
    exact (alike.replace (Formula.composed_begin _ fuel).oblivious).silent
  | beginFor context text =>
    cases h
    unfold Session.step
    rw [hformula]
    exact (alike.replace (Formula.composed_beginFor _ fuel text).oblivious).silent
  | ask context request =>
    cases h
    unfold Session.step
    rw [hformula]
    exact alike.within fuel (Formula.oblivious_reply _ fuel request)
  | evaluate script members => cases h

theorem AlikeFor.step_evaluate (alike : AlikeFor watched session other) (fuel : Nat)
    (script : String) (members : List (String × Json)) :
    AgreeFor watched (session.step fuel (.evaluate script members))
      (other.step fuel (.evaluate script members)) := by
  unfold Session.step
  rw [alike.formula]
  exact alike.apart (Formula.oblivious_evaluation _ fuel script members)

/-- **A context sees nothing of steps that are not about it.** -/
theorem AlikeFor.step_of_other (alike : AlikeFor watched session other) (fuel : Nat) {step : Step}
    (h : ∀ kept, step.context? = some kept → watched ≠ some kept) :
    AlikeFor watched (session.step fuel step).session other := by
  cases step with
  | begin context =>
    exact alike.replace_of_other (h context rfl) (Formula.composed_begin _ fuel).oblivious
  | beginFor context text =>
    exact alike.replace_of_other (h context rfl) (Formula.composed_beginFor _ fuel text).oblivious
  | ask context request =>
    exact alike.within_of_other fuel (h context rfl) (Formula.oblivious_reply _ fuel request)
  | evaluate script members =>
    exact alike.apart_of_other (Formula.oblivious_evaluation _ fuel script members)

/-! ## Steps in order -/

theorem transcript_cons (session : Session) (fuel : Nat) (step : Step) (steps : List Step) :
    session.transcript fuel (step :: steps) =
      (step, ⟨(session.step fuel step).answer, (session.step fuel step).log⟩) ::
        (session.step fuel step).session.transcript fuel steps := rfl

/-- What a context answers among other steps is what it answers to its own. -/
theorem AlikeFor.transcript (alike : AlikeFor (some name) session other) (fuel : Nat)
    (steps : List Step) :
    (session.transcript fuel steps).filter (fun entry => entry.1.context? = some name) =
      other.transcript fuel (steps.filter fun step => step.context? = some name) := by
  induction steps generalizing session other with
  | nil => rfl
  | cons step steps ih =>
    rw [transcript_cons]
    by_cases h : step.context? = some name
    · obtain ⟨hanswer, hlog, hsession⟩ := alike.step fuel h
      rw [List.filter_cons_of_pos (by simpa using h), List.filter_cons_of_pos (by simpa using h),
        ih hsession, transcript_cons, hanswer, hlog]
    · have hother : ∀ kept, step.context? = some kept → some name ≠ some kept :=
        fun kept hkept heq => h (hkept.trans heq.symm)
      have hsession := alike.step_of_other fuel hother
      rw [List.filter_cons_of_neg (by simpa using h), List.filter_cons_of_neg (by simpa using h)]
      exact ih hsession

/-- What an evaluation among other steps answers is what it answers alone. -/
theorem AlikeFor.transcript_evaluate (alike : AlikeFor none session other) {fuel : Nat}
    {steps : List Step} {script : String} {members : List (String × Json)} {outcome : Outcome}
    (mem : (.evaluate script members, outcome) ∈ session.transcript fuel steps) :
    other.transcript fuel [.evaluate script members] = [(.evaluate script members, outcome)] := by
  induction steps generalizing session with
  | nil => cases mem
  | cons step steps ih =>
    rcases List.mem_cons.mp mem with heq | hrest
    · obtain ⟨rfl, rfl⟩ := Prod.mk.inj heq
      obtain ⟨hanswer, hlog, -⟩ := alike.step_evaluate fuel script members
      rw [transcript_cons, hanswer, hlog]
      rfl
    · exact ih (alike.step_of_other fuel fun kept _ heq => nomatch heq) hrest

/-- **Contexts of one engine do not see one another.** What a context answers, and what it writes,
is what it answers and writes when its own steps are done alone in a new session of the engine; and
so it is with every evaluation. -/
theorem transcript_apart (formula : Formula) (fuel : Nat) (steps : List Step) :
    (∀ name, ((ofFormula formula).transcript fuel steps).filter
        (fun entry => entry.1.context? = some name) =
      (ofFormula formula).transcript fuel (steps.filter fun step => step.context? = some name)) ∧
    (∀ script members outcome,
      (.evaluate script members, outcome) ∈ (ofFormula formula).transcript fuel steps →
      (ofFormula formula).transcript fuel [.evaluate script members] =
        [(.evaluate script members, outcome)]) := by
  refine ⟨fun name => ?_, fun script members outcome mem => ?_⟩
  · exact (alikeFor_ofFormula formula (some name)).transcript fuel steps
  · exact (alikeFor_ofFormula formula none).transcript_evaluate mem

end Session

end Formulary
