import Formulary.Proofs.Context.Composed
import Formulary.Proofs.Context.Outcome
import Formulary.Proofs.Source.Cache

/-!
# Work does not depend on earlier messages

* `Context.Akin` : contexts that differ only in the messages written and in the programs kept, all
  of which are those of their texts;
* `Work.Unheard` : work that comes to the same in such contexts;
* `Work.Composed.unheard` : all that an engine does in a context is of this kind;
* `Formula.concur_begin`, `Formula.concur_runEntry` : what begins a context comes to the same in any
  two contexts;
* `Work.answer_perform`, `Work.Concur.answer` : the answer of such work by itself.
-/

namespace Formulary

/-- Contexts that differ only in the messages written and in the programs kept, all of which are
those of their texts. -/
structure Context.Akin (context other : Context) : Prop where
  machine : context.machine.Akin other.machine
  ledger : context.ledger = other.ledger
  sound : context.programs.Sound
  sound_other : other.programs.Sound

theorem Context.akin_fresh {programs programs' : ProgramCache} (sound : programs.Sound)
    (sound' : programs'.Sound) : (fresh programs).Akin (fresh programs') :=
  ⟨⟨rfl, rfl, rfl⟩, rfl, sound, sound'⟩

theorem Context.Akin.silenced {context other : Context} (akin : context.Akin other) :
    context.silenced.Akin other.silenced :=
  ⟨⟨akin.machine.store, akin.machine.calls, akin.machine.nesting⟩, akin.ledger, akin.sound,
    akin.sound_other⟩

namespace Work

variable {α β : Type}

/-- Work that has come to the same in two contexts, and leaves contexts akin. -/
inductive Concur : EStateM.Result Failure Context α → EStateM.Result Failure Context α → Prop where
  | ok {a : α} {context other : Context} (akin : context.Akin other) :
      Concur (.ok a context) (.ok a other)
  | error {e : Failure} {context other : Context} (akin : context.Akin other) :
      Concur (.error e context) (.error e other)

/-- Whether work comes to the same in contexts akin. -/
def Unheard (work : Work α) : Prop :=
  ∀ context other, context.Akin other → Concur (work context) (work other)

theorem unheard_pure (a : α) : Unheard (pure a) :=
  fun _ _ akin => .ok akin

theorem unheard_throw (e : Failure) : Unheard (throw e : Work α) :=
  fun _ _ akin => .error akin

theorem Concur.bind {work : Work α} {next : α → Work β} {context other : Context}
    (first : Concur (work context) (work other)) (second : ∀ a, (next a).Unheard) :
    Concur ((work >>= next) context) ((work >>= next) other) := by
  show Concur (EStateM.bind work next context) (EStateM.bind work next other)
  unfold EStateM.bind
  generalize work context = result at *
  generalize work other = result' at *
  cases first with
  | ok akin => exact second _ _ _ akin
  | error akin => exact .error akin

theorem Unheard.bind {work : Work α} {next : α → Work β} (first : work.Unheard)
    (second : ∀ a, (next a).Unheard) : (work >>= next).Unheard :=
  fun context other akin => (first context other akin).bind second

/-- Such work keeps programs for their texts only. -/
theorem Unheard.sound {work : Work α} (h : work.Unheard) {context later : Context} {a : α}
    (sound : context.programs.Sound) (answer : work context = .ok a later) :
    later.programs.Sound := by
  have hconcur := h context context ⟨⟨rfl, rfl, rfl⟩, rfl, sound, sound⟩
  rw [answer] at hconcur
  cases hconcur with
  | ok akin => exact akin.sound

theorem unheard_ofRun {run : Run α} (composed : run.Composed) : Unheard (ofRun run) := by
  rintro ⟨machine, ledger, programs⟩ ⟨machine', _, programs'⟩ ⟨akin, rfl, sound, sound'⟩
  have hagree := composed.agree akin
  unfold ofRun
  dsimp only at hagree ⊢
  generalize run machine = result at *
  generalize run machine' = result' at *
  cases hagree with
  | ok hakin => exact .ok ⟨hakin, rfl, sound, sound'⟩
  | error hakin => exact .error ⟨hakin, rfl, sound, sound'⟩

theorem unheard_parse (text : String) : Unheard (parse text) := by
  intro context other akin
  have hparse := ProgramCache.getOrParse_eq akin.sound text
  have hother := ProgramCache.getOrParse_eq akin.sound_other text
  have hsound := akin.sound.getOrParse text
  have hsound' := akin.sound_other.getOrParse text
  rw [parse_eq, parse_eq, hparse, hother]
  cases Program.parse text with
  | ok program => exact .ok ⟨akin.machine, akin.ledger, hsound, hsound'⟩
  | error e => exact .error ⟨akin.machine, akin.ledger, hsound, hsound'⟩

/-- Contexts that are left for new ones become akin whatever they were. -/
theorem concur_renew {context other : Context} (sound : context.programs.Sound)
    (sound' : other.programs.Sound) :
    Concur (renew context) (renew other) := by
  refine .ok ?_
  constructor <;> dsimp only [Context.fresh]
  · exact ⟨rfl, rfl, rfl⟩
  · exact sound
  · exact sound'

/-- **What is put together from elementary steps does not depend on earlier messages.** -/
theorem Composed.unheard {work : Work α} (composed : work.Composed) : work.Unheard := by
  induction composed with
  | pure a => exact unheard_pure a
  | throw e => exact unheard_throw e
  | bind first second ihFirst ihSecond => exact ihFirst.bind ihSecond
  | ofRun composed => exact unheard_ofRun composed
  | parse text => exact unheard_parse text
  | store =>
    intro context other akin
    show Concur (.ok context.machine.store context) (.ok other.machine.store other)
    rw [akin.machine.store]
    exact .ok akin
  | inLedger same inner ih =>
    intro context other akin
    rw [get_bind, get_bind, same _ _ akin.ledger]
    exact ih other context other akin
  | mark name state =>
    exact fun _ _ akin => .ok
      ⟨⟨akin.machine.store, akin.machine.calls, akin.machine.nesting⟩,
        congrArg (fun ledger => ledger.mark name state) akin.ledger, akin.sound, akin.sound_other⟩
  | renew => exact fun _ _ akin => concur_renew akin.sound akin.sound_other

theorem unheard_toJson (value : Value) : Unheard (toJson value) :=
  (composed_toJson value).unheard

/-! ### Answers -/

/-- What work has come to, without the context after it. -/
def answerOf : EStateM.Result Failure Context α → Except Failure α
  | .ok a _ => .ok a
  | .error e _ => .error e

theorem answerOf_eq_ok {result : EStateM.Result Failure Context α} {a : α} :
    answerOf result = .ok a ↔ ∃ context, result = .ok a context := by
  cases result with
  | ok b context => simp [answerOf]
  | error e context => simp [answerOf]

theorem answer_perform (work : Work α) (context : Context) :
    (work.perform context).answer = answerOf (work context.silenced) := by
  unfold perform
  cases work context.silenced <;> rfl

theorem Concur.answer {result other : EStateM.Result Failure Context α}
    (concur : Concur result other) : answerOf result = answerOf other := by
  cases concur <;> rfl

/-- Contexts stay akin in such work by itself. -/
theorem Unheard.perform {work : Work α} (h : work.Unheard) {context other : Context}
    (akin : context.Akin other) :
    (work.perform context).context.Akin (work.perform other).context := by
  have hconcur := h _ _ akin.silenced
  unfold Work.perform
  generalize work context.silenced = result at *
  generalize work other.silenced = result' at *
  cases hconcur with
  | ok hakin => exact hakin.silenced
  | error hakin => exact hakin.silenced

end Work

/-! ## What an engine does in a context -/

namespace Formula

variable (formula : Formula) (fuel : Nat)

/-- **A new context is the same whatever context it is begun in.** -/
theorem concur_begin {context other : Context} (sound : context.programs.Sound)
    (sound' : other.programs.Sound) :
    Work.Concur (formula.begin fuel context) (formula.begin fuel other) := by
  refine (Work.concur_renew sound sound').bind fun _ => Work.Composed.unheard ?_
  exact formula.composed_start fuel

/-- **What a formula comes to does not depend on the context that it is run behind.** -/
theorem concur_runEntry (trigger : Trigger) (input : Members) (entry : FormulaEntry)
    {context other : Context} (sound : context.programs.Sound) (sound' : other.programs.Sound) :
    Work.Concur (formula.runEntry fuel trigger input entry context)
      (formula.runEntry fuel trigger input entry other) := by
  have hbegin : Work.Concur (formula.beginFor fuel entry.body context)
      (formula.beginFor fuel entry.body other) :=
    (formula.concur_begin fuel sound sound').bind fun _ =>
      (formula.composed_prepare fuel entry.body).unheard
  exact hbegin.bind fun _ => (formula.composed_behind_beginFor fuel trigger input entry).unheard

theorem unheard_evaluate (script : String) (members : List (String × Json)) :
    (formula.evaluate fuel script members).Unheard :=
  (formula.composed_evaluate fuel script members).unheard

end Formula

end Formulary
