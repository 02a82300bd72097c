import Formulary.Proofs.Context.Composed
import Formulary.Proofs.Context.Outcome
import Formulary.Proofs.Source.Cache

/-!
# Work that does the same whatever programs are kept

* `Context.Alike` : contexts that differ only in the programs kept;
* `Work.Oblivious` : work that comes to the same in contexts alike;
* `Work.Composed.oblivious` : all that an engine does in a context is of this kind;
* `Work.Oblivious.perform` : its answer, its messages and the context after it.
-/

namespace Formulary

/-- Contexts that differ only in the programs kept, all of which are those of their texts. -/
structure Context.Alike (context other : Context) : Prop where
  machine : context.machine = other.machine
  ledger : context.ledger = other.ledger
  sound : context.programs.Sound
  sound_other : other.programs.Sound

theorem Context.alike_fresh {programs programs' : ProgramCache} (sound : programs.Sound)
    (sound' : programs'.Sound) : (fresh programs).Alike (fresh programs') :=
  ⟨rfl, rfl, sound, sound'⟩

theorem Context.Alike.log {context other : Context} (alike : context.Alike other) :
    context.machine.log.toList = other.machine.log.toList := by
  rw [alike.machine]

theorem Context.Alike.silenced {context other : Context} (alike : context.Alike other) :
    context.silenced.Alike other.silenced :=
  ⟨by rw [Context.silenced, Context.silenced, alike.machine], alike.ledger, alike.sound,
    alike.sound_other⟩

namespace Work

variable {α β : Type}

/-- Work that has come to the same in two contexts, and leaves contexts alike. -/
inductive Agree : EStateM.Result Failure Context α → EStateM.Result Failure Context α → Prop where
  | ok {a : α} {context other : Context} (alike : context.Alike other) :
      Agree (.ok a context) (.ok a other)
  | error {e : Failure} {context other : Context} (alike : context.Alike other) :
      Agree (.error e context) (.error e other)

/-- Whether work comes to the same in contexts alike. -/
def Oblivious (work : Work α) : Prop :=
  ∀ context other, context.Alike other → Agree (work context) (work other)

theorem oblivious_pure (a : α) : Oblivious (pure a) :=
  fun _ _ alike => .ok alike

theorem oblivious_throw (e : Failure) : Oblivious (throw e : Work α) :=
  fun _ _ alike => .error alike

theorem Oblivious.bind {work : Work α} {next : α → Work β} (first : work.Oblivious)
    (second : ∀ a, (next a).Oblivious) : (work >>= next).Oblivious := by
  intro context other alike
  have hfirst := first context other alike
  show Agree (EStateM.bind work next context) (EStateM.bind work next other)
  unfold EStateM.bind
  generalize work context = result at *
  generalize work other = result' at *
  cases hfirst with
  | ok halike => exact second _ _ _ halike
  | error halike => exact .error halike

theorem oblivious_ofRun (run : Run α) : Oblivious (ofRun run) := by
  rintro ⟨machine, ledger, programs⟩ ⟨_, _, programs'⟩ ⟨rfl, rfl, sound, sound'⟩
  unfold ofRun
  dsimp only
  cases run machine with
  | ok a machine => exact .ok ⟨rfl, rfl, sound, sound'⟩
  | error halt machine => exact .error ⟨rfl, rfl, sound, sound'⟩

/-- **A text is parsed to the same program whatever is kept.** -/
theorem oblivious_parse (text : String) : Oblivious (parse text) := by
  intro context other alike
  have hparse := ProgramCache.getOrParse_eq alike.sound text
  have hother := ProgramCache.getOrParse_eq alike.sound_other text
  have hsound := alike.sound.getOrParse text
  have hsound' := alike.sound_other.getOrParse text
  rw [parse_eq, parse_eq, hparse, hother]
  cases Program.parse text with
  | ok program => exact .ok ⟨alike.machine, alike.ledger, hsound, hsound'⟩
  | error e => exact .error ⟨alike.machine, alike.ledger, hsound, hsound'⟩

/-- **What is put together from elementary steps does the same whatever programs are kept.** -/
theorem Composed.oblivious {work : Work α} (composed : work.Composed) : work.Oblivious := by
  induction composed with
  | pure a => exact oblivious_pure a
  | throw e => exact oblivious_throw e
  | bind first second ihFirst ihSecond => exact ihFirst.bind ihSecond
  | ofRun composed => exact oblivious_ofRun _
  | parse text => exact oblivious_parse text
  | store =>
    intro context other alike
    show Agree (.ok context.machine.store context) (.ok other.machine.store other)
    rw [alike.machine]
    exact .ok alike
  | inLedger same inner ih =>
    intro context other alike
    rw [get_bind, get_bind, same _ _ alike.ledger]
    exact ih other context other alike
  | mark name state =>
    exact fun _ _ alike => .ok ⟨alike.machine,
      congrArg (fun ledger => ledger.mark name state) alike.ledger, alike.sound, alike.sound_other⟩
  | renew =>
    intro context other alike
    have hlog : context.machine.log = other.machine.log := by rw [alike.machine]
    refine .ok ?_
    constructor <;> dsimp only [Context.fresh]
    · rw [hlog]
    · exact alike.sound
    · exact alike.sound_other

end Work

/-! ## Work by itself -/

/-- **Oblivious work has the same answer and the same messages in contexts alike,** and leaves
contexts alike. -/
theorem Work.Oblivious.perform {α : Type} {work : Work α} (h : work.Oblivious)
    {context other : Context} (alike : context.Alike other) :
    (work.perform context).answer = (work.perform other).answer ∧
      (work.perform context).log = (work.perform other).log ∧
      (work.perform context).context.Alike (work.perform other).context := by
  have hagree := h _ _ alike.silenced
  unfold Work.perform
  generalize work context.silenced = result at *
  generalize work other.silenced = result' at *
  cases hagree with
  | ok halike => exact ⟨rfl, halike.log, halike.silenced⟩
  | error halike => exact ⟨rfl, halike.log, halike.silenced⟩

end Formulary
