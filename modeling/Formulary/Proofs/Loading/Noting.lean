import Formulary.Formula
import Formulary.Proofs.Context.Outcome
import Formulary.Proofs.Loading.Effect

/-!
# Loading with notes

* `Noting` : work that notes the effects of loading on the machine;
* `Formula.noteWithin`, `Formula.noteInject`, `Formula.notePrepare` : loading as it is, with notes;
* `Noting.Erases`, `Formula.noteWithin_erases` : without its notes it is the loading itself;
* `Noting.Follows`, `Formula.noteWithin_follows` : states and notes change as `Loads` says.
-/

namespace Formulary

/-! ## Work with notes -/

/-- A context with the notes made so far. -/
structure Noted where
  context : Context
  notes : List Note

/-- Notes the state of a function. -/
def Noted.mark (noted : Noted) (name : String) (state : LoadState) : Noted :=
  { noted with
    context := { noted.context with ledger := noted.context.ledger.mark name state } }

/-- Work that notes the effects of loading on the machine. -/
abbrev Noting := EStateM Failure Noted

namespace Noting

variable {α : Type}

/-- Work that notes nothing. -/
def ofWork (work : Work α) : Noting α := fun noted =>
  match work noted.context with
  | .ok a context => .ok a { noted with context := context }
  | .error e context => .error e { noted with context := context }

/-- Makes a note. -/
def note (note : Note) : Noting Unit :=
  modify fun noted => { noted with notes := noted.notes ++ [note] }

/-- Does something to the machine for a function, with the notes that it begins and that it has
happened. -/
def effect (name : String) (chain : List String) (work : Work Unit) : Noting Unit := do
  note (.begun name chain (← get).context.ledger)
  ofWork work
  note (.ended name)

/-- The notes that are made from a context on. -/
def notesFrom (noting : Noting α) (context : Context) : List Note :=
  match noting ⟨context, []⟩ with
  | .ok _ noted => noted.notes
  | .error _ noted => noted.notes

end Noting

namespace Formula

/-- Loads a built-in function. -/
def noteBuiltin (chain : List String) (name : String) (builtin : Builtin) : Noting Unit := do
  Noting.ofWork (Work.mark name .loading)
  Noting.effect name chain (Work.install name builtin)
  Noting.ofWork (Work.mark name .loaded)

/-- Loads a custom function after the functions that its text refers to, itself excepted. -/
def noteBody (run : String → Work Value) (inject : String → Noting Unit) (chain : List String)
    (name body : String) : Noting Unit := do
  Noting.ofWork (Work.mark name .loading)
  ((references body).filter (· != name)).forM inject
  Noting.ofWork (Work.mark name .loaded)
  Noting.effect name chain do
    let _ ← run body
    return ()

/-- Loads a function inside the loading of `chain`, unless it is loaded or being loaded. -/
def noteWithin (formula : Formula) (fuel : Nat) : Nat → List String → String → Noting Unit
  | 0, _, _ => Noting.ofWork (throw .outOfFuel)
  | depth + 1, chain, name => do
    match (← get).context.ledger.state name with
    | .loaded => return ()
    | .loading => return ()
    | .notLoaded =>
      match formula.registry.builtin? name, formula.registry.body? name with
      | some builtin, _ => noteBuiltin chain name builtin
      | none, some body =>
        noteBody (Work.run (formula.limits fuel)) (noteWithin formula fuel depth (name :: chain))
          chain name body
      | none, none => Noting.ofWork (missing formula.config.unresolved name)

/-- Loads a function with all that it refers to. -/
def noteInject (formula : Formula) (fuel : Nat) (name : String) : Noting Unit :=
  formula.noteWithin fuel (formula.registry.customNames.length + 1) [] name

/-- Loads all functions that a text refers to. -/
def notePrepare (formula : Formula) (fuel : Nat) (text : String) : Noting Unit :=
  (references text).forM (formula.noteInject fuel)

end Formula

/-! ## Without the notes -/

namespace Noting

variable {α β : Type}

/-- A result without its notes. -/
def forget : EStateM.Result Failure Noted α → EStateM.Result Failure Context α
  | .ok a noted => .ok a noted.context
  | .error e noted => .error e noted.context

/-- Whether work with notes is the given work when the notes are left out. -/
def Erases (noting : Noting α) (work : Work α) : Prop :=
  ∀ noted, forget (noting noted) = work noted.context

theorem erases_pure (a : α) : Erases (pure a) (pure a) := fun _ => rfl

theorem erases_ofWork (work : Work α) : Erases (ofWork work) work := by
  intro noted
  unfold ofWork
  cases work noted.context <;> rfl

theorem Erases.bind {noting : Noting α} {work : Work α} {next : α → Noting β} {next' : α → Work β}
    (first : noting.Erases work) (second : ∀ a, (next a).Erases (next' a)) :
    (noting >>= next).Erases (work >>= next') := by
  intro noted
  have hfirst := first noted
  show forget (EStateM.bind noting next noted) = EStateM.bind work next' noted.context
  unfold EStateM.bind
  rw [← hfirst]
  cases hnoting : noting noted with
  | ok a later => exact second a later
  | error e later => rfl

theorem effect_eq (name : String) (chain : List String) (work : Work Unit) (noted : Noted) :
    effect name chain work noted =
      match work noted.context with
      | .ok _ context => .ok () ⟨context,
          noted.notes ++ [.begun name chain noted.context.ledger] ++ [.ended name]⟩
      | .error e context => .error e ⟨context,
          noted.notes ++ [.begun name chain noted.context.ledger]⟩ := by
  show EStateM.bind (ofWork work) (fun _ => note (.ended name))
    { noted with notes := noted.notes ++ [.begun name chain noted.context.ledger] } = _
  unfold EStateM.bind ofWork
  cases work noted.context <;> rfl

theorem erases_effect (name : String) (chain : List String) (work : Work Unit) :
    Erases (effect name chain work) work := by
  intro noted
  rw [effect_eq]
  cases work noted.context <;> rfl

theorem erases_forM {names : List String} {inject : String → Noting Unit}
    {inject' : String → Work Unit} (h : ∀ name, (inject name).Erases (inject' name)) :
    Erases (names.forM inject) (names.forM inject') := by
  induction names with
  | nil => exact erases_pure ()
  | cons name names ih => exact (h name).bind fun _ => ih

end Noting

namespace Formula

/-- **Without its notes, loading with notes is the loading itself.** -/
theorem noteWithin_erases (formula : Formula) (fuel depth : Nat) (chain : List String)
    (name : String) :
    (formula.noteWithin fuel depth chain name).Erases (formula.injectWithin fuel depth name) := by
  induction depth generalizing chain name with
  | zero => exact Noting.erases_ofWork _
  | succ depth ih =>
    intro noted
    unfold noteWithin injectWithin
    rw [Work.get_bind, Work.get_bind]
    cases noted.context.ledger.state name with
    | loaded => rfl
    | loading => rfl
    | notLoaded =>
      cases formula.registry.builtin? name with
      | some builtin =>
        exact (Noting.erases_ofWork _).bind (fun _ => (Noting.erases_effect _ _ _).bind fun _ =>
          Noting.erases_ofWork _) noted
      | none =>
        cases formula.registry.body? name with
        | some body =>
          exact (Noting.erases_ofWork _).bind (fun _ => (Noting.erases_forM (ih _)).bind fun _ =>
            (Noting.erases_ofWork _).bind fun _ => Noting.erases_effect _ _ _) noted
        | none => exact Noting.erases_ofWork _ noted

theorem noteInject_erases (formula : Formula) (fuel : Nat) (name : String) :
    (formula.noteInject fuel name).Erases (formula.inject fuel name) :=
  formula.noteWithin_erases fuel _ [] name

theorem notePrepare_erases (formula : Formula) (fuel : Nat) (text : String) :
    (formula.notePrepare fuel text).Erases (formula.prepare fuel text) :=
  Noting.erases_forM (formula.noteInject_erases fuel)

end Formula

/-! ## States and notes -/

namespace Noting

/-- Whether notes and states after work are as a relation says, given what has been noted before
it. -/
def Follows (noted : Noted) (loads : List Note → Bool → Ledger → Prop) :
    EStateM.Result Failure Noted Unit → Prop
  | .ok _ after => ∃ notes, after.notes = noted.notes ++ notes ∧
      loads notes true after.context.ledger
  | .error _ after => ∃ notes, after.notes = noted.notes ++ notes ∧
      loads notes false after.context.ledger

/-- Work for a function that leaves states alone makes a note before it, and another one after it
unless it fails. -/
theorem follows_effect (noted middle : Noted) (loads : List Note → Bool → Ledger → Prop)
    (name : String) (chain : List String) {work : Work Unit} {notes : List Note}
    (keeps : work.KeepsLedger) (hnotes : middle.notes = noted.notes ++ notes)
    (hok : loads (notes ++ [.begun name chain middle.context.ledger, .ended name]) true
      middle.context.ledger)
    (hfail : loads (notes ++ [.begun name chain middle.context.ledger]) false
      middle.context.ledger) :
    Follows noted loads (effect name chain work middle) := by
  have hkeeps := keeps middle.context
  unfold Work.after at hkeeps
  rw [effect_eq]
  cases hwork : work middle.context with
  | ok u context =>
    rw [hwork] at hkeeps
    refine ⟨notes ++ [.begun name chain middle.context.ledger, .ended name], by simp [hnotes], ?_⟩
    exact (show context.ledger = middle.context.ledger from hkeeps) ▸ hok
  | error e context =>
    rw [hwork] at hkeeps
    refine ⟨notes ++ [.begun name chain middle.context.ledger], by simp [hnotes], ?_⟩
    exact (show context.ledger = middle.context.ledger from hkeeps) ▸ hfail

variable {registry : Registry} {policy : UnresolvedPolicy} {chain : List String}

/-- What holds of the loading of each name holds of the loading of all names in order. -/
theorem follows_forM (names : List String) {inject : String → Noting Unit}
    (h : ∀ name noted, Follows noted
      (Loads registry policy chain [name] noted.context.ledger) (inject name noted))
    (noted : Noted) :
    Follows noted (Loads registry policy chain names noted.context.ledger)
      (names.forM inject noted) := by
  induction names generalizing noted with
  | nil => exact ⟨[], (List.append_nil _).symm, .done chain _⟩
  | cons name names ih =>
    have hfirst := h name noted
    show Follows noted _ (EStateM.bind (inject name) (fun _ => names.forM inject) noted)
    unfold EStateM.bind
    cases hinject : inject name noted with
    | error e later =>
      rw [hinject] at hfirst
      obtain ⟨notes, hnotes, hloads⟩ := hfirst
      exact ⟨notes, hnotes, hloads.append_of_fails⟩
    | ok u later =>
      rw [hinject] at hfirst
      obtain ⟨notes, hnotes, hloads⟩ := hfirst
      have hrest := ih later
      dsimp only
      cases hnames : names.forM inject later with
      | ok _ after =>
        rw [hnames] at hrest
        obtain ⟨notes', hnotes', hloads'⟩ := hrest
        exact ⟨notes ++ notes', by rw [hnotes', hnotes, List.append_assoc], hloads.append hloads'⟩
      | error _ after =>
        rw [hnames] at hrest
        obtain ⟨notes', hnotes', hloads'⟩ := hrest
        exact ⟨notes ++ notes', by rw [hnotes', hnotes, List.append_assoc], hloads.append hloads'⟩

end Noting

namespace Formula

variable {formula : Formula} {chain : List String} {name : String} {noted : Noted}

/-- The loading of names by a formula engine. -/
abbrev Loads (formula : Formula) :=
  Formulary.Loads formula.registry formula.config.unresolved

theorem noteBuiltin_follows {builtin : Builtin} (new : noted.context.ledger.state name = .notLoaded)
    (hbuiltin : formula.registry.builtin? name = some builtin) :
    Noting.Follows noted (formula.Loads chain [name] noted.context.ledger)
      (noteBuiltin chain name builtin noted) := by
  have hserved : formula.registry.requires? name = some [] := by rw [Registry.requires?, hbuiltin]
  have hat := Registry.atEffect_of_builtin hbuiltin (noted.mark name .loading).context.ledger
  have hinside : formula.Loads (name :: chain) [] (noted.mark name .loading).context.ledger []
      true (noted.mark name .loading).context.ledger := .done _ _
  have hload : formula.Loads chain [name] noted.context.ledger _ true _ :=
    .load new hserved hinside (.done chain _)
  have hfail : formula.Loads chain [name] noted.context.ledger _ false _ :=
    .fail new hserved hinside
  rw [hat] at hload hfail
  -- the state that is noted behind the installation counts as a part of it, unless it fails
  have heffect := Noting.follows_effect noted (noted.mark name .loading)
    (fun notes ok ledger => formula.Loads chain [name] noted.context.ledger notes ok
      (if ok then ledger.mark name .loaded else ledger))
    name chain (Work.keepsLedger_install name builtin) (List.append_nil _).symm hload hfail
  show Noting.Follows noted _ (EStateM.bind (Noting.effect name chain (Work.install name builtin))
    (fun _ => Noting.ofWork (Work.mark name .loaded)) (noted.mark name .loading))
  unfold EStateM.bind
  cases hinstall : Noting.effect name chain (Work.install name builtin)
      (noted.mark name .loading) with
  | ok u after =>
    rw [hinstall] at heffect
    exact heffect
  | error e after =>
    rw [hinstall] at heffect
    exact heffect

theorem noteBody_follows {run : String → Work Value} {inject : String → Noting Unit}
    {body : String} (new : noted.context.ledger.state name = .notLoaded)
    (hbuiltin : formula.registry.builtin? name = none)
    (hbody : formula.registry.body? name = some body) (keeps : (run body).KeepsLedger)
    (follows : ∀ other noted, Noting.Follows noted
      (formula.Loads (name :: chain) [other] noted.context.ledger) (inject other noted)) :
    Noting.Follows noted (formula.Loads chain [name] noted.context.ledger)
      (noteBody run inject chain name body noted) := by
  have hserved : formula.registry.requires? name = some ((references body).filter (· != name)) := by
    rw [Registry.requires?, hbuiltin, hbody]
  have hinside := Noting.follows_forM ((references body).filter (· != name)) follows
    (noted.mark name .loading)
  show Noting.Follows noted _ (EStateM.bind (((references body).filter (· != name)).forM inject)
    (fun _ => EStateM.bind (Noting.ofWork (Work.mark name .loaded)) fun _ =>
      Noting.effect name chain (run body >>= fun _ => pure ())) (noted.mark name .loading))
  unfold EStateM.bind
  cases hforM : ((references body).filter (· != name)).forM inject
    (noted.mark name .loading) with
  | error e later =>
    rw [hforM] at hinside
    obtain ⟨notes, hnotes, hloads⟩ := hinside
    exact ⟨notes, hnotes, .failInside new hserved hloads⟩
  | ok u later =>
    rw [hforM] at hinside
    obtain ⟨notes, hnotes, hloads⟩ := hinside
    have hload : formula.Loads chain [name] noted.context.ledger _ true _ :=
      .load new hserved hloads (.done chain _)
    have hfail : formula.Loads chain [name] noted.context.ledger _ false _ :=
      .fail new hserved hloads
    rw [Registry.atEffect_of_none hbuiltin] at hload hfail
    exact Noting.follows_effect noted (later.mark name .loaded)
      (formula.Loads chain [name] noted.context.ledger) name chain
      (keeps.bind fun _ => Work.keepsLedger_pure ()) hnotes hload hfail

theorem missing_follows (hbuiltin : formula.registry.builtin? name = none)
    (hbody : formula.registry.body? name = none) :
    Noting.Follows noted (formula.Loads chain [name] noted.context.ledger)
      (Noting.ofWork (missing formula.config.unresolved name) noted) := by
  have hunserved : formula.registry.requires? name = none := by
    rw [Registry.requires?, hbuiltin, hbody]
  have hpass : formula.config.unresolved ≠ .strict →
      formula.Loads chain [name] noted.context.ledger [] true noted.context.ledger :=
    fun lenient => .pass hunserved lenient (.done chain _)
  cases hpolicy : formula.config.unresolved with
  | ignore => exact ⟨[], (List.append_nil _).symm, hpass (by rw [hpolicy]; decide)⟩
  | warn => exact ⟨[], (List.append_nil _).symm, hpass (by rw [hpolicy]; decide)⟩
  | strict => exact ⟨[], (List.append_nil _).symm, .stop chain [name] _⟩

/-- **The loading of a function changes states and notes as `Loads` says.** -/
theorem noteWithin_follows (formula : Formula) (fuel depth : Nat) (chain : List String)
    (name : String) (noted : Noted) :
    Noting.Follows noted (formula.Loads chain [name] noted.context.ledger)
      (formula.noteWithin fuel depth chain name noted) := by
  induction depth generalizing chain name noted with
  | zero => exact ⟨[], (List.append_nil _).symm, .stop chain [name] _⟩
  | succ depth ih =>
    have hleft : noted.context.ledger.state name ≠ .notLoaded →
        Noting.Follows noted (formula.Loads chain [name] noted.context.ledger) (.ok () noted) :=
      fun old => ⟨[], (List.append_nil _).symm, .skip old (.done chain _)⟩
    unfold noteWithin
    rw [Work.get_bind]
    cases hstate : noted.context.ledger.state name with
    | loaded => exact hleft (by rw [hstate]; decide)
    | loading => exact hleft (by rw [hstate]; decide)
    | notLoaded =>
      cases hbuiltin : formula.registry.builtin? name with
      | some builtin => exact noteBuiltin_follows hstate hbuiltin
      | none =>
        cases hbody : formula.registry.body? name with
        | some body =>
          exact noteBody_follows hstate hbuiltin hbody (Work.keepsLedger_run _ _)
            (ih (name :: chain))
        | none => exact missing_follows hbuiltin hbody

theorem noteInject_follows (formula : Formula) (fuel : Nat) (name : String) (noted : Noted) :
    Noting.Follows noted (formula.Loads [] [name] noted.context.ledger)
      (formula.noteInject fuel name noted) :=
  formula.noteWithin_follows fuel _ [] name noted

theorem notePrepare_follows (formula : Formula) (fuel : Nat) (text : String) (noted : Noted) :
    Noting.Follows noted (formula.Loads [] (references text) noted.context.ledger)
      (formula.notePrepare fuel text noted) :=
  Noting.follows_forM (references text) (formula.noteInject_follows fuel) noted

/-- What follows for loading with notes follows for the loading itself. -/
theorem loads_of_follows {noting : Noting Unit} {work : Work Unit} {names : List String}
    (erases : noting.Erases work)
    (follows : ∀ noted, Noting.Follows noted (formula.Loads [] names noted.context.ledger)
      (noting noted)) (context : Context) :
    formula.Loads [] names context.ledger (noting.notesFrom context) (work.succeeds context)
      (work.after context).ledger := by
  have herases := erases ⟨context, []⟩
  have hfollows := follows ⟨context, []⟩
  unfold Noting.notesFrom Work.succeeds Work.after
  cases hnoting : noting ⟨context, []⟩ with
  | ok u noted =>
    rw [hnoting] at herases hfollows
    obtain ⟨notes, hnotes, hloads⟩ := hfollows
    rw [List.nil_append] at hnotes
    subst hnotes
    rw [← show Noting.forget (.ok u noted) = work context from herases]
    exact hloads
  | error e noted =>
    rw [hnoting] at herases hfollows
    obtain ⟨notes, hnotes, hloads⟩ := hfollows
    rw [List.nil_append] at hnotes
    subst hnotes
    rw [← show Noting.forget (.error e noted) = work context from herases]
    exact hloads

end Formula

end Formulary
