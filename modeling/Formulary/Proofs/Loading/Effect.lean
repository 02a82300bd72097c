import Formulary.Config
import Formulary.Proofs.Loading.Graph
import Mathlib.Data.List.Nodup

/-!
# What loading does to states, and what it does to the machine

* `Note`, `begunNames`, `endedNames` : a record of the effects on the machine;
* `Loads` : the loading of names in order, with its notes and with the states before and after it;
* `Loads.kept` : a state that has been noted stays as it is, also where loading fails;
* `Loads.of_mem_begunNames`, `Loads.loaded_of_mem_endedNames` : the states of noted functions;
* `Loads.nodup_begunNames` : no function is begun twice.
-/

namespace Formulary

/-- An effect of loading on the machine: a built-in function is installed, or the text of a custom
one is run. -/
inductive Note where
  /-- The effect of a function is about to happen, while those of `chain` are being loaded, the
  innermost first, and the states are those of `ledger`. -/
  | begun (name : String) (chain : List String) (ledger : Ledger)
  /-- The effect of a function has happened without a failure. -/
  | ended (name : String)

namespace Note

/-- The function whose effect is about to happen. -/
def begun? : Note → Option String
  | begun name _ _ => some name
  | ended _ => none

/-- The function whose effect has happened without a failure. -/
def ended? : Note → Option String
  | begun _ _ _ => none
  | ended name => some name

end Note

/-- The functions whose effects have begun, in order. -/
def begunNames (notes : List Note) : List String :=
  notes.filterMap Note.begun?

/-- The functions whose effects have happened without a failure, in order. -/
def endedNames (notes : List Note) : List String :=
  notes.filterMap Note.ended?

section Names
variable (notes notes' : List Note) (name : String) (chain : List String) (ledger : Ledger)

@[simp] theorem begunNames_nil : begunNames [] = [] := rfl

@[simp] theorem endedNames_nil : endedNames [] = [] := rfl

@[simp] theorem begunNames_append :
    begunNames (notes ++ notes') = begunNames notes ++ begunNames notes' :=
  List.filterMap_append

@[simp] theorem endedNames_append :
    endedNames (notes ++ notes') = endedNames notes ++ endedNames notes' :=
  List.filterMap_append

@[simp] theorem begunNames_begun :
    begunNames (.begun name chain ledger :: notes) = name :: begunNames notes := rfl

@[simp] theorem begunNames_ended : begunNames (.ended name :: notes) = begunNames notes := rfl

@[simp] theorem endedNames_begun :
    endedNames (.begun name chain ledger :: notes) = endedNames notes := rfl

@[simp] theorem endedNames_ended :
    endedNames (.ended name :: notes) = name :: endedNames notes := rfl

end Names

/-! ## States -/

namespace Ledger
variable (ledger : Ledger) {name other : String} (state : LoadState)

@[simp] theorem state_mark_self : (ledger.mark name state).state name = state := by
  rw [state_mark, if_pos rfl]

theorem state_mark_of_ne (h : other ≠ name) :
    (ledger.mark name state).state other = ledger.state other := by
  rw [state_mark, if_neg h]

/-- A name that is new after a mark has been new before it, and is another one. -/
theorem new_of_mark {ledger : Ledger} {state : LoadState} (hstate : state ≠ .notLoaded)
    (h : (ledger.mark name state).state other = .notLoaded) :
    other ≠ name ∧ ledger.state other = .notLoaded := by
  rw [state_mark] at h
  split at h
  · exact absurd h hstate
  · next hne => exact ⟨hne, h⟩

end Ledger

/-- The states at the effect of a function: a built-in one is still being loaded when it is
installed, a custom one is noted as loaded before its text is run. -/
def Registry.atEffect (registry : Registry) (name : String) (ledger : Ledger) : Ledger :=
  if (registry.builtin? name).isSome then ledger else ledger.mark name .loaded

theorem Registry.atEffect_of_builtin {registry : Registry} {name : String} {builtin : Builtin}
    (h : registry.builtin? name = some builtin) (ledger : Ledger) :
    registry.atEffect name ledger = ledger := by
  rw [atEffect, h]
  rfl

theorem Registry.atEffect_of_none {registry : Registry} {name : String}
    (h : registry.builtin? name = none) (ledger : Ledger) :
    registry.atEffect name ledger = ledger.mark name .loaded := by
  rw [atEffect, h]
  rfl

theorem Registry.state_atEffect_of_ne {registry : Registry} {name other : String} {ledger : Ledger}
    (h : other ≠ name) : (registry.atEffect name ledger).state other = ledger.state other := by
  unfold atEffect
  split
  · rfl
  · exact ledger.state_mark_of_ne .loaded h

theorem Registry.atEffect_self_ne {registry : Registry} {name : String} {ledger : Ledger}
    (h : ledger.state name ≠ .notLoaded) :
    (registry.atEffect name ledger).state name ≠ .notLoaded := by
  unfold atEffect
  split
  · exact h
  · simp

/-! ## Loading -/

/-- The loading of names in order inside the loading of `chain`: the states before it, the effects
noted meanwhile, whether it succeeds, and the states after it. -/
inductive Loads (registry : Registry) (policy : UnresolvedPolicy) :
    List String → List String → Ledger → List Note → Bool → Ledger → Prop where
  | done (chain : List String) (ledger : Ledger) :
      Loads registry policy chain [] ledger [] true ledger
  /-- A function that is loaded or being loaded is left alone. -/
  | skip {chain names name ledger notes ok after} (old : ledger.state name ≠ .notLoaded)
      (rest : Loads registry policy chain names ledger notes ok after) :
      Loads registry policy chain (name :: names) ledger notes ok after
  /-- A name that nothing serves is passed over, unless the policy is strict. -/
  | pass {chain names name ledger notes ok after} (unserved : registry.requires? name = none)
      (lenient : policy ≠ .strict)
      (rest : Loads registry policy chain names ledger notes ok after) :
      Loads registry policy chain (name :: names) ledger notes ok after
  /-- A function is loaded after what it requires. -/
  | load {chain names name required ledger middle after inner notes ok}
      (new : ledger.state name = .notLoaded) (served : registry.requires? name = some required)
      (inside : Loads registry policy (name :: chain) required (ledger.mark name .loading) inner
        true middle)
      (rest : Loads registry policy chain names (middle.mark name .loaded) notes ok after) :
      Loads registry policy chain (name :: names) ledger
        (inner ++ .begun name chain (registry.atEffect name middle) :: .ended name :: notes) ok
        after
  /-- The effect of a function fails. -/
  | fail {chain names name required ledger middle inner}
      (new : ledger.state name = .notLoaded) (served : registry.requires? name = some required)
      (inside : Loads registry policy (name :: chain) required (ledger.mark name .loading) inner
        true middle) :
      Loads registry policy chain (name :: names) ledger
        (inner ++ [.begun name chain (registry.atEffect name middle)]) false
        (registry.atEffect name middle)
  /-- Something that a function requires fails to be loaded. -/
  | failInside {chain names name required ledger middle inner}
      (new : ledger.state name = .notLoaded) (served : registry.requires? name = some required)
      (inside : Loads registry policy (name :: chain) required (ledger.mark name .loading) inner
        false middle) :
      Loads registry policy chain (name :: names) ledger inner false middle
  /-- A name cannot be loaded, since nothing serves it or there are no levels left. -/
  | stop (chain names : List String) (ledger : Ledger) :
      Loads registry policy chain names ledger [] false ledger

/-- Whether a name has been dealt with: it is no longer new, or nothing serves it and the policy
allows that. -/
def Registry.Settled (registry : Registry) (policy : UnresolvedPolicy) (ledger : Ledger)
    (name : String) : Prop :=
  ledger.state name ≠ .notLoaded ∨ ¬registry.Serves name ∧ policy ≠ .strict

theorem Registry.Settled.mark {registry : Registry} {policy : UnresolvedPolicy} {ledger : Ledger}
    {name other : String} {state : LoadState} (settled : registry.Settled policy ledger name)
    (hstate : state ≠ .notLoaded) : registry.Settled policy (ledger.mark other state) name := by
  rcases settled with hold | hunserved
  · exact Or.inl fun hn => hold (Ledger.new_of_mark hstate hn).2
  · exact Or.inr hunserved

namespace Loads

variable {registry : Registry} {policy : UnresolvedPolicy} {chain names : List String}
  {ledger after : Ledger} {notes : List Note} {ok : Bool} {name other : String}

/-- **A name that is loaded or being loaded keeps its state,** also where loading fails. -/
theorem kept (h : Loads registry policy chain names ledger notes ok after)
    (old : ledger.state name ≠ .notLoaded) : after.state name = ledger.state name := by
  have of_inside : ∀ {loading : String} {ledger middle : Ledger},
      ledger.state loading = .notLoaded → ledger.state name ≠ .notLoaded →
      ((ledger.mark loading .loading).state name ≠ .notLoaded →
        middle.state name = (ledger.mark loading .loading).state name) →
      name ≠ loading ∧ middle.state name = ledger.state name := by
    intro loading ledger middle new old ih
    have hne : name ≠ loading := fun heq => old (heq ▸ new)
    rw [ledger.state_mark_of_ne .loading hne] at ih
    exact ⟨hne, ih old⟩
  induction h with
  | done => rfl
  | skip _ _ ih => exact ih old
  | pass _ _ _ ih => exact ih old
  | load new _ _ _ ihInside ihRest =>
    obtain ⟨hne, hmiddle⟩ := of_inside new old ihInside
    rw [Ledger.state_mark_of_ne _ _ hne, hmiddle] at ihRest
    exact ihRest old
  | fail new _ _ ihInside =>
    obtain ⟨hne, hmiddle⟩ := of_inside new old ihInside
    rw [Registry.state_atEffect_of_ne hne, hmiddle]
  | failInside new _ _ ihInside => exact (of_inside new old ihInside).2
  | stop => rfl

theorem loaded_kept (h : Loads registry policy chain names ledger notes ok after)
    (loaded : ledger.state name = .loaded) : after.state name = .loaded := by
  rw [h.kept (by rw [loaded]; decide), loaded]

theorem new_before (h : Loads registry policy chain names ledger notes ok after)
    (new : after.state name = .notLoaded) : ledger.state name = .notLoaded := by
  rcases eq_or_ne (ledger.state name) .notLoaded with hnew | hold
  · exact hnew
  · exact (h.kept hold).symm.trans new

theorem settled_kept (h : Loads registry policy chain names ledger notes ok after)
    (settled : registry.Settled policy ledger name) : registry.Settled policy after name := by
  rcases settled with hold | hunserved
  · exact Or.inl fun new => hold (h.new_before new)
  · exact Or.inr hunserved

theorem append {middle : Ledger} {names' : List String} {notes' : List Note}
    (first : Loads registry policy chain names ledger notes true middle)
    (second : Loads registry policy chain names' middle notes' ok after) :
    Loads registry policy chain (names ++ names') ledger (notes ++ notes') ok after := by
  generalize hok : true = first_ok at first
  induction first with
  | done => exact second
  | skip old _ ih => exact .skip old (ih second hok)
  | pass unserved lenient _ ih => exact .pass unserved lenient (ih second hok)
  | load new served inside _ _ ihRest =>
    rw [List.append_assoc]
    exact .load new served inside (ihRest second hok)
  | fail => cases hok
  | failInside => cases hok
  | stop => cases hok

/-- Where loading fails, later names are not looked at. -/
theorem append_of_fails {names' : List String}
    (h : Loads registry policy chain names ledger notes false after) :
    Loads registry policy chain (names ++ names') ledger notes false after := by
  generalize hok : false = ok at h
  induction h with
  | done => cases hok
  | skip old _ ih => exact .skip old (ih hok)
  | pass unserved lenient _ ih => exact .pass unserved lenient (ih hok)
  | load new served inside _ _ ihRest => exact .load new served inside (ihRest hok)
  | fail new served inside => exact .fail new served inside
  | failInside new served inside => exact .failInside new served inside
  | stop chain names ledger => exact .stop chain (names ++ names') ledger

/-! ### Effects -/

/-- A function whose effect is begun has been new before, and is no longer new afterwards. -/
theorem of_mem_begunNames (h : Loads registry policy chain names ledger notes ok after)
    (mem : name ∈ begunNames notes) :
    ledger.state name = .notLoaded ∧ after.state name ≠ .notLoaded := by
  induction h with
  | done => cases mem
  | skip _ _ ih => exact ih mem
  | pass _ _ _ ih => exact ih mem
  | load new _ inside rest ihInside ihRest =>
    simp only [begunNames_append, begunNames_begun, begunNames_ended, List.mem_append,
      List.mem_cons] at mem
    rcases mem with hinner | rfl | hnotes
    · obtain ⟨hbefore, hmiddle⟩ := ihInside hinner
      obtain ⟨hne, hnew⟩ := Ledger.new_of_mark (by decide) hbefore
      refine ⟨hnew, fun hafter => hmiddle ?_⟩
      exact (Ledger.new_of_mark (by decide) (rest.new_before hafter)).2
    · exact ⟨new, fun hafter => (Ledger.new_of_mark (by decide) (rest.new_before hafter)).1 rfl⟩
    · obtain ⟨hbefore, hafter⟩ := ihRest hnotes
      refine ⟨?_, hafter⟩
      exact (Ledger.new_of_mark (by decide)
        (inside.new_before (Ledger.new_of_mark (by decide) hbefore).2)).2
  | fail new _ inside ihInside =>
    simp only [begunNames_append, begunNames_begun, begunNames_nil, List.mem_append,
      List.mem_singleton] at mem
    rcases mem with hinner | rfl
    · obtain ⟨hbefore, hmiddle⟩ := ihInside hinner
      obtain ⟨hne, hnew⟩ := Ledger.new_of_mark (by decide) hbefore
      exact ⟨hnew, by rw [Registry.state_atEffect_of_ne hne]; exact hmiddle⟩
    · refine ⟨new, Registry.atEffect_self_ne ?_⟩
      rw [inside.kept (by simp)]
      simp
  | failInside new _ _ ihInside =>
    obtain ⟨hbefore, hmiddle⟩ := ihInside mem
    exact ⟨(Ledger.new_of_mark (by decide) hbefore).2, hmiddle⟩
  | stop => cases mem

theorem loaded_of_mem_endedNames (h : Loads registry policy chain names ledger notes ok after)
    (mem : name ∈ endedNames notes) : after.state name = .loaded := by
  induction h with
  | done => cases mem
  | skip _ _ ih => exact ih mem
  | pass _ _ _ ih => exact ih mem
  | @load _ _ loading _ ledger middle _ _ _ _ _ _ inside rest ihInside ihRest =>
    simp only [endedNames_append, endedNames_begun, endedNames_ended, List.mem_append,
      List.mem_cons] at mem
    rcases mem with hinner | rfl | hnotes
    · refine rest.loaded_kept ?_
      rw [Ledger.state_mark]
      split
      · rfl
      · exact ihInside hinner
    · exact rest.loaded_kept (by simp)
    · exact ihRest hnotes
  | @fail _ _ loading _ ledger middle _ _ _ inside ihInside =>
    simp only [endedNames_append, endedNames_begun, endedNames_nil, List.append_nil] at mem
    have hmiddle := ihInside mem
    rcases eq_or_ne name loading with rfl | hne
    · rw [inside.kept (by simp), Ledger.state_mark_self] at hmiddle
      cases hmiddle
    · rw [Registry.state_atEffect_of_ne hne, hmiddle]
  | failInside _ _ _ ihInside => exact ihInside mem
  | stop => cases mem

/-- **No effect is begun twice.** -/
theorem nodup_begunNames (h : Loads registry policy chain names ledger notes ok after) :
    (begunNames notes).Nodup := by
  induction h with
  | done => exact List.nodup_nil
  | skip _ _ ih => exact ih
  | pass _ _ _ ih => exact ih
  | load _ _ inside rest ihInside ihRest =>
    simp only [begunNames_append, begunNames_begun, begunNames_ended]
    rw [List.nodup_append, List.nodup_cons]
    refine ⟨ihInside, ⟨fun hmem => ?_, ihRest⟩, ?_⟩
    -- what has begun inside is known behind it, and what begins in the rest is still new there
    · exact (Ledger.new_of_mark (by decide) (rest.of_mem_begunNames hmem).1).1 rfl
    · rintro first hinner second hrest rfl
      obtain ⟨hbefore, hmiddle⟩ := inside.of_mem_begunNames hinner
      rcases List.mem_cons.mp hrest with rfl | hnotes
      · exact (Ledger.new_of_mark (by decide) hbefore).1 rfl
      · exact hmiddle (Ledger.new_of_mark (by decide) (rest.of_mem_begunNames hnotes).1).2
  | fail _ _ inside ihInside =>
    simp only [begunNames_append, begunNames_begun, begunNames_nil]
    rw [List.nodup_append]
    refine ⟨ihInside, List.nodup_singleton _, ?_⟩
    rintro first hinner second hsingle rfl
    rw [List.mem_singleton] at hsingle
    subst hsingle
    exact (Ledger.new_of_mark (by decide) (inside.of_mem_begunNames hinner).1).1 rfl
  | failInside _ _ _ ihInside => exact ihInside
  | stop => exact List.nodup_nil

end Loads

end Formulary
