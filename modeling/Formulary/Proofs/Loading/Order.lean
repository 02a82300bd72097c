import Formulary.Proofs.Loading.Success

/-!
# The order of effects

* `Ready` : what is loaded at the effect of a function;
* `Orderly` : notes in which every function is ready when its effect begins;
* `SoundLedger` : states between two effects, with the functions whose effects have happened;
* `Loads.sound`, `Loads.orderly` : loading keeps states sound, and its notes are orderly.

What a function refers to is loaded at its effect unless nothing serves it, or it is being loaded
itself and waits for the function: then it is one of `chain`, and the references form a cycle.
-/

namespace Formulary

/-- What is loaded at the effect of a function, when `done` are the functions whose effects have
happened. -/
structure Ready (registry : Registry) (name : String) (chain : List String) (ledger : Ledger)
    (done : List String) : Prop where
  direct : ∀ other, registry.Refers name other → other ≠ name →
    ¬registry.Serves other ∨ (ledger.state other = .loaded ∧ other ∈ done) ∨
      (ledger.state other = .loading ∧ other ∈ chain)
  /-- Without cycles all that is reached from the function is loaded. -/
  deep : registry.Acyclic name → ∀ other, Relation.TransGen registry.RefersOn name other →
    registry.Serves other → ledger.state other = .loaded ∧ other ∈ done

/-- Whether every function in the notes is ready when its effect begins. -/
def Orderly (registry : Registry) (done : List String) : List Note → Prop
  | [] => True
  | .begun name chain ledger :: notes =>
    Ready registry name chain ledger done ∧ Orderly registry done notes
  | .ended name :: notes => Orderly registry (done ++ [name]) notes

theorem orderly_append {registry : Registry} {done : List String} {notes notes' : List Note} :
    Orderly registry done (notes ++ notes') ↔
      Orderly registry done notes ∧ Orderly registry (done ++ endedNames notes) notes' := by
  induction notes generalizing done with
  | nil => simp [Orderly]
  | cons note notes ih =>
    cases note with
    | begun name chain ledger => simp [Orderly, ih, and_assoc]
    | ended name => simp [Orderly, ih, List.append_assoc]

/-- In orderly notes a function is ready at every place where its effect begins. -/
theorem Orderly.ready {registry : Registry} {done : List String} {before rest : List Note}
    {name : String} {chain : List String} {ledger : Ledger}
    (h : Orderly registry done (before ++ .begun name chain ledger :: rest)) :
    Ready registry name chain ledger (done ++ endedNames before) :=
  (orderly_append.mp h).2.1

/-! ## Sound states -/

/-- The states between two effects inside the loading of `chain`, when `done` are the functions
whose effects have happened. -/
structure SoundLedger (registry : Registry) (policy : UnresolvedPolicy) (done chain : List String)
    (ledger : Ledger) : Prop where
  loading : ∀ name, ledger.state name = .loading → name ∈ chain
  loaded : ∀ name, ledger.state name = .loaded → name ∈ done ∧ registry.Serves name
  closed : ∀ name other, ledger.state name = .loaded → registry.Refers name other →
    registry.Settled policy ledger other

namespace SoundLedger

variable {registry : Registry} {policy : UnresolvedPolicy} {done chain : List String}
  {ledger : Ledger} {name other : String}

theorem empty (registry : Registry) (policy : UnresolvedPolicy) :
    SoundLedger registry policy [] [] .empty :=
  ⟨fun _ h => (nomatch h), fun _ h => (nomatch h), fun _ _ h => (nomatch h)⟩

theorem loaded_or_mem (sound : SoundLedger registry policy done chain ledger)
    (known : ledger.state name ≠ .notLoaded) : ledger.state name = .loaded ∨
      ledger.state name = .loading ∧ name ∈ chain := by
  cases hstate : ledger.state name with
  | notLoaded => exact absurd hstate known
  | loading => exact Or.inr ⟨rfl, sound.loading name hstate⟩
  | loaded => exact Or.inl rfl

theorem enter (sound : SoundLedger registry policy done chain ledger)
    (new : ledger.state name = .notLoaded) :
    SoundLedger registry policy done (name :: chain) (ledger.mark name .loading) := by
  have loaded_before : ∀ n, (ledger.mark name .loading).state n = .loaded →
      ledger.state n = .loaded := by
    intro n hn
    rcases eq_or_ne n name with rfl | hne
    · rw [Ledger.state_mark_self] at hn
      cases hn
    · rwa [ledger.state_mark_of_ne _ hne] at hn
  refine ⟨fun n hn => ?_, fun n hn => sound.loaded n (loaded_before n hn), fun n m hn refers => ?_⟩
  · rcases eq_or_ne n name with rfl | hne
    · exact List.mem_cons_self
    · rw [ledger.state_mark_of_ne _ hne] at hn
      exact List.mem_cons_of_mem _ (sound.loading n hn)
  · exact (sound.closed n m (loaded_before n hn) refers).mark (by decide)

theorem leave {required : List String}
    (sound : SoundLedger registry policy done (name :: chain) ledger)
    (served : registry.requires? name = some required)
    (settled : ∀ n ∈ required, registry.Settled policy ledger n) :
    SoundLedger registry policy (done ++ [name]) chain (ledger.mark name .loaded) := by
  refine ⟨fun n hn => ?_, fun n hn => ?_, fun n m hn refers => ?_⟩
  · rcases eq_or_ne n name with rfl | hne
    · rw [Ledger.state_mark_self] at hn
      cases hn
    · rw [ledger.state_mark_of_ne _ hne] at hn
      exact (List.mem_cons.mp (sound.loading n hn)).resolve_left hne
  · rcases eq_or_ne n name with rfl | hne
    · exact ⟨by simp, Registry.serves_of_requires? served⟩
    · rw [ledger.state_mark_of_ne _ hne] at hn
      exact ⟨List.mem_append_left _ (sound.loaded n hn).1, (sound.loaded n hn).2⟩
  · rcases eq_or_ne n name with rfl | hne
    · rcases eq_or_ne m n with rfl | hm
      · exact Or.inl (by simp)
      · exact (settled m ((Registry.mem_of_requires? served).mpr ⟨refers, hm⟩)).mark (by decide)
    · rw [ledger.state_mark_of_ne _ hne] at hn
      exact (sound.closed n m hn refers).mark (by decide)

/-- All that is reached from a function without cycles is loaded when what the function requires
has been dealt with. The functions around it cannot be reached: they reach the function. -/
theorem loaded_of_acyclic {required : List String}
    (sound : SoundLedger registry policy done (name :: chain) ledger)
    (served : registry.requires? name = some required)
    (settled : ∀ n ∈ required, registry.Settled policy ledger n)
    (paths : ∀ outer ∈ chain, Relation.TransGen registry.RefersOn outer name)
    (acyclic : registry.Acyclic name) (path : Relation.TransGen registry.RefersOn name other)
    (serves : registry.Serves other) : other ≠ name ∧ ledger.state other = .loaded := by
  have of_known : ∀ n, Relation.TransGen registry.RefersOn name n →
      ledger.state n ≠ .notLoaded → n ≠ name ∧ ledger.state n = .loaded := by
    intro n hpath hknown
    have hne : n ≠ name := by
      rintro rfl
      exact acyclic n .refl hpath
    refine ⟨hne, (sound.loaded_or_mem hknown).resolve_right fun hwaits => ?_⟩
    have houter := (List.mem_cons.mp hwaits.2).resolve_left hne
    -- a function around this one reaches it, so that reaching the former closes a cycle
    exact acyclic n hpath.to_reflTransGen ((paths n houter).trans hpath)
  induction path with
  | single refers =>
    refine of_known _ (.single refers) ?_
    exact (settled _ ((Registry.mem_of_requires? served).mpr refers)).resolve_right
      fun hunserved => hunserved.1 serves
  | tail path refers ih =>
    refine of_known _ (path.tail refers) ?_
    have hloaded := (ih refers.1.serves).2
    exact (sound.closed _ _ hloaded refers.1).resolve_right fun hunserved => hunserved.1 serves

theorem ready {required : List String}
    (sound : SoundLedger registry policy done (name :: chain) ledger)
    (served : registry.requires? name = some required)
    (settled : ∀ n ∈ required, registry.Settled policy ledger n)
    (paths : ∀ outer ∈ chain, Relation.TransGen registry.RefersOn outer name) :
    Ready registry name chain (registry.atEffect name ledger) done := by
  refine ⟨fun other refers hne => ?_, fun acyclic other path serves => ?_⟩
  · rw [Registry.state_atEffect_of_ne hne]
    rcases settled other ((Registry.mem_of_requires? served).mpr ⟨refers, hne⟩) with hknown | hun
    · rcases sound.loaded_or_mem hknown with hloaded | ⟨hloading, hmem⟩
      · exact Or.inr (Or.inl ⟨hloaded, (sound.loaded other hloaded).1⟩)
      · exact Or.inr (Or.inr ⟨hloading, (List.mem_cons.mp hmem).resolve_left hne⟩)
    · exact Or.inl hun.1
  · obtain ⟨hne, hloaded⟩ := sound.loaded_of_acyclic served settled paths acyclic path serves
    rw [Registry.state_atEffect_of_ne hne]
    exact ⟨hloaded, (sound.loaded other hloaded).1⟩

end SoundLedger

/-! ## Loading -/

namespace Loads

variable {registry : Registry} {policy : UnresolvedPolicy} {done chain names : List String}
  {ledger after : Ledger} {notes : List Note} {ok : Bool}

/-- **Loading that succeeds keeps states sound.** -/
theorem sound (h : Loads registry policy chain names ledger notes true after)
    (sound : SoundLedger registry policy done chain ledger) :
    SoundLedger registry policy (done ++ endedNames notes) chain after := by
  refine ⟨fun n hn => sound.loading n (h.loading_before hn), fun n hn => ?_,
    fun n m hn refers => ?_⟩
  · rcases eq_or_ne (ledger.state n) .notLoaded with hnew | hold
    · obtain ⟨-, hserves, -, hended⟩ := h.loaded_of_new hnew (by rw [hn]; decide)
      exact ⟨List.mem_append_right _ hended, hserves⟩
    · obtain ⟨hdone, hserves⟩ := sound.loaded n (by rw [← h.kept hold, hn])
      exact ⟨List.mem_append_left _ hdone, hserves⟩
  · rcases eq_or_ne (ledger.state n) .notLoaded with hnew | hold
    · exact h.closed hnew (by rw [hn]; decide) refers
    · exact h.settled_kept (sound.closed n m (by rw [← h.kept hold, hn]) refers)

/-- **The effects of loading are in order,** also where loading fails. -/
theorem orderly (h : Loads registry policy chain names ledger notes ok after)
    (sound : SoundLedger registry policy done chain ledger)
    (paths : ∀ outer ∈ chain, ∀ name ∈ names, Relation.TransGen registry.RefersOn outer name) :
    Orderly registry done notes := by
  have paths_inside : ∀ {chain names : List String} {name : String} {required : List String},
      (∀ outer ∈ chain, ∀ n ∈ name :: names, Relation.TransGen registry.RefersOn outer n) →
      registry.requires? name = some required →
      ∀ outer ∈ name :: chain, ∀ n ∈ required, Relation.TransGen registry.RefersOn outer n := by
    intro chain names name required paths served outer houter n hn
    have refers := (Registry.mem_of_requires? served).mp hn
    rcases List.mem_cons.mp houter with rfl | houter
    · exact .single refers
    · exact (paths outer houter name List.mem_cons_self).tail refers
  induction h generalizing done with
  | done => trivial
  | skip _ _ ih => exact ih sound fun o ho n hn => paths o ho n (List.mem_cons_of_mem _ hn)
  | pass _ _ _ ih => exact ih sound fun o ho n hn => paths o ho n (List.mem_cons_of_mem _ hn)
  | load new served inside rest ihInside ihRest =>
    have hinside := inside.sound (sound.enter new)
    have hsettled := fun n (hn : n ∈ _) => inside.settled hn
    refine orderly_append.mpr ⟨ihInside (sound.enter new) (paths_inside paths served), ?_, ?_⟩
    · exact hinside.ready served hsettled fun o ho => paths o ho _ List.mem_cons_self
    · refine ihRest (hinside.leave served hsettled) ?_
      exact fun o ho n hn => paths o ho n (List.mem_cons_of_mem _ hn)
  | fail new served inside ihInside =>
    refine orderly_append.mpr ⟨ihInside (sound.enter new) (paths_inside paths served), ?_, trivial⟩
    exact (inside.sound (sound.enter new)).ready served (fun n hn => inside.settled hn)
      fun o ho => paths o ho _ List.mem_cons_self
  | failInside new served _ ihInside =>
    exact ihInside (sound.enter new) (paths_inside paths served)
  | stop => trivial

end Loads

end Formulary
