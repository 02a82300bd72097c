import Formulary.Proofs.Loading.Effect

/-!
# Loading that succeeds

* `Loads.settled` : every name that was to be loaded has been dealt with;
* `Loads.loaded_of_new` : a name that has become known is loaded, has been walked to and its effect
  has happened;
* `Loads.closed` : what a newly loaded function refers to has been dealt with;
* `Loads.installed_of_walks` : what is walked to and served is loaded.
-/

namespace Formulary.Loads

variable {registry : Registry} {policy : UnresolvedPolicy} {chain names : List String}
  {ledger after : Ledger} {notes : List Note} {name other : String}

theorem settled (h : Loads registry policy chain names ledger notes true after)
    (mem : name ∈ names) : registry.Settled policy after name := by
  generalize hok : true = ok at h
  induction h with
  | done => cases mem
  | skip old rest ih =>
    rcases List.mem_cons.mp mem with rfl | hnames
    · exact rest.settled_kept (Or.inl old)
    · exact ih hnames hok
  | pass unserved lenient _ ih =>
    rcases List.mem_cons.mp mem with rfl | hnames
    · exact Or.inr ⟨Registry.not_serves_of_requires? unserved, lenient⟩
    · exact ih hnames hok
  | load _ _ _ rest _ ihRest =>
    rcases List.mem_cons.mp mem with rfl | hnames
    · exact rest.settled_kept (Or.inl (by simp))
    · exact ihRest hnames hok
  | fail => cases hok
  | failInside => cases hok
  | stop => cases hok

/-- The walks inside the loading of a function are walks from the function itself. -/
theorem walks_of_inside {required : List String} (new : ledger.state name = .notLoaded)
    (served : registry.requires? name = some required)
    (walk : registry.Walks (ledger.mark name .loading) required other) :
    registry.Walks ledger (name :: names) other := by
  refine walk.mono (fun n hn => (Ledger.new_of_mark (by decide) hn).2) fun n hn => ?_
  exact .step (.root List.mem_cons_self) new ((Registry.mem_of_requires? served).mp hn).1

theorem walks_of_rest {before : Ledger}
    (new : ∀ name, before.state name = .notLoaded → ledger.state name = .notLoaded)
    (walk : registry.Walks before names other) : registry.Walks ledger (name :: names) other :=
  walk.mono new fun _ hn => .root (List.mem_cons_of_mem _ hn)

/-- **A name that has become known is loaded.** It has been walked to, something serves it, and its
effect has happened without a failure. -/
theorem loaded_of_new (h : Loads registry policy chain names ledger notes true after)
    (new : ledger.state name = .notLoaded) (known : after.state name ≠ .notLoaded) :
    after.state name = .loaded ∧ registry.Serves name ∧ registry.Walks ledger names name ∧
      name ∈ endedNames notes := by
  generalize hok : true = ok at h
  induction h with
  | done => exact absurd new known
  | skip _ _ ih =>
    obtain ⟨hloaded, hserves, hwalk, hended⟩ := ih new known hok
    exact ⟨hloaded, hserves, walks_of_rest (fun _ hn => hn) hwalk, hended⟩
  | pass _ _ _ ih =>
    obtain ⟨hloaded, hserves, hwalk, hended⟩ := ih new known hok
    exact ⟨hloaded, hserves, walks_of_rest (fun _ hn => hn) hwalk, hended⟩
  | @load _ _ loading _ ledger middle _ _ _ _ newLoading served inside rest ihInside ihRest =>
    rcases eq_or_ne name loading with rfl | hne
    · refine ⟨?_, Registry.serves_of_requires? served, .root List.mem_cons_self, by simp⟩
      rw [rest.kept (by simp)]
      simp
    have hmark := ledger.state_mark_of_ne .loading hne
    rcases eq_or_ne (middle.state name) .notLoaded with hmiddle | hmiddle
    · obtain ⟨hloaded, hserves, hwalk, hended⟩ :=
        ihRest ((middle.state_mark_of_ne .loaded hne).trans hmiddle) known hok
      refine ⟨hloaded, hserves, walks_of_rest (fun n hn => ?_) hwalk, by simp [hended]⟩
      exact (Ledger.new_of_mark (by decide)
        (inside.new_before (Ledger.new_of_mark (by decide) hn).2)).2
    · obtain ⟨hloaded, hserves, hwalk, hended⟩ := ihInside (hmark.trans new) hmiddle rfl
      refine ⟨?_, hserves, walks_of_inside newLoading served hwalk, by simp [hended]⟩
      rw [rest.kept (by rwa [middle.state_mark_of_ne .loaded hne]),
        middle.state_mark_of_ne .loaded hne, hloaded]
  | fail => cases hok
  | failInside => cases hok
  | stop => cases hok

theorem loading_before (h : Loads registry policy chain names ledger notes true after)
    (loading : after.state name = .loading) : ledger.state name = .loading := by
  rcases eq_or_ne (ledger.state name) .notLoaded with hnew | hold
  · have hloaded := (h.loaded_of_new hnew (by rw [loading]; decide)).1
    rw [loading] at hloaded
    cases hloaded
  · rw [← h.kept hold, loading]

/-- **What a newly loaded function refers to has been dealt with.** -/
theorem closed (h : Loads registry policy chain names ledger notes true after)
    (new : ledger.state name = .notLoaded) (known : after.state name ≠ .notLoaded)
    (refers : registry.Refers name other) : registry.Settled policy after other := by
  generalize hok : true = ok at h
  induction h with
  | done => exact absurd new known
  | skip _ _ ih => exact ih new known hok
  | pass _ _ _ ih => exact ih new known hok
  | @load _ _ loading _ ledger middle _ _ _ _ _ served inside rest ihInside ihRest =>
    rcases eq_or_ne name loading with rfl | hne
    · rcases eq_or_ne other name with rfl | hother
      · exact rest.settled_kept (Or.inl (by simp))
      · refine rest.settled_kept ((inside.settled ?_).mark (by decide))
        exact (Registry.mem_of_requires? served).mpr ⟨refers, hother⟩
    rcases eq_or_ne (middle.state name) .notLoaded with hmiddle | hmiddle
    · exact ihRest ((middle.state_mark_of_ne .loaded hne).trans hmiddle) known hok
    · refine rest.settled_kept ((ihInside ?_ hmiddle rfl).mark (by decide))
      rw [ledger.state_mark_of_ne .loading hne, new]
  | fail => cases hok
  | failInside => cases hok
  | stop => cases hok

/-- **What is walked to and served is loaded,** if it has been new. -/
theorem installed_of_walks (h : Loads registry policy chain names ledger notes true after)
    (walk : registry.Walks ledger names name) (serves : registry.Serves name)
    (new : ledger.state name = .notLoaded) :
    after.state name = .loaded ∧ name ∈ endedNames notes := by
  have known : ∀ n, registry.Walks ledger names n → registry.Settled policy after n := by
    intro n hn
    induction hn with
    | root mem => exact h.settled mem
    | step _ hnew refers ih =>
      refine h.closed hnew ?_ refers
      exact ih.resolve_right fun hunserved => hunserved.1 refers.serves
  have hknown := (known name walk).resolve_right fun hunserved => hunserved.1 serves
  obtain ⟨hloaded, -, -, hended⟩ := h.loaded_of_new new hknown
  exact ⟨hloaded, hended⟩

end Formulary.Loads
