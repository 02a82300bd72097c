import Formulary.Proofs.Loading.Course

/-!
# What a preparation loads

* `SoundLedger.settled_of_reaches` : what is reached from a text is dealt with along with what the
  text refers to;
* `Course.loaded_iff_of_prepare` : exactly what is served and reached becomes loaded;
* `Course.installed_of_prepare` : what a preparation installs behind failures and registrations.
-/

namespace Formulary

/-! ## Sound states between deeds -/

namespace SoundLedger

variable {registry : Registry} {policy : UnresolvedPolicy} {done : List String} {ledger : Ledger}
  {name text : String}

theorem loaded_of_settled (sound : SoundLedger registry policy done [] ledger)
    (settled : registry.Settled policy ledger name) (serves : registry.Serves name) :
    ledger.state name = .loaded := by
  have hknown := settled.resolve_right fun hunserved => hunserved.1 serves
  exact (sound.loaded_or_mem hknown).resolve_right fun hwaits => nomatch hwaits.2

/-- What is reached from a text is dealt with along with what the text refers to. -/
theorem settled_of_reaches (sound : SoundLedger registry policy done [] ledger)
    (settled : ∀ first ∈ references text, registry.Settled policy ledger first)
    (reaches : registry.Reaches text name) : registry.Settled policy ledger name := by
  obtain ⟨first, hmem, path⟩ := reaches
  induction path with
  | refl => exact settled first hmem
  | tail _ refers ih =>
    exact sound.closed _ _ (sound.loaded_of_settled ih refers.serves) refers

end SoundLedger

namespace Formula

variable {formula : Formula} {fuel : Nat} {text : String} {context after : Context}

theorem loads_of_prepare (done : formula.prepare fuel text context = .ok () after) :
    formula.Loads [] (references text) context.ledger
      ((formula.notePrepare fuel text).notesFrom context) true after.ledger := by
  have hloads := loads_of_follows (formula.notePrepare_erases fuel text)
    (formula.notePrepare_follows fuel text) context
  unfold Work.succeeds Work.after at hloads
  rw [done] at hloads
  exact hloads

end Formula

namespace Course

variable {formula : Formula} {fuel fuel' : Nat} {programs : ProgramCache}
  {history : List (Nat × Deed)} {text : String} {after : Context}

/-- Behind a preparation that succeeds states are sound, and what is reached is dealt with. -/
theorem InOrder.sound_prepare {course : Course} (inOrder : course.InOrder formula)
    (done : formula.prepare fuel text course.context = .ok () after) :
    SoundLedger formula.registry formula.config.unresolved
      (endedNames (course.notes ++ (formula.notePrepare fuel text).notesFrom course.context)) []
      after.ledger ∧
    ∀ name, formula.registry.Reaches text name →
      formula.registry.Settled formula.config.unresolved after.ledger name := by
  have hloads := Formula.loads_of_prepare done
  have hsound := hloads.sound inOrder.sound
  rw [← endedNames_append] at hsound
  exact ⟨hsound, fun name => hsound.settled_of_reaches fun first hmem => hloads.settled hmem⟩

/-- **Behind a preparation that succeeds exactly those functions are loaded that have been loaded
before it, or that are served and reached from the text.** None is being loaded, and what is not
served is not loaded; under the strict policy all that is reached is served. This is so as long as
no loading has failed and the functions stay the same. -/
theorem loaded_iff_of_prepare (fixed : ∀ entry ∈ history, entry.2.isRegistration = false)
    (clean : ((begun formula fuel programs).after history).failures = 0)
    (done : formula.prepare fuel' text ((begun formula fuel programs).after history).context =
      .ok () after) :
    (∀ name, after.ledger.state name = .loaded ↔
      ((begun formula fuel programs).after history).state name = .loaded ∨
        formula.registry.Serves name ∧ formula.registry.Reaches text name) ∧
    (∀ name, after.ledger.state name ≠ .loading) ∧
    (∀ name, formula.registry.Reaches text name → ¬formula.registry.Serves name →
      after.ledger.state name = .notLoaded) ∧
    (formula.config.unresolved = .strict → ∀ name, formula.registry.Reaches text name →
      formula.registry.Serves name) := by
  have inOrder := inOrder_after formula fuel programs history fixed clean
  have hloads := Formula.loads_of_prepare done
  obtain ⟨hsound, hsettled⟩ := inOrder.sound_prepare done
  refine ⟨fun name => ⟨fun hname => ?_, fun hname => ?_⟩, fun name hname => ?_,
    fun name hreaches hunserved => ?_, fun hstrict name hreaches => ?_⟩
  · rcases eq_or_ne (((begun formula fuel programs).after history).state name) .notLoaded with
      hnew | hold
    · obtain ⟨-, hserves, hwalk, -⟩ := hloads.loaded_of_new hnew (by rw [hname]; decide)
      exact Or.inr ⟨hserves, hwalk.reaches⟩
    · exact Or.inl ((hloads.kept hold).symm.trans hname)
  · rcases hname with hold | ⟨hserves, hreaches⟩
    · exact hloads.loaded_kept hold
    · exact hsound.loaded_of_settled (hsettled name hreaches) hserves
  · cases hsound.loading name hname
  · cases hstate : after.ledger.state name with
    | notLoaded => rfl
    | loading => cases hsound.loading name hstate
    | loaded => exact absurd (hsound.loaded name hstate).2 hunserved
  · rcases hsettled name hreaches with hknown | hunserved
    · rcases hsound.loaded_or_mem hknown with hloaded | hwaits
      · exact (hsound.loaded name hloaded).2
      · cases hwaits.2
    · exact absurd hstrict hunserved.2

/-- Three functions in a cycle are loaded together. -/
theorem loaded_iff_of_prepare_cycle :
    ∃ after, cyclic.prepare 100 "$A(" ((begun cyclic 100 cyclic.newCache).after
        [(100, .run "x = 1"), (100, .prepare "$MAX(")]).context = .ok () after ∧
      (after.ledger.state "$C" = .loaded ↔
        ((begun cyclic 100 cyclic.newCache).after
          [(100, .run "x = 1"), (100, .prepare "$MAX(")]).state "$C" = .loaded ∨
        cyclic.registry.Serves "$C" ∧ cyclic.registry.Reaches "$A(" "$C") := by
  obtain ⟨u, after, done⟩ := Work.succeeds_iff.mp (show
    (cyclic.prepare 100 "$A(").succeeds ((begun cyclic 100 cyclic.newCache).after
      [(100, .run "x = 1"), (100, .prepare "$MAX(")]).context = true by decide +kernel)
  refine ⟨after, done, (loaded_iff_of_prepare ?_ ?_ done).1 "$C"⟩
  · decide
  · decide +kernel

/-- **What a preparation installs behind registrations and failures.** Take a function that is
served and, if it is new, referred to by the text, be it by way of functions that are new. If it has
not been interrupted, it is loaded behind the preparation and its effect has happened; if it has
been new, then in the preparation itself. Only a failure interrupts functions, and those that it
finds new. While nothing fails and the functions stay the same, all that is served and reached is
loaded and its effect has happened. -/
theorem installed_of_prepare {course : Course}
    (reached : course = (begun formula fuel programs).after history)
    (done : course.formula.prepare fuel' text course.context = .ok () after) :
    (∀ name, course.formula.registry.Serves name →
      (course.state name = .notLoaded →
        course.formula.registry.Walks course.context.ledger (references text) name) →
      ¬course.Interrupted name →
      after.ledger.state name = .loaded ∧
      name ∈ endedNames (course.perform fuel' (.prepare text)).notes ∧
      (course.state name = .notLoaded →
        name ∈ endedNames ((course.formula.notePrepare fuel' text).notesFrom course.context))) ∧
    (∀ name, course.Interrupted name → ∃ earlier fuel'' deed later,
      history = earlier ++ (fuel'', deed) :: later ∧
      ((begun formula fuel programs).after earlier).failures <
        (((begun formula fuel programs).after earlier).perform fuel'' deed).failures ∧
      ((begun formula fuel programs).after earlier).state name = .notLoaded ∧
      (((begun formula fuel programs).after earlier).perform fuel'' deed).Interrupted name) ∧
    ((∀ entry ∈ history, entry.2.isRegistration = false) → course.failures = 0 →
      ∀ name, course.formula.registry.Serves name → course.formula.registry.Reaches text name →
        after.ledger.state name = .loaded ∧
        name ∈ endedNames (course.perform fuel' (.prepare text)).notes) := by
  have hnotes : (course.perform fuel' (.prepare text)).notes = course.notes ++
    (course.formula.notePrepare fuel' text).notesFrom course.context := rfl
  have hloads := Formula.loads_of_prepare done
  refine ⟨fun name hserves hwalk hinterrupted => ?_, fun name hinterrupted => ?_,
    fun fixed clean name hserves hreaches => ?_⟩
  · rw [hnotes, endedNames_append, List.mem_append]
    rcases eq_or_ne (course.state name) .notLoaded with hnew | hold
    · obtain ⟨hloaded, hended⟩ := hloads.installed_of_walks (hwalk hnew) hserves hnew
      exact ⟨hloaded, Or.inr hended, fun _ => hended⟩
    · have hended : name ∈ endedNames course.notes :=
        Decidable.not_not.mp fun h => hinterrupted ⟨hold, h⟩
      have installs : course.Installs := reached ▸ installs_after formula fuel programs history
      exact ⟨hloads.loaded_kept (installs name hended), Or.inl hended, fun h => absurd h hold⟩
  · subst reached
    have hbefore : ¬(begun formula fuel programs).Interrupted name :=
      fun h => h.1 (state_begun formula fuel programs name)
    exact exists_fails_of_interrupted hbefore hinterrupted
  · have inOrder : course.InOrder formula :=
      reached ▸ inOrder_after formula fuel programs history fixed (reached ▸ clean)
    rw [inOrder.same] at done hserves hreaches
    obtain ⟨hsound, hsettled⟩ := inOrder.sound_prepare done
    have hloaded := hsound.loaded_of_settled (hsettled name hreaches) hserves
    rw [hnotes, inOrder.same]
    exact ⟨hloaded, (hsound.loaded name hloaded).1⟩

/-- A course in which the loading of a function has failed, and what it refers to is registered
behind that. -/
def retried : Course :=
  (begun (.ofConfig .strict) 100 (.empty 16)).after [(100, .register "$A" "//$B("),
    (100, .prepare "$A("), (100, .register "$B" "0"), (100, .register "$C" "//$B(")]

/-- What has been missing is installed once it is registered. -/
theorem installed_of_prepare_retried :
    ∃ after, retried.formula.prepare 100 "$C(" retried.context = .ok () after ∧
      after.ledger.state "$B" = .loaded := by
  obtain ⟨u, after, done⟩ := Work.succeeds_iff.mp
    (show (retried.formula.prepare 100 "$C(").succeeds retried.context = true by decide +kernel)
  have reached : retried = (begun (.ofConfig .strict) 100 (.empty 16)).after _ := rfl
  have hnew : retried.state "$C" = .notLoaded := by decide +kernel
  have hwalk : retried.formula.registry.Walks retried.context.ledger (references "$C(") "$B" :=
    .step (.root (by decide +kernel)) hnew (by decide +kernel)
  refine ⟨after, done, ((installed_of_prepare reached done).1 "$B" ?_ (fun _ => hwalk) ?_).1⟩
  · decide +kernel
  · exact fun h => h.1 (by decide +kernel)

/-- A course in which a function is loaded, and what it refers to is registered behind that. -/
def belated : Course :=
  (begun (.ofConfig .lenient) 100 (.empty 16)).after
    [(100, .register "$A" "//$B("), (100, .prepare "$A("), (100, .register "$B" "0")]

/-- What a loaded function refers to is not loaded behind it, even where it is served by now. -/
theorem not_loaded_of_belated :
    ∃ after, belated.formula.prepare 100 "$A(" belated.context = .ok () after ∧
      belated.formula.registry.Serves "$B" ∧ belated.formula.registry.Reaches "$A(" "$B" ∧
      after.ledger.state "$B" = .notLoaded := by
  obtain ⟨u, after, done⟩ := Work.succeeds_iff.mp
    (show (belated.formula.prepare 100 "$A(").succeeds belated.context = true by decide +kernel)
  have hafter : ((belated.formula.prepare 100 "$A(").after belated.context).ledger.state "$B" =
      .notLoaded := by decide +kernel
  rw [Work.after, done] at hafter
  refine ⟨after, done, by decide +kernel, ⟨"$A", by decide +kernel, .single ?_⟩, hafter⟩
  decide +kernel

end Course

end Formulary
