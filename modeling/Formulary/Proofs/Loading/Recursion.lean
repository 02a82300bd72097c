import Formulary.Proofs.Json.Members
import Formulary.Proofs.Loading.Course

/-!
# Loading as a recursion without a bound

* `Registry.nodup_customNames`, `Registry.mem_customNames` : the names that stores are written for;
* `Visit`, `Formula.Visits` : the visits of functions that loading finds new, each with those around
  it, in loading without a bound on levels;
* `Formula.exists_visits` : the bound of `Formula.injectWithin` is never met, since each level marks
  a name that stores are written for;
* `Visits.bounded` : no function is visited inside itself, and only the innermost one may be without
  a text;
* `Visits.new_of_walked`, `Visits.nodup_walkedNames` : a text is gone through once;
* `Course.Makes`, `Course.visits_of_history` : the visits of all that is done with a context.
-/

namespace Formulary

/-! ## Names that stores are written for -/

theorem nodup_sortNames (names : List String) : (sortNames names).Nodup := by
  refine List.pairwise_map.mpr ?_
  exact (inOrder_sortMembers _).imp fun h => h.ne

theorem mem_sortNames {name : String} {names : List String} :
    name ∈ sortNames names ↔ name ∈ names := by
  have hmem : name ∈ sortNames names ↔
      ((sortMembers (names.map fun name => (name, ()))).lookup name).isSome := by
    rw [List.lookup_isSome_iff, sortNames, List.mem_map]
    simp only [beq_iff_eq, @eq_comm _ name]
  rw [hmem, lookup_sortMembers, List.lookup_isSome_iff]
  simp

namespace Registry

variable {registry : Registry} {name : String}

theorem nodup_customNames (registry : Registry) : registry.customNames.Nodup :=
  nodup_sortNames _

theorem mem_customNames : name ∈ registry.customNames ↔
    ∃ store ∈ registry.stores, (store.bodies.get? name).isSome := by
  rw [customNames, mem_sortNames, List.mem_flatMap]
  simp only [Table.names, List.mem_map, Table.get?, List.lookup_isSome_iff,
    beq_iff_eq, @eq_comm _ name]

theorem mem_customNames_of_body? {body : String} (h : registry.body? name = some body) :
    name ∈ registry.customNames := by
  obtain ⟨store, hmem, hbody⟩ := List.exists_of_findSome?_eq_some h
  refine mem_customNames.mpr ⟨store, hmem, ?_⟩
  rw [(Option.filter_eq_some_iff.mp hbody).1]
  rfl

/-- The names that stores are written for and that are new. -/
def newNames (registry : Registry) (ledger : Ledger) : List String :=
  registry.customNames.filter fun name => ledger.state name == .notLoaded

theorem length_newNames_le {ledger ledger' : Ledger}
    (kept : ∀ name, ledger.state name ≠ .notLoaded → ledger'.state name ≠ .notLoaded) :
    (registry.newNames ledger').length ≤ (registry.newNames ledger).length := by
  refine (List.monotone_filter_right _ fun name hname => ?_).length_le
  rw [beq_iff_eq] at hname ⊢
  exact not_not.mp fun hold => kept name hold hname

/-- **A mark leaves fewer names new.** -/
theorem length_newNames_mark {ledger : Ledger} {state : LoadState} (hstate : state ≠ .notLoaded)
    (mem : name ∈ registry.customNames) (new : ledger.state name = .notLoaded) :
    (registry.newNames (ledger.mark name state)).length < (registry.newNames ledger).length := by
  have hnames : registry.newNames (ledger.mark name state) =
      (registry.newNames ledger).filter (· != name) := by
    rw [newNames, newNames, List.filter_filter]
    refine List.filter_congr fun other _ => ?_
    rw [Ledger.state_mark]
    by_cases hother : other = name <;> simp [hother, hstate]
  rw [hnames, List.length_filter_lt_length_iff_exists]
  exact ⟨name, List.mem_filter.mpr ⟨mem, by rw [new]; rfl⟩, by simp⟩

end Registry

/-! ## Work that takes no mark back -/

namespace Context

/-- Notes the state of a function. -/
def mark (context : Context) (name : String) (state : LoadState) : Context :=
  { context with ledger := context.ledger.mark name state }

/-- Whether a function is loaded or being loaded. -/
def Knows (context : Context) (name : String) : Prop :=
  context.ledger.state name ≠ .notLoaded

theorem knows_mark_self (context : Context) (name : String) {state : LoadState}
    (hstate : state ≠ .notLoaded) : (context.mark name state).Knows name := by
  unfold Knows mark
  rwa [Ledger.state_mark_self]

theorem Knows.mark {context : Context} {name other : String} {state : LoadState}
    (knows : context.Knows name) (hstate : state ≠ .notLoaded) :
    (context.mark other state).Knows name :=
  fun hnew => knows (Ledger.new_of_mark hstate hnew).2

end Context

namespace Work

variable {α β : Type} {work : Work α}

/-- Whether a piece of work leaves no function new that was not new. -/
def KeepsKnown (work : Work α) : Prop :=
  ∀ context name, context.Knows name → (work.after context).Knows name

theorem KeepsLedger.keepsKnown (keeps : work.KeepsLedger) : work.KeepsKnown := by
  intro context name knows
  unfold Context.Knows
  rwa [keeps context]

theorem keepsKnown_mark (name : String) {state : LoadState} (hstate : state ≠ .notLoaded) :
    (mark name state).KeepsKnown :=
  fun _ _ knows => knows.mark hstate

theorem KeepsKnown.bind {next : α → Work β} (first : work.KeepsKnown)
    (second : ∀ a, (next a).KeepsKnown) : (work >>= next).KeepsKnown := by
  intro context name knows
  have hfirst := first context name knows
  unfold after at hfirst ⊢
  cases hwork : work context with
  | ok a later =>
    rw [hwork] at hfirst
    rw [bind_of_ok hwork]
    exact second a later name hfirst
  | error e later =>
    rw [hwork] at hfirst
    rw [bind_of_error hwork]
    exact hfirst

end Work

/-! ## Visits -/

/-- A call of loading that has found its function new. -/
structure Visit where
  /-- The functions at that time. -/
  registry : Registry
  /-- The function of the visit and those that are being loaded around it, the innermost first. -/
  chain : List String
  /-- Whether what a text refers to is gone through. -/
  walks : Bool

namespace Visit

/-- The function whose text is gone through. -/
def walked? (visit : Visit) : Option String :=
  if visit.walks then visit.chain.head? else none

/-- Whether a visit is not inside another one of the same function, and not too deep. -/
structure Bounded (visit : Visit) : Prop where
  nodup : visit.chain.Nodup
  depth : visit.chain.length ≤ visit.registry.customNames.length + 1

end Visit

/-- The functions whose texts are gone through, in order. -/
def walkedNames (visits : List Visit) : List String :=
  visits.filterMap Visit.walked?

section Walked
variable (registry : Registry) (name : String) (chain : List String) (visits visits' : List Visit)

@[simp] theorem walkedNames_append :
    walkedNames (visits ++ visits') = walkedNames visits ++ walkedNames visits' :=
  List.filterMap_append

@[simp] theorem walkedNames_direct :
    walkedNames (⟨registry, name :: chain, false⟩ :: visits) = walkedNames visits := rfl

@[simp] theorem walkedNames_text :
    walkedNames (⟨registry, name :: chain, true⟩ :: visits) = name :: walkedNames visits := rfl

end Walked

/-- What the loading of functions comes to. -/
abbrev LoadResult := EStateM.Result Failure Context Unit

namespace LoadResult

/-- The context that is left behind. -/
def context : LoadResult → Context
  | .ok _ context => context
  | .error _ context => context

/-- What further work comes to, which is not done after a failure. -/
def andThen : LoadResult → Work Unit → LoadResult
  | .ok _ context, work => work context
  | .error e context, _ => .error e context

theorem andThen_bind (result : LoadResult) (work : Work Unit) (next : Unit → Work Unit) :
    result.andThen (work >>= next) = (result.andThen work).andThen (next ()) := by
  cases result with
  | ok u context =>
    show EStateM.bind work next context = andThen (work context) (next ())
    unfold EStateM.bind
    cases work context <;> rfl
  | error e context => rfl

theorem context_work (work : Work Unit) (before : Context) :
    context (work before) = work.after before := by
  unfold context Work.after
  cases work before <;> rfl

theorem knows_work {work : Work Unit} {before : Context} {name : String}
    (keeps : work.KeepsKnown) (knows : before.Knows name) : (context (work before)).Knows name := by
  rw [context_work]
  exact keeps before name knows

theorem knows_andThen {result : LoadResult} {work : Work Unit} {name : String}
    (keeps : work.KeepsKnown) (knows : result.context.Knows name) :
    (result.andThen work).context.Knows name := by
  cases result with
  | ok u context => exact knows_work keeps knows
  | error e context => exact knows

end LoadResult

/-- What the loading of a new function is. -/
inductive Target where
  /-- There is no text to go through. -/
  | direct (work : Work Unit)
  | text (body : String)

namespace Formula

/-- What the loading of a new function is. -/
def target (formula : Formula) (name : String) : Target :=
  match formula.registry.builtin? name, formula.registry.body? name with
  | some builtin, _ => .direct (loadBuiltin name builtin)
  | none, some body => .text body
  | none, none => .direct (missing formula.config.unresolved name)

/-- What is done for a function after all that its text refers to. -/
def runText (formula : Formula) (fuel : Nat) (name body : String) : Work Unit := do
  Work.mark name .loaded
  let _ ← Work.run (formula.limits fuel) body
  return ()

/-- The loading of names in order inside the loading of `chain`: what has come of the work before
it, its visits, and what it comes to. -/
inductive Visits (formula : Formula) (fuel : Nat) :
    List String → List String → LoadResult → List Visit → LoadResult → Prop where
  | done (chain : List String) (context : Context) :
      Visits formula fuel chain [] (.ok () context) [] (.ok () context)
  /-- After a failure no names are looked at. -/
  | fail (chain names : List String) (e : Failure) (context : Context) :
      Visits formula fuel chain names (.error e context) [] (.error e context)
  /-- A function that is loaded or being loaded is left alone. -/
  | skip {chain names name context visits after} (old : context.Knows name)
      (rest : Visits formula fuel chain names (.ok () context) visits after) :
      Visits formula fuel chain (name :: names) (.ok () context) visits after
  | direct {chain names name work context visits after} (new : ¬context.Knows name)
      (target : formula.target name = .direct work)
      (rest : Visits formula fuel chain names (work context) visits after) :
      Visits formula fuel chain (name :: names) (.ok () context)
        (⟨formula.registry, name :: chain, false⟩ :: visits) after
  /-- All that a text refers to is loaded, the function itself excepted, before it is run. -/
  | text {chain names name body context middle inner visits after} (new : ¬context.Knows name)
      (target : formula.target name = .text body)
      (inside : Visits formula fuel (name :: chain) ((references body).filter (· != name))
        (.ok () (context.mark name .loading)) inner middle)
      (rest : Visits formula fuel chain names (middle.andThen (formula.runText fuel name body))
        visits after) :
      Visits formula fuel chain (name :: names) (.ok () context)
        (⟨formula.registry, name :: chain, true⟩ :: (inner ++ visits)) after

variable {formula : Formula} {name : String}

theorem mem_customNames_of_target {body : String} (h : formula.target name = .text body) :
    name ∈ formula.registry.customNames := by
  unfold target at h
  split at h
  · cases h
  · next hbody => exact Registry.mem_customNames_of_body? hbody
  · cases h

/-- Work for a function without a text takes no mark back. -/
theorem keepsKnown_of_target {work : Work Unit} (h : formula.target name = .direct work) :
    work.KeepsKnown := by
  unfold target at h
  split at h
  · next builtin _ =>
    cases h
    refine (Work.keepsKnown_mark name (by decide)).bind fun _ => ?_
    exact (Work.keepsLedger_install name builtin).keepsKnown.bind fun _ =>
      Work.keepsKnown_mark name (by decide)
  · cases h
  · cases h
    refine Work.KeepsLedger.keepsKnown ?_
    unfold missing
    cases formula.config.unresolved with
    | ignore => exact Work.keepsLedger_pure ()
    | warn => exact Work.keepsLedger_ofRun _
    | strict => exact fun _ => rfl

theorem keepsKnown_runText (fuel : Nat) (name body : String) :
    (formula.runText fuel name body).KeepsKnown :=
  (Work.keepsKnown_mark name (by decide)).bind fun _ =>
    ((Work.keepsLedger_run _ body).bind fun _ => Work.keepsLedger_pure ()).keepsKnown

/-! ## What visits leave behind -/

namespace Visits

variable {fuel : Nat} {chain names names' : List String} {before middle after after' : LoadResult}
  {visits visits' : List Visit}

/-- **No visit takes a mark back.** -/
theorem knows_after (h : formula.Visits fuel chain names before visits after)
    (knows : before.context.Knows name) : after.context.Knows name := by
  induction h with
  | done => exact knows
  | fail => exact knows
  | skip _ _ ih => exact ih knows
  | direct _ target _ ih =>
    exact ih (LoadResult.knows_work (keepsKnown_of_target target) knows)
  | text _ _ _ _ ihInside ihRest =>
    have hmiddle := ihInside (knows.mark (by decide))
    exact ihRest (LoadResult.knows_andThen (keepsKnown_runText _ _ _) hmiddle)

/-- What is known when a text is gone through is known after it is run. -/
theorem knows_ran {body loading : String}
    (h : formula.Visits fuel chain names before visits after) (knows : before.context.Knows name) :
    (after.andThen (formula.runText fuel loading body)).context.Knows name :=
  LoadResult.knows_andThen (keepsKnown_runText _ _ _) (h.knows_after knows)

theorem append (first : formula.Visits fuel chain names before visits middle)
    (second : formula.Visits fuel chain names' middle visits' after) :
    formula.Visits fuel chain (names ++ names') before (visits ++ visits') after := by
  induction first with
  | done => exact second
  | fail chain names e context =>
    cases second with
    | fail => exact .fail chain (names ++ names') e context
  | skip old _ ih => exact .skip old (ih second)
  | direct new target _ ih => exact .direct new target (ih second)
  | text new target inside _ _ ihRest =>
    rw [List.cons_append, List.cons_append, List.append_assoc]
    exact .text new target inside (ihRest second)

/-- **The visits of a loading, and what it comes to, are determined.** -/
theorem unique (h : formula.Visits fuel chain names before visits after)
    (h' : formula.Visits fuel chain names before visits' after') :
    visits' = visits ∧ after' = after := by
  induction h generalizing visits' after' with
  | done =>
    cases h'
    exact ⟨rfl, rfl⟩
  | fail =>
    cases h'
    exact ⟨rfl, rfl⟩
  | skip old _ ih =>
    cases h' with
    | skip _ rest => exact ih rest
    | direct new => exact absurd old new
    | text new => exact absurd old new
  | direct new target _ ih =>
    cases h' with
    | skip old => exact absurd old new
    | direct _ target' rest =>
      cases target.symm.trans target'
      obtain ⟨rfl, rfl⟩ := ih rest
      exact ⟨rfl, rfl⟩
    | text _ target' => cases target.symm.trans target'
  | text new target _ _ ihInside ihRest =>
    cases h' with
    | skip old => exact absurd old new
    | direct _ target' => cases target.symm.trans target'
    | text _ target' inside rest =>
      cases target.symm.trans target'
      obtain ⟨rfl, rfl⟩ := ihInside inside
      obtain ⟨rfl, rfl⟩ := ihRest rest
      exact ⟨rfl, rfl⟩

end Visits

/-! ## Loading visits -/

section Loading

variable {fuel depth : Nat} {chain : List String} {context : Context}

theorem injectWithin_of_known (fuel depth : Nat) (old : context.Knows name) :
    formula.injectWithin fuel (depth + 1) name context = .ok () context := by
  unfold injectWithin
  rw [Work.get_bind]
  unfold Context.Knows at old
  cases hstate : context.ledger.state name with
  | loaded => rfl
  | loading => rfl
  | notLoaded => exact absurd hstate old

theorem injectWithin_of_new (fuel depth : Nat) (new : ¬context.Knows name) :
    formula.injectWithin fuel (depth + 1) name context =
      (match formula.target name with
        | .direct work => work
        | .text body =>
          loadBody (Work.run (formula.limits fuel)) (formula.injectWithin fuel depth) name body)
        context := by
  unfold injectWithin target
  rw [Work.get_bind, not_not.mp new]
  cases formula.registry.builtin? name <;> cases formula.registry.body? name <;> rfl

theorem injectWithin_of_direct {work : Work Unit} (fuel depth : Nat) (new : ¬context.Knows name)
    (target : formula.target name = .direct work) :
    formula.injectWithin fuel (depth + 1) name context = work context := by
  rw [injectWithin_of_new fuel depth new, target]

theorem injectWithin_of_text {body : String} (fuel depth : Nat) (new : ¬context.Knows name)
    (target : formula.target name = .text body) :
    formula.injectWithin fuel (depth + 1) name context =
      LoadResult.andThen (((references body).filter (· != name)).forM
        (formula.injectWithin fuel depth) (context.mark name .loading))
          (formula.runText fuel name body) := by
  rw [injectWithin_of_new fuel depth new, target]
  exact LoadResult.andThen_bind (.ok () (context.mark name .loading)) _ fun _ =>
    formula.runText fuel name body

/-- What holds of the loading of each name holds of the loading of all names in order. -/
theorem exists_visits_forM {inject : String → Work Unit}
    (h : ∀ name context, (formula.registry.newNames context.ledger).length < depth →
      ∃ visits, formula.Visits fuel chain [name] (.ok () context) visits (inject name context))
    (names : List String) (before : LoadResult)
    (ample : (formula.registry.newNames before.context.ledger).length < depth) :
    ∃ visits, formula.Visits fuel chain names before visits
      (before.andThen (names.forM inject)) := by
  induction names generalizing before with
  | nil =>
    cases before with
    | ok u context => exact ⟨[], .done chain context⟩
    | error e context => exact ⟨[], .fail chain [] e context⟩
  | cons name names ih =>
    cases before with
    | ok u context =>
      obtain ⟨visits, hfirst⟩ := h name context ample
      obtain ⟨visits', hrest⟩ := ih (inject name context)
        ((Registry.length_newNames_le fun _ knows => hfirst.knows_after knows).trans_lt ample)
      refine ⟨visits ++ visits', ?_⟩
      show formula.Visits fuel chain ([name] ++ names) _ _
        (LoadResult.andThen (.ok () context) (inject name >>= fun _ => names.forM inject))
      rw [LoadResult.andThen_bind]
      exact hfirst.append hrest
    | error e context => exact ⟨[], .fail chain (name :: names) e context⟩

/-- **With more levels than new names, loading visits as if there were no bound.** -/
theorem exists_visits (fuel depth : Nat) (chain : List String) (name : String) (context : Context)
    (ample : (formula.registry.newNames context.ledger).length < depth) :
    ∃ visits, formula.Visits fuel chain [name] (.ok () context) visits
      (formula.injectWithin fuel depth name context) := by
  induction depth generalizing chain name context with
  | zero => exact absurd ample (Nat.not_lt_zero _)
  | succ depth ih =>
    have hend : ∀ result : LoadResult, formula.Visits fuel chain [] result [] result := by
      intro result
      cases result with
      | ok u context => exact .done chain context
      | error e context => exact .fail chain [] e context
    by_cases hold : context.Knows name
    · rw [injectWithin_of_known fuel depth hold]
      exact ⟨[], .skip hold (hend _)⟩
    · cases htarget : formula.target name with
      | direct work =>
        rw [injectWithin_of_direct fuel depth hold htarget]
        exact ⟨_, .direct hold htarget (hend _)⟩
      | text body =>
        -- the name is marked, so that one level less is enough for what is loaded inside
        have hfewer := Registry.length_newNames_mark (by decide : LoadState.loading ≠ .notLoaded)
          (mem_customNames_of_target htarget) (not_not.mp hold)
        obtain ⟨inner, hinside⟩ := exists_visits_forM (ih (name :: chain))
          ((references body).filter (· != name)) (.ok () (context.mark name .loading))
          (show (formula.registry.newNames (context.ledger.mark name .loading)).length < depth by
            omega)
        rw [injectWithin_of_text fuel depth hold htarget]
        exact ⟨_, .text hold htarget hinside (hend _)⟩

end Loading

/-! ## Functions around a visit -/

/-- What holds of the functions that are being loaded around a visit. -/
structure Entered (formula : Formula) (context : Context) (chain : List String) : Prop where
  nodup : chain.Nodup
  known : ∀ name ∈ chain, context.Knows name
  custom : chain ⊆ formula.registry.customNames

namespace Entered

variable {context context' : Context} {chain : List String}

theorem nil (formula : Formula) (context : Context) : formula.Entered context [] where
  nodup := List.nodup_nil
  known := fun _ h => nomatch h
  custom := List.nil_subset _

theorem of_known (entered : formula.Entered context chain)
    (kept : ∀ name, context.Knows name → context'.Knows name) :
    formula.Entered context' chain where
  nodup := entered.nodup
  known := fun name hmem => kept name (entered.known name hmem)
  custom := entered.custom

/-- A new function is not among those around it. -/
theorem nodup_cons (entered : formula.Entered context chain) (new : ¬context.Knows name) :
    (name :: chain).Nodup :=
  List.nodup_cons.mpr ⟨fun hmem => new (entered.known name hmem), entered.nodup⟩

theorem cons (entered : formula.Entered context chain) {body : String} (new : ¬context.Knows name)
    (target : formula.target name = .text body) :
    formula.Entered (context.mark name .loading) (name :: chain) where
  nodup := entered.nodup_cons new
  known := List.forall_mem_cons.mpr ⟨context.knows_mark_self name (by decide),
    fun other hmem => (entered.known other hmem).mark (by decide)⟩
  custom := List.cons_subset.mpr ⟨mem_customNames_of_target target, entered.custom⟩

theorem bounded (entered : formula.Entered context chain) (new : ¬context.Knows name)
    (walks : Bool) : Visit.Bounded ⟨formula.registry, name :: chain, walks⟩ where
  nodup := entered.nodup_cons new
  depth := Nat.succ_le_succ (entered.nodup.length_le_of_subset entered.custom)

end Entered

namespace Visits

variable {fuel : Nat} {chain names : List String} {before after : LoadResult}
  {visits : List Visit}

/-- **No function is visited inside itself, and visits are not too deep.** -/
theorem bounded (h : formula.Visits fuel chain names before visits after)
    (entered : formula.Entered before.context chain) : ∀ visit ∈ visits, visit.Bounded := by
  induction h with
  | done => exact fun _ h => nomatch h
  | fail => exact fun _ h => nomatch h
  | skip _ _ ih => exact ih entered
  | direct new target _ ih =>
    refine List.forall_mem_cons.mpr ⟨entered.bounded new false, ih ?_⟩
    exact entered.of_known fun name knows =>
      LoadResult.knows_work (keepsKnown_of_target target) knows
  | text new target inside _ ihInside ihRest =>
    refine List.forall_mem_cons.mpr ⟨entered.bounded new true, List.forall_mem_append.mpr
      ⟨ihInside (entered.cons new target), ihRest (entered.of_known fun name knows => ?_)⟩⟩
    exact inside.knows_ran (knows.mark (by decide))

/-- A function whose text is gone through has been new before, and is no longer new afterwards. -/
theorem new_of_walked (h : formula.Visits fuel chain names before visits after)
    (mem : name ∈ walkedNames visits) : ¬before.context.Knows name ∧ after.context.Knows name := by
  induction h with
  | done => cases mem
  | fail => cases mem
  | skip _ _ ih => exact ih mem
  | direct _ target _ ih =>
    rw [walkedNames_direct] at mem
    refine ⟨fun knows => (ih mem).1 ?_, (ih mem).2⟩
    exact LoadResult.knows_work (keepsKnown_of_target target) knows
  | text new _ inside rest ihInside ihRest =>
    rw [walkedNames_text, walkedNames_append, List.mem_cons, List.mem_append] at mem
    rcases mem with rfl | hinner | hrest
    · exact ⟨new, rest.knows_after (inside.knows_ran (Context.knows_mark_self _ _ (by decide)))⟩
    · obtain ⟨hnew, hknows⟩ := ihInside hinner
      refine ⟨fun knows => hnew (knows.mark (by decide)), rest.knows_after ?_⟩
      exact LoadResult.knows_andThen (keepsKnown_runText _ _ _) hknows
    · obtain ⟨hnew, hknows⟩ := ihRest hrest
      exact ⟨fun knows => hnew (inside.knows_ran (knows.mark (by decide))), hknows⟩

/-- **No text is gone through twice.** -/
theorem nodup_walkedNames (h : formula.Visits fuel chain names before visits after) :
    (walkedNames visits).Nodup := by
  induction h with
  | done => exact List.nodup_nil
  | fail => exact List.nodup_nil
  | skip _ _ ih => exact ih
  | direct _ _ _ ih => exact ih
  | text _ _ inside rest ihInside ihRest =>
    rw [walkedNames_text, walkedNames_append, List.nodup_cons, List.mem_append, List.nodup_append]
    refine ⟨?_, ihInside, ihRest, ?_⟩
    -- the function is marked when its text is gone through, and so are those inside afterwards
    · rintro (hinner | hrest)
      · exact (inside.new_of_walked hinner).1 (Context.knows_mark_self _ _ (by decide))
      · refine (rest.new_of_walked hrest).1 (inside.knows_ran ?_)
        exact Context.knows_mark_self _ _ (by decide)
    · rintro first hinner second hrest rfl
      refine (rest.new_of_walked hrest).1 ?_
      exact LoadResult.knows_andThen (keepsKnown_runText _ _ _) (inside.new_of_walked hinner).2

end Visits

/-- **The bound on levels is never met.** -/
theorem exists_visits_inject (formula : Formula) (fuel : Nat) (name : String) (context : Context) :
    ∃ visits, formula.Visits fuel [] [name] (.ok () context) visits
      (formula.inject fuel name context) :=
  formula.exists_visits fuel _ [] name context (Nat.lt_succ_of_le (List.length_filter_le _ _))

theorem exists_visits_prepare (formula : Formula) (fuel : Nat) (text : String)
    (context : Context) :
    ∃ visits, formula.Visits fuel [] (references text) (.ok () context) visits
      (formula.prepare fuel text context) :=
  exists_visits_forM (fun name context _ => formula.exists_visits_inject fuel name context)
    (references text) (.ok () context) (Nat.lt_succ_of_le (List.length_filter_le _ _))

end Formula

/-! ## Visits of a course -/

namespace Deed

/-- The names that a deed loads. -/
def names : Deed → List String
  | prepare text => references text
  | inject name => [name]
  | _ => []

/-- The loading that is a part of a deed. -/
def loading (deed : Deed) (formula : Formula) (fuel : Nat) : Work Unit :=
  match deed with
  | prepare text => formula.prepare fuel text
  | inject name => formula.inject fuel name
  | _ => return ()

end Deed

namespace Course

/-- Whether visits are those of a deed. -/
def Occasions (course : Course) (fuel : Nat) (deed : Deed) (visits : List Visit) : Prop :=
  course.formula.Visits fuel [] deed.names (.ok () course.context) visits
    (deed.loading course.formula fuel course.context)

/-- Whether visits are those of deeds in order. -/
inductive Makes : Course → List (Nat × Deed) → List Visit → Prop where
  | nil (course : Course) : Makes course [] []
  | cons {course fuel deed history visits visits'} (first : course.Occasions fuel deed visits)
      (rest : Makes (course.perform fuel deed) history visits') :
      Makes course ((fuel, deed) :: history) (visits ++ visits')

variable {course : Course} {fuel : Nat} {deed : Deed} {history : List (Nat × Deed)}
  {visits visits' : List Visit} {name : String}

theorem exists_occasions (course : Course) (fuel : Nat) (deed : Deed) :
    ∃ visits, course.Occasions fuel deed visits := by
  cases deed with
  | prepare text => exact course.formula.exists_visits_prepare fuel text course.context
  | inject name => exact course.formula.exists_visits_inject fuel name course.context
  | register => exact ⟨[], .done [] _⟩
  | write => exact ⟨[], .done [] _⟩
  | run => exact ⟨[], .done [] _⟩
  | define => exact ⟨[], .done [] _⟩
  | share => exact ⟨[], .done [] _⟩

/-- What is known after the loading of a deed is known after the deed. -/
theorem knows_perform
    (knows : ((deed.loading course.formula fuel).after course.context).Knows name) :
    (course.perform fuel deed).context.Knows name := by
  cases deed with
  | prepare => exact knows
  | inject => exact knows
  | register => exact knows
  | write => exact knows
  | run script => exact (Work.keepsLedger_run _ script).keepsKnown _ name knows
  | define members => exact (Work.keepsLedger_defineAll members).keepsKnown _ name knows
  | share => exact knows

theorem Occasions.knows_perform (h : course.Occasions fuel deed visits)
    (knows : course.context.Knows name) : (course.perform fuel deed).context.Knows name := by
  have hknows := h.knows_after knows
  rw [LoadResult.context_work] at hknows
  exact Course.knows_perform hknows

namespace Makes

theorem unique (h : course.Makes history visits) (h' : course.Makes history visits') :
    visits' = visits := by
  induction h generalizing visits' with
  | nil =>
    cases h'
    rfl
  | cons first _ ih =>
    cases h' with
    | cons first' rest' => rw [(first.unique first').1, ih rest']

theorem bounded (h : course.Makes history visits) : ∀ visit ∈ visits, visit.Bounded := by
  induction h with
  | nil => exact fun _ h => nomatch h
  | cons first _ ih =>
    exact List.forall_mem_append.mpr ⟨first.bounded (Formula.Entered.nil _ _), ih⟩

theorem new_of_walked (h : course.Makes history visits) (mem : name ∈ walkedNames visits) :
    ¬course.context.Knows name := by
  induction h with
  | nil => cases mem
  | cons first _ ih =>
    rw [walkedNames_append, List.mem_append] at mem
    rcases mem with hfirst | hrest
    · exact (first.new_of_walked hfirst).1
    · exact fun knows => ih hrest (first.knows_perform knows)

theorem nodup_walkedNames (h : course.Makes history visits) : (walkedNames visits).Nodup := by
  induction h with
  | nil => exact List.nodup_nil
  | cons first rest ih =>
    rw [walkedNames_append, List.nodup_append]
    refine ⟨first.nodup_walkedNames, ih, ?_⟩
    rintro _ hfirst _ hrest rfl
    have hknows := (first.new_of_walked hfirst).2
    rw [LoadResult.context_work] at hknows
    exact rest.new_of_walked hrest (knows_perform hknows)

end Makes

theorem exists_makes (course : Course) (history : List (Nat × Deed)) :
    ∃ visits, course.Makes history visits := by
  induction history generalizing course with
  | nil => exact ⟨[], .nil course⟩
  | cons entry history ih =>
    obtain ⟨visits, hfirst⟩ := course.exists_occasions entry.1 entry.2
    obtain ⟨visits', hrest⟩ := ih (course.perform entry.1 entry.2)
    exact ⟨visits ++ visits', .cons hfirst hrest⟩

/-- **Loading ends.** Whatever the functions, their texts and the states of a context are, the
loading of a function comes to what it comes to without a bound on levels, and all that is done with
the context makes finitely many visits. None is inside a visit of the same function, at most one
function more than those that stores are written for is loaded at a time, and no text is gone
through twice. -/
theorem visits_of_history (course : Course) (history : List (Nat × Deed)) :
    (∀ fuel name, ∃ visits, course.formula.Visits fuel [] [name] (.ok () course.context) visits
      (course.formula.inject fuel name course.context)) ∧
    ∃ visits, course.Makes history visits ∧
      (∀ visits', course.Makes history visits' → visits' = visits) ∧
      (∀ visit ∈ visits, visit.chain.Nodup ∧
        visit.chain.length ≤ visit.registry.customNames.length + 1) ∧
      (walkedNames visits).Nodup := by
  refine ⟨fun fuel name => course.formula.exists_visits_inject fuel name course.context, ?_⟩
  obtain ⟨visits, hmakes⟩ := course.exists_makes history
  refine ⟨visits, hmakes, fun _ hmakes' => hmakes.unique hmakes', fun visit hmem => ?_,
    hmakes.nodup_walkedNames⟩
  exact ⟨(hmakes.bounded visit hmem).nodup, (hmakes.bounded visit hmem).depth⟩

end Course

end Formulary
