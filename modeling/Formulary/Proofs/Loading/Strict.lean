import Formulary.Proofs.Context.Outcome
import Formulary.Proofs.Loading.Graph
import Formulary.Proofs.Loading.Recursion
import Mathlib.Logic.Basic

/-!
# The strict policy against the others

* `Formula.withPolicy` : the same engine with another policy for references that nothing serves;
* `Heeds` : what work comes to under the strict policy, against what it comes to under another one;
* `Heeds.bind`, `heeds_forM` : work behind work, and work for names in order;
* `Formula.heeds_injectWithin` : the policies share every step of loading up to the first name that
  nothing serves;
* `Formula.prepare_strict` : a strict preparation ends as the others do, or names what is missing.
-/

namespace Formulary

/-- The same engine with another policy for references that nothing serves. -/
def Formula.withPolicy (formula : Formula) (policy : UnresolvedPolicy) : Formula :=
  { formula with config := { formula.config with unresolved := policy } }

/-- What a piece of work comes to under the strict policy, on the left, against what it comes to
under another one: the same, or the failure that names a function. That function is among those
reached, nothing serves it, and it is new in the context that the failure leaves. -/
inductive Heeds {α : Type} (registry : Registry) (reached : String → Prop) :
    EStateM.Result Failure Context α → EStateM.Result Failure Context α → Prop where
  | same (result : EStateM.Result Failure Context α) : Heeds registry reached result result
  | missing {name : String} {after : Context} {result : EStateM.Result Failure Context α}
      (mem : reached name) (unserved : ¬registry.Serves name)
      (new : after.ledger.state name = .notLoaded) :
      Heeds registry reached (.error (.unresolvedFunction name) after) result

section Heeds

variable {α β : Type} {registry : Registry} {reached reached' : String → Prop}

theorem Heeds.mono {result result' : EStateM.Result Failure Context α}
    (h : Heeds registry reached result result') (le : ∀ name, reached name → reached' name) :
    Heeds registry reached' result result' := by
  cases h with
  | same => exact .same _
  | missing hreached unserved new => exact .missing (le _ hreached) unserved new

theorem Heeds.bind {work work' : Work α} {next next' : α → Work β} {context : Context}
    (first : Heeds registry reached (work context) (work' context))
    (second : ∀ a later, Heeds registry reached (next a later) (next' a later)) :
    Heeds registry reached ((work >>= next) context) ((work' >>= next') context) := by
  show Heeds registry reached (EStateM.bind work next context) (EStateM.bind work' next' context)
  unfold EStateM.bind
  generalize work context = result at *
  generalize work' context = result' at *
  cases first with
  | same =>
    cases result with
    | ok a later => exact second a later
    | error e later => exact .same _
  | missing hreached unserved new => exact .missing hreached unserved new

theorem heeds_forM {names : List String} {inject inject' : String → Work Unit}
    (h : ∀ name ∈ names, ∀ context,
      Heeds registry reached (inject name context) (inject' name context)) (context : Context) :
    Heeds registry reached (names.forM inject context) (names.forM inject' context) := by
  induction names generalizing context with
  | nil => exact .same _
  | cons name names ih =>
    apply (h name List.mem_cons_self context).bind
    intro _ later
    exact ih (fun other hmem => h other (List.mem_cons_of_mem _ hmem)) later

end Heeds

namespace Formula

section Target

variable {formula : Formula} {policy : UnresolvedPolicy} {name : String}

theorem target_withPolicy_of_builtin {builtin : Builtin}
    (hbuiltin : formula.registry.builtin? name = some builtin) :
    (formula.withPolicy policy).target name = .direct (loadBuiltin name builtin) := by
  simp only [target, withPolicy, hbuiltin]

theorem target_withPolicy_of_body {body : String}
    (hbuiltin : formula.registry.builtin? name = none)
    (hbody : formula.registry.body? name = some body) :
    (formula.withPolicy policy).target name = .text body := by
  simp only [target, withPolicy, hbuiltin, hbody]

theorem target_withPolicy_of_missing (hbuiltin : formula.registry.builtin? name = none)
    (hbody : formula.registry.body? name = none) :
    (formula.withPolicy policy).target name = .direct (missing policy name) := by
  simp only [target, withPolicy, hbuiltin, hbody]

end Target

variable (formula : Formula) (fuel : Nat)

/-- **The policies share every step of loading up to the first name that nothing serves.** -/
theorem heeds_injectWithin (policy : UnresolvedPolicy) (depth : Nat) (name : String)
    (context : Context) :
    Heeds formula.registry (Relation.ReflTransGen formula.registry.Refers name)
      ((formula.withPolicy .strict).injectWithin fuel depth name context)
      ((formula.withPolicy policy).injectWithin fuel depth name context) := by
  -- by induction on the levels: what a text refers to is loaded one level further in
  induction depth generalizing name context with
  | zero => exact .same _
  | succ depth ih =>
    by_cases known : context.Knows name
    · rw [injectWithin_of_known fuel depth known, injectWithin_of_known fuel depth known]
      exact .same _
    · rw [injectWithin_of_new fuel depth known, injectWithin_of_new fuel depth known]
      cases hbuiltin : formula.registry.builtin? name with
      | some builtin =>
        rw [target_withPolicy_of_builtin hbuiltin, target_withPolicy_of_builtin hbuiltin]
        exact .same _
      | none =>
        cases hbody : formula.registry.body? name with
        | none =>
          rw [target_withPolicy_of_missing hbuiltin hbody,
            target_withPolicy_of_missing hbuiltin hbody]
          exact .missing .refl (Registry.not_serves_iff.mpr ⟨hbuiltin, hbody⟩) (not_not.mp known)
        | some body =>
          have hrequired : ∀ other ∈ (references body).filter (· != name), ∀ context,
              Heeds formula.registry (Relation.ReflTransGen formula.registry.Refers name)
                ((formula.withPolicy .strict).injectWithin fuel depth other context)
                ((formula.withPolicy policy).injectWithin fuel depth other context) := by
            intro other hmem context
            have hrefers : formula.registry.Refers name other :=
              ⟨hbuiltin, body, hbody, (List.mem_filter.mp hmem).1⟩
            exact (ih other context).mono fun _ path => .head hrefers path
          rw [target_withPolicy_of_body hbuiltin hbody, target_withPolicy_of_body hbuiltin hbody]
          apply Heeds.bind (.same _)
          intro _ marked
          apply (heeds_forM hrequired marked).bind
          intro _ later
          exact .same _

/-- **A strict preparation ends exactly as under the other policies:** with the same answer or
failure, and leaving the same machine, states of functions and programs. Otherwise it fails for a
function that the text refers to, directly or through others, that nothing serves, and that is not
loaded. -/
theorem prepare_strict (text : String) (context : Context) :
    (∀ policy, (formula.withPolicy .strict).prepare fuel text context =
      (formula.withPolicy policy).prepare fuel text context) ∨
    ∃ name after, (formula.withPolicy .strict).prepare fuel text context =
        .error (.unresolvedFunction name) after ∧
      formula.registry.Reaches text name ∧ ¬formula.registry.Serves name ∧
      after.ledger.state name = .notLoaded := by
  rw [or_iff_not_imp_right]
  intro hserved policy
  have hheeds : Heeds formula.registry (formula.registry.Reaches text)
      ((formula.withPolicy .strict).prepare fuel text context)
      ((formula.withPolicy policy).prepare fuel text context) := by
    apply heeds_forM
    intro first hmem context
    apply (formula.heeds_injectWithin fuel policy _ first context).mono
    intro name path
    exact ⟨first, hmem, path⟩
  generalize hstrict : (formula.withPolicy .strict).prepare fuel text context = result at *
  cases hheeds with
  | same => rfl
  | missing hreached unserved new => exact absurd ⟨_, _, rfl, hreached, unserved, new⟩ hserved

end Formula

end Formulary
