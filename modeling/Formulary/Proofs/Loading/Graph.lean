import Formulary.Context.Ledger
import Formulary.Function.Reference
import Mathlib.Logic.Relation

/-!
# The graph of references

* `Registry.Serves` : the names that a registry resolves;
* `Registry.Refers`, `Registry.Reaches` : what the text of a function refers to, and what a text
  refers to directly or through functions;
* `Registry.requires?` : the names that are loaded before a function (`mem_of_requires?`);
* `Registry.Walks` : names reached through functions that are not loaded (`Walks.mono`);
* `Registry.Acyclic` : no function is reached from itself, except by naming itself.
-/

namespace Formulary.Registry

/-- Whether there is a built-in function or a text under a name. -/
def Serves (registry : Registry) (name : String) : Prop :=
  (registry.builtin? name).isSome ∨ (registry.body? name).isSome

/-- Whether the text of a custom function refers to a name. A built-in function has no text, even
where one is registered under its name. -/
def Refers (registry : Registry) (name other : String) : Prop :=
  registry.builtin? name = none ∧
    ∃ body, registry.body? name = some body ∧ other ∈ references body

instance (registry : Registry) (name : String) : Decidable (registry.Serves name) :=
  inferInstanceAs (Decidable (_ ∨ _))

instance (registry : Registry) (name other : String) : Decidable (registry.Refers name other) :=
  decidable_of_iff (registry.builtin? name = none ∧
    ∃ body ∈ registry.body? name, other ∈ references body) Iff.rfl

/-- Whether a text refers to a name, directly or through functions. -/
def Reaches (registry : Registry) (text name : String) : Prop :=
  ∃ first ∈ references text, Relation.ReflTransGen registry.Refers first name

/-- The names that are loaded before a function. -/
def requires? (registry : Registry) (name : String) : Option (List String) :=
  match registry.builtin? name, registry.body? name with
  | some _, _ => some []
  | none, some body => some ((references body).filter (· != name))
  | none, none => none

variable {registry : Registry} {name other : String}

theorem Refers.serves (h : registry.Refers name other) : registry.Serves name := by
  obtain ⟨-, body, hbody, -⟩ := h
  exact Or.inr (by rw [hbody]; rfl)

theorem not_serves_iff :
    ¬registry.Serves name ↔ registry.builtin? name = none ∧ registry.body? name = none := by
  simp [Serves]

theorem not_serves_of_requires? (h : registry.requires? name = none) : ¬registry.Serves name := by
  rw [not_serves_iff]
  unfold requires? at h
  split at h
  · cases h
  · cases h
  · next hbuiltin hbody => exact ⟨hbuiltin, hbody⟩

theorem serves_of_requires? {names : List String} (h : registry.requires? name = some names) :
    registry.Serves name := by
  unfold requires? at h
  split at h
  · next hbuiltin => exact Or.inl (by rw [hbuiltin]; rfl)
  · next hbody => exact Or.inr (by rw [hbody]; rfl)
  · cases h

/-- What is loaded before a function is what its text refers to, itself excepted. -/
theorem mem_of_requires? {names : List String} (h : registry.requires? name = some names) :
    other ∈ names ↔ registry.Refers name other ∧ other ≠ name := by
  unfold requires? at h
  split at h
  · next builtin _ hbuiltin =>
    cases h
    simp [Refers, hbuiltin]
  · next body hbuiltin hbody =>
    cases h
    simp [Refers, hbuiltin, hbody]
  · cases h

/-! ## Names reached through new functions -/

/-- The names reached from `names` through functions that are not loaded. -/
inductive Walks (registry : Registry) (ledger : Ledger) (names : List String) : String → Prop where
  | root {name : String} (mem : name ∈ names) : Walks registry ledger names name
  | step {name other : String} (walk : Walks registry ledger names name)
      (new : ledger.state name = .notLoaded) (refers : registry.Refers name other) :
      Walks registry ledger names other

/-- A walk may begin at names that another walk reaches, and pass fewer functions. -/
theorem Walks.mono {ledger ledger' : Ledger} {names names' : List String}
    (new : ∀ name, ledger'.state name = .notLoaded → ledger.state name = .notLoaded)
    (roots : ∀ name ∈ names', registry.Walks ledger names name)
    (walk : registry.Walks ledger' names' name) : registry.Walks ledger names name := by
  induction walk with
  | root mem => exact roots _ mem
  | step _ hnew refers ih => exact ih.step (new _ hnew) refers

theorem Walks.reaches {ledger : Ledger} {text : String}
    (walk : registry.Walks ledger (references text) name) : registry.Reaches text name := by
  induction walk with
  | root mem => exact ⟨_, mem, .refl⟩
  | step _ _ refers ih =>
    obtain ⟨first, mem, path⟩ := ih
    exact ⟨first, mem, path.tail refers⟩

/-! ## Cycles -/

/-- Whether the text of a function refers to another function. -/
def RefersOn (registry : Registry) (name other : String) : Prop :=
  registry.Refers name other ∧ other ≠ name

/-- Whether no function that is reached from the given one is reached from itself by way of other
functions. -/
def Acyclic (registry : Registry) (name : String) : Prop :=
  ∀ other, Relation.ReflTransGen registry.RefersOn name other →
    ¬Relation.TransGen registry.RefersOn other other

end Formulary.Registry
