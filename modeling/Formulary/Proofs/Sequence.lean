/-!
# One step behind another

A step has an answer or fails, and changes its state either way.

* `bind_of_ok`, `bind_of_error` : what two steps come to where the first one has an answer, and
  where it fails;
* `bind_eq_ok` : two steps have an answer when both of them have.
-/

namespace Formulary

variable {ε σ α β : Type} {step : EStateM ε σ α} {next : α → EStateM ε σ β} {before middle after : σ}
  {a : α} {b : β} {e : ε}

theorem bind_of_ok (h : step before = .ok a middle) : (step >>= next) before = next a middle := by
  show EStateM.bind step next before = _
  rw [EStateM.bind, h]

theorem bind_of_error (h : step before = .error e middle) :
    (step >>= next) before = .error e middle := by
  show EStateM.bind step next before = _
  rw [EStateM.bind, h]

/-- A sequence of two steps has an answer when both of them have. -/
theorem bind_eq_ok :
    (step >>= next) before = .ok b after ↔
      ∃ a middle, step before = .ok a middle ∧ next a middle = .ok b after := by
  cases hstep : step before with
  | ok a middle =>
    rw [bind_of_ok hstep]
    constructor
    · exact fun h => ⟨a, middle, rfl, h⟩
    · rintro ⟨_, _, ⟨⟩, h⟩
      exact h
  | error e middle =>
    rw [bind_of_error hstep]
    constructor
    · rintro ⟨⟩
    · rintro ⟨_, _, ⟨⟩, -⟩

end Formulary
