import Formulary.Proofs.Context.Settled
import Formulary.Proofs.Script.Sparing
import Mathlib.Logic.Relation

/-!
# Machines that programs of a kind have run in

* `Machine.Step` : what a context does to its machine;
* `Machine.Reached` : machines that come of a new one when only programs of a kind are run;
* `Machine.fit_of_reached` : their functions lack the flaws that the programs lack.
-/

namespace Formulary

/-- What a context does to its machine: it runs a program, which may fail, gives a global name a
value, makes a value from JSON, makes a built-in function, and takes the messages away. -/
inductive Machine.Step (admits : Program → Prop) (machine : Machine) : Machine → Prop where
  | run {program : Program} (admitted : admits program) (limit fuel : Nat) :
      Step admits machine (Run.machineOf (program.run limit fuel globalFrame machine))
  | define (name : String) (value : Value) :
      Step admits machine { machine with store := machine.store.declare globalFrame name value }
  | ofJson (json : Json) :
      Step admits machine { machine with store := (Value.ofJson json machine.store).2 }
  | install (name : String) (function : Builtin) :
      Step admits machine
        { machine with store := (machine.store.newFunction (.builtin name function)).2 }
  | log (log : Array LogEntry) : Step admits machine { machine with log := log }

/-- Whether a machine comes of a new one by such steps. -/
def Machine.Reached (admits : Program → Prop) (machine : Machine) : Prop :=
  Relation.ReflTransGen (Step admits) .fresh machine

namespace Machine

variable {flaws : Set Flaw} {admits : Program → Prop} {machine later : Machine}

/-- Functions that every script has lack all flaws. -/
theorem fit_of_isIntrinsic (h : machine.store.functions.all Callable.isIntrinsic = true)
    (nesting : machine.nesting = 0) : machine.Fit flaws 0 := by
  refine ⟨Store.holds_of_functions (fun callable hmem => ?_) ?_, nesting⟩
  · have hcallable := Array.all_eq_true'.mp h callable hmem
    cases callable with
    | intrinsic function => trivial
    | _ => cases hcallable
  · exact ⟨FunctionDef.all_mk.mpr fun _ hmem => (nomatch hmem), fun _ _ hmem => (nomatch hmem)⟩

theorem fit_fresh (flaws : Set Flaw) : Machine.fresh.Fit flaws 0 :=
  fit_of_isIntrinsic (by decide +kernel) rfl

/-- A program leaves a machine fit whether or not it fails. -/
theorem Fit.run (fit : machine.Fit flaws 0) {program : Program} (h : program.Flawless flaws)
    (limit fuel : Nat) (frame : FrameRef) :
    (Run.machineOf (program.run limit fuel frame machine)).Fit flaws 0 := by
  have hrun := program.spares_run h limit fuel frame machine fit
  generalize program.run limit fuel frame machine = result at *
  cases hrun with
  | ok hfit _ => exact hfit
  | error hfit _ => exact hfit

theorem Fit.step (fit : machine.Fit flaws 0)
    (h : ∀ program, admits program → program.Flawless flaws)
    (step : machine.Step admits later) : later.Fit flaws 0 := by
  cases step with
  | run admitted limit fuel => exact fit.run (h _ admitted) limit fuel globalFrame
  | define name value => exact ⟨fit.store, fit.nesting⟩
  | ofJson json => exact ⟨fit.store.ofJson json, fit.nesting⟩
  | install name function =>
    have hcallable : (Callable.builtin name function).Flawless flaws := trivial
    exact ⟨fit.store.newFunction hcallable, fit.nesting⟩
  | log log => exact ⟨fit.store, fit.nesting⟩

/-- **Where only programs without some flaws are run, no function ever has them.** -/
theorem fit_of_reached (reached : machine.Reached admits)
    (h : ∀ program, admits program → program.Flawless flaws) : machine.Fit flaws 0 := by
  induction reached with
  | refl => exact fit_fresh flaws
  | tail _ step ih => exact ih.step h step

end Machine

/-- **Where only programs without some flaws are run, none of them ends because of such a flaw.** -/
theorem Program.spared_of_reached {flaws : Set Flaw} {admits : Program → Prop} {machine : Machine}
    (reached : machine.Reached admits) (h : ∀ program, admits program → program.Flawless flaws)
    {program : Program} (hprogram : program.Flawless flaws) {limit fuel : Nat} {halt : Halt}
    {later : Machine}
    (hrun : program.run limit fuel globalFrame machine = .error halt later) :
    halt.Spares flaws := by
  have hspared :=
    program.spares_run hprogram limit fuel globalFrame machine (Machine.fit_of_reached reached h)
  rw [hrun] at hspared
  cases hspared with
  | error _ spares => exact spares

/-- An answer that can be computed, with what can be decided about it. -/
theorem exists_ok_of_any {ε α : Type} (answer : Except ε α) (P : α → Prop) [DecidablePred P]
    (h : answer.toOption.any (fun a => decide (P a)) = true) : ∃ a, answer = .ok a ∧ P a := by
  cases answer with
  | ok a => exact ⟨a, rfl, of_decide_eq_true h⟩
  | error e => cases h

end Formulary
