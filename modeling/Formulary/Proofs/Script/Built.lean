import Formulary.Proofs.Script.Reached
import Formulary.Proofs.Source.Definitions

/-!
# Machines built with programs of a kind

* `Callable.IsOf` : functions that stand in programs of a kind, or in none at all;
* `Machine.Built` : machines in which only such programs are run, and into which a host brings no
  other functions;
* `Machine.fit_of_built` : their functions lack the flaws that the programs lack;
* `Program.spared_of_built` : so no such program ends because of them.
-/

namespace Formulary

/-- Whether a function stands in a program of a kind, or is none of a script. -/
def Callable.IsOf (admits : Program → Prop) : Callable → Prop
  | script definition _ => ∃ program, admits program ∧ definition ∈ program.definitions
  | intrinsic _ => True
  | builtin _ _ => True

/-- Machines that are built with programs of a kind. A host may do to a machine what it likes
between two runs, as long as the functions that it brings are of such programs or of no script; the
count of active expressions is not its own. -/
inductive Machine.Built (admits : Program → Prop) : Machine → Prop where
  | fresh : Built admits .fresh
  | run {machine : Machine} {program : Program} (built : Built admits machine)
      (admitted : admits program) (limit fuel : Nat) (frame : FrameRef) :
      Built admits (Run.machineOf (program.run limit fuel frame machine))
  | host {machine later : Machine} (built : Built admits machine)
      (functions : ∀ callable ∈ later.store.functions,
        callable ∈ machine.store.functions ∨ callable.IsOf admits)
      (nesting : later.nesting = machine.nesting) : Built admits later

/-! ## Functions that lack flaws -/

section Flawless

variable {flaws : Set Flaw} {admits : Program → Prop} {program : Program}

/-- The functions of a program lack the flaws that it lacks. -/
theorem Program.Flawless.definition (h : program.Flawless flaws) {definition : FunctionDef}
    (hmem : definition ∈ program.definitions) : definition.Flawless flaws := by
  refine ⟨h.all.definition hmem, fun hjump => ?_⟩
  rcases Program.mem_definitions.mp hmem with he | hs
  · exact h.all.1 _ he hjump
  · exact (h.all.2 _ hs).jump hjump definition rfl

theorem Callable.IsOf.flawless (h : ∀ program, admits program → program.Flawless flaws)
    {callable : Callable} (isOf : callable.IsOf admits) : callable.Flawless flaws := by
  cases callable with
  | script definition scope =>
    obtain ⟨program, admitted, hmem⟩ := isOf
    exact (h program admitted).definition hmem
  | intrinsic function => trivial
  | builtin name function => trivial

theorem Store.Holds.of_mem {P : Callable → Prop} {store : Store} (holds : store.Holds P) :
    ∀ callable ∈ store.functions, P callable := by
  intro callable hmem
  obtain ⟨index, hget⟩ := Array.mem_iff_getElem?.mp hmem
  have hcallable := holds ⟨index⟩
  rwa [Store.callable, hget] at hcallable

namespace Machine

variable {machine : Machine}

/-- **The functions of a machine that is built with such programs lack the flaws that the programs
lack.** -/
theorem fit_of_built (built : machine.Built admits)
    (h : ∀ program, admits program → program.Flawless flaws) : machine.Fit flaws 0 := by
  induction built with
  | fresh => exact fit_fresh flaws
  | run built admitted limit fuel frame ih => exact ih.run (h _ admitted) limit fuel frame
  | host built functions nesting ih =>
    refine ⟨Store.holds_of_functions (fun callable hmem => ?_) ?_, nesting.trans ih.nesting⟩
    · rcases functions callable hmem with hold | hnew
      · exact ih.store.of_mem callable hold
      · exact hnew.flawless h
    · exact ⟨FunctionDef.all_mk.mpr fun _ hmem => (nomatch hmem), fun _ _ hmem => (nomatch hmem)⟩

end Machine

/-- **In a machine that is built with programs without some flaws, none of them ends because of such
a flaw.** -/
theorem Program.spared_of_built {machine : Machine} (built : machine.Built admits)
    (h : ∀ program, admits program → program.Flawless flaws) (hprogram : program.Flawless flaws)
    {limit fuel : Nat} {frame : FrameRef} {halt : Halt} {later : Machine}
    (hrun : program.run limit fuel frame machine = .error halt later) : halt.Spares flaws := by
  have hspared :=
    program.spares_run hprogram limit fuel frame machine (Machine.fit_of_built built h)
  rw [hrun] at hspared
  cases hspared with
  | error _ spares => exact spares

end Flawless

end Formulary
