import Formulary.Proofs.Script.Nesting
import Formulary.Proofs.Script.Overseen

/-!
# Active calls and expressions are counted

A machine counts the calls that are active and the expressions of the innermost one. Here both are
known from the way a run has come, and compared with what the machine has counted.

* `Run.Counts` : machines that have counted right and within the limits;
* `Run.counted` : evaluation that ends when a machine has not, before or behind an expression, a
  statement or a call;
* `Run.matches_counted` : it is evaluation;
* `Machine.counted_of_reached` : nothing is active between two runs, whether or not they fail, and the
  limits are kept during every run.
-/

namespace Formulary

namespace Run

/-- Whether a machine has counted these calls and expressions, and both are within their limits. -/
structure Counts (limit calls nesting : Nat) (machine : Machine) : Prop where
  callsWithin : calls ≤ limit
  nestingWithin : nesting ≤ nestingLimit
  calls : machine.calls = calls
  nesting : machine.nesting = nesting

instance (limit calls nesting : Nat) : DecidablePred (Counts limit calls nesting) := fun machine =>
  decidable_of_iff (calls ≤ limit ∧ nesting ≤ nestingLimit ∧ machine.calls = calls ∧
      machine.nesting = nesting)
    ⟨fun ⟨callsWithin, nestingWithin, calls, nesting⟩ =>
      ⟨callsWithin, nestingWithin, calls, nesting⟩,
    fun ⟨callsWithin, nestingWithin, calls, nesting⟩ =>
      ⟨callsWithin, nestingWithin, calls, nesting⟩⟩

section Watching

variable (halt : Halt) (P : Machine → Prop) [DecidablePred P] {α : Type}

/-- Ends a run with a halt when the machine before or behind it is not of a kind. -/
def watch (run : Run α) : Run α := fun machine =>
  if P machine ∧ P (machineOf (run machine)) then run machine else .error halt machine

/-- Watches whatever is run. -/
def Evaluator.watched (evaluator : Evaluator) : Evaluator where
  evaluate frame e := watch halt P (evaluator.evaluate frame e)
  execute frame s := watch halt P (evaluator.execute frame s)
  invoke ref arguments := watch halt P (evaluator.invoke ref arguments)

end Watching

/-- Runs a step as an expression inside the active ones. Unlike `deeper` it does not look after the
count of calls. -/
def inner {α : Type} (step : Run α) : Run α := fun machine =>
  if nestingLimit ≤ machine.nesting then .error (.error (.nesting nestingLimit)) machine
  else
    match step { machine with nesting := machine.nesting + 1 } with
    | .ok a later => .ok a { later with nesting := machine.nesting }
    | .error halt later => .error halt { later with nesting := machine.nesting }

/-- Evaluation inside some calls, and inside some expressions of the last one. -/
def counted (halt : Halt) (limit : Nat) : Nat → Nat → Nat → Evaluator
  | 0, calls, nesting => Evaluator.exhausted.watched halt (Counts limit calls nesting)
  | fuel + 1, calls, nesting =>
    Evaluator.watched halt (Counts limit calls nesting)
      { evaluate := fun frame e =>
          inner ((counted halt limit fuel calls (nesting + 1)).expression .plain frame e)
        execute := fun frame s => (counted halt limit fuel calls nesting).statement fuel frame s
        invoke := fun ref arguments =>
          calling limit ((counted halt limit fuel (calls + 1) 0).call ref arguments) }

variable {halt : Halt} {limit calls nesting : Nat} {α : Type}

theorem lasting_counts : Lasting (Counts limit calls nesting) where
  store _ _ h _ := ⟨h.callsWithin, h.nestingWithin, h.calls, h.nesting⟩
  log _ _ h := ⟨h.callsWithin, h.nestingWithin, h.calls, h.nesting⟩

section Watched

variable {P : Machine → Prop} [DecidablePred P]

theorem Matches.watch {run other : Run α} (h : Matches P run other) :
    Matches P run (watch halt P other) := by
  intro machine hmachine
  obtain ⟨hsame, hafter⟩ := h machine hmachine
  refine ⟨?_, hafter⟩
  unfold Run.watch
  rw [hsame, if_pos ⟨hmachine, hafter⟩]

theorem Evaluator.Matches.watched {evaluator other : Evaluator} (h : evaluator.Matches P other) :
    evaluator.Matches P (other.watched halt P) :=
  ⟨fun frame e => (h.evaluate frame e).watch, fun frame s => (h.execute frame s).watch,
    fun ref arguments => (h.invoke ref arguments).watch⟩

end Watched

/-- One more expression is active inside, and none behind it. -/
theorem Matches.inner {run other : Run α}
    (h : Matches (Counts limit calls (nesting + 1)) run other) :
    Matches (Counts limit calls nesting) (deeper run) (inner other) := by
  intro machine counts
  unfold Run.deeper Run.inner
  dsimp only
  split
  · exact ⟨rfl, counts⟩
  · next hroom =>
    obtain ⟨hsame, hafter⟩ := h { machine with nesting := machine.nesting + 1 }
      ⟨counts.callsWithin, counts.nesting ▸ Nat.lt_of_not_le hroom, counts.calls, by
        rw [counts.nesting]⟩
    rw [hsame]
    -- the calls are as they were, so that it does not matter whether they are looked after
    generalize run { machine with nesting := machine.nesting + 1 } = result at hafter
    have hcalls := hafter.calls.trans counts.calls.symm
    cases result with
    | ok a later =>
      refine ⟨?_, counts.callsWithin, counts.nestingWithin, counts.calls, counts.nesting⟩
      show EStateM.Result.ok a { later with nesting := machine.nesting } =
        .ok a { later with calls := machine.calls, nesting := machine.nesting }
      rw [← hcalls]
      rfl
    | error halt later =>
      refine ⟨?_, counts.callsWithin, counts.nestingWithin, counts.calls, counts.nesting⟩
      show EStateM.Result.error halt { later with nesting := machine.nesting } =
        .error halt { later with calls := machine.calls, nesting := machine.nesting }
      rw [← hcalls]
      rfl

/-- One more call is active inside, with no expression of its own yet. -/
theorem Matches.counted_calling {run other : Run α}
    (h : Matches (Counts limit (calls + 1) 0) run other) :
    Matches (Counts limit calls nesting) (calling limit run) (calling limit other) := by
  intro machine counts
  unfold Run.calling
  dsimp only
  split
  · exact ⟨rfl, counts⟩
  · next hroom =>
    obtain ⟨hsame, -⟩ := h { machine with calls := machine.calls + 1, nesting := 0 }
      ⟨counts.calls ▸ Nat.lt_of_not_le hroom, Nat.zero_le _, by rw [counts.calls], rfl⟩
    rw [hsame]
    refine ⟨rfl, ?_⟩
    cases run { machine with calls := machine.calls + 1, nesting := 0 } <;>
      exact ⟨counts.callsWithin, counts.nestingWithin, counts.calls, counts.nesting⟩

/-- **What is active is counted right and within the limits.** -/
theorem matches_counted (fuel : Nat) : (Evaluator.plain limit fuel).Matches
    (Counts limit calls nesting) (counted halt limit fuel calls nesting) := by
  induction fuel generalizing calls nesting with
  | zero => exact matches_exhausted.watched
  | succ fuel ih =>
    rw [plain_succ]
    refine Evaluator.Matches.watched ⟨fun frame e => ?_, fun frame s => ?_, fun ref arguments => ?_⟩
    · exact (matches_expression lasting_counts ih (Access.matches_plain lasting_counts) frame e).inner
    · exact matches_statement lasting_counts ih fuel frame s
    · exact (matches_call lasting_counts ih ref arguments).counted_calling

end Run

/-- Runs a program in a frame by an evaluator. -/
def Program.runBy (evaluator : Run.Evaluator) (frame : FrameRef) (program : Program) :
    Run Value := do
  let flow ← Run.executeBody (evaluator.execute frame) frame program.body
  Run.ofExcept flow.completion

theorem Program.matches_counted (halt : Halt) (limit fuel : Nat) (frame : FrameRef)
    (program : Program) :
    Run.Matches (Run.Counts limit 0 0) (program.run limit fuel frame)
      (program.runBy (Run.counted halt limit fuel 0 0) frame) :=
  (Run.matches_executeBody Run.lasting_counts ((Run.matches_counted fuel).execute frame) frame
    program.body).bind fun _ => Run.matches_ofExcept _

namespace Machine

variable {machine : Machine}

/-- A step of a context leaves nothing active. -/
theorem Step.idle {admits : Program → Prop} {later : Machine} (step : machine.Step admits later)
    (idle : machine.calls = 0 ∧ machine.nesting = 0) : later.calls = 0 ∧ later.nesting = 0 := by
  cases step with
  | @run program _ limit fuel =>
    obtain ⟨hcalls, hnesting⟩ := (program.composed_run limit fuel globalFrame).counts machine
    exact ⟨hcalls.trans idle.1, hnesting.trans idle.2⟩
  | _ => exact idle

/-- **Nothing is active between two runs, whether or not they fail,** and what is active during a run
is counted right and within the limits: the program does the same whatever would end it otherwise. -/
theorem counted_of_reached (reached : machine.Reached fun _ => True) :
    machine.calls = 0 ∧ machine.nesting = 0 ∧ ∀ (program : Program) halt limit fuel,
      program.runBy (Run.counted halt limit fuel 0 0) globalFrame machine =
        program.run limit fuel globalFrame machine := by
  have idle : machine.calls = 0 ∧ machine.nesting = 0 := by
    induction reached with
    | refl => exact ⟨rfl, rfl⟩
    | tail _ step ih => exact step.idle ih
  refine ⟨idle.1, idle.2, fun program halt limit fuel => ?_⟩
  exact (program.matches_counted halt limit fuel globalFrame machine
    ⟨Nat.zero_le _, Nat.zero_le _, idle.1, idle.2⟩).1

/-- A call that goes too deep, inside an argument and a negation. -/
theorem counted_of_reached_failed :
    ∃ failing later, Program.parse "function f(x) \x7b return -f([x]) \x7d f(1)" = .ok failing ∧
      failing.run 3 40 globalFrame .fresh = .error (.error (.callDepth 3)) later ∧
      later.calls = 0 ∧ later.nesting = 0 ∧ ∀ (program : Program) halt limit fuel,
        program.runBy (Run.counted halt limit fuel 0 0) globalFrame later =
          program.run limit fuel globalFrame later := by
  obtain ⟨failing, hparse, hhalt⟩ := exists_ok_of_any
    (Program.parse "function f(x) \x7b return -f([x]) \x7d f(1)")
    (fun failing =>
      Run.halt? (failing.run 3 40 globalFrame .fresh) = some (.error (.callDepth 3)))
    (by decide +kernel)
  obtain ⟨later, hrun⟩ := Run.eq_error_of_halt? hhalt
  have reached : later.Reached fun _ => True := by
    have hlater : Run.machineOf (failing.run 3 40 globalFrame .fresh) = later := by rw [hrun]; rfl
    exact hlater ▸ .tail .refl (.run trivial 3 40)
  exact ⟨failing, later, hparse, hrun, counted_of_reached reached⟩

end Machine

end Formulary
