import Formulary.Proofs.Script.Reached
import Formulary.Proofs.Source.Building

/-!
# Expressions inside one another

The nesting budget of the grammar bounds how much deeper than its chains an expression is, not how
deep the chains make it: a chain gives its budget back when it ends, and may then be an operand of a
link of the next one.

* `Program.Level` : programs whose expressions are no deeper than can be evaluated;
* `Program.nesting_spared` : how deep the expressions of a text are, and that level programs never
  fail for their nesting;
* `deepText` : a text that is read and fails for its nesting.
-/

namespace Formulary

/-- Whether the expressions of a program are no deeper than can be evaluated. -/
def Program.Level (program : Program) : Prop :=
  ∀ s ∈ program.statements, ∀ e ∈ s.roots, e.depth ≤ Run.nestingLimit

instance (program : Program) : Decidable program.Level :=
  inferInstanceAs (Decidable (∀ s ∈ program.statements, ∀ e ∈ s.roots, e.depth ≤ _))

theorem Program.Level.flawless {program : Program} (h : program.Level) :
    program.Flawless {.depth} := by
  refine ⟨⟨fun e _ => ?_, fun s hs => ⟨fun _ => h s hs, fun hjump => nomatch hjump⟩⟩,
    fun hjump => nomatch hjump⟩
  cases e with
  | assign op target value => exact fun htarget => nomatch htarget
  | update op before target => exact fun htarget => nomatch htarget
  | function definition => exact fun hjump => nomatch hjump
  | _ => trivial

/-- **The expressions of a text are not much deeper than their chains, and a level program never
fails for its nesting** where only level programs are run. -/
theorem Program.nesting_spared {text : String} {program : Program}
    (accepts : Program.parse text = .ok program) :
    (∀ s ∈ program.statements, ∀ e ∈ s.roots, e.depth ≤ e.links + rootSpare) ∧
      (program.Level → ∀ machine : Machine, machine.Reached Program.Level →
        ∀ limit fuel most later,
          program.run limit fuel globalFrame machine ≠ .error (.error (.nesting most)) later) := by
  refine ⟨fun s hs => ((lawful_of_parse accepts).2 s hs).2, ?_⟩
  intro level machine reached limit fuel most later hrun
  have hspares : (Halt.error (.nesting most)).Spares {.depth} :=
    spared_of_reached reached (fun _ h => h.flawless) level.flawless hrun
  exact hspares .depth rfl rfl

/-- A function that is defined in one text is called in another one. -/
theorem nesting_spared_call :
    ∃ defining calling, Program.parse "function f(x) \x7b return -x.y \x7d" = .ok defining ∧
      Program.parse "f(f)" = .ok calling ∧ calling.Level ∧
      (Run.machineOf (defining.run 8 8 globalFrame .fresh)).Reached Program.Level ∧
      ∀ limit fuel most later, calling.run limit fuel globalFrame
        (Run.machineOf (defining.run 8 8 globalFrame .fresh)) ≠
          .error (.error (.nesting most)) later := by
  obtain ⟨defining, hdefining, hlevel⟩ := exists_ok_of_any
    (Program.parse "function f(x) \x7b return -x.y \x7d") Program.Level (by decide +kernel)
  obtain ⟨calling, hcalling, level⟩ := exists_ok_of_any (Program.parse "f(f)") Program.Level
    (by decide +kernel)
  have reached : (Run.machineOf (defining.run 8 8 globalFrame .fresh)).Reached Program.Level :=
    .tail .refl (.run hlevel 8 8)
  exact ⟨defining, calling, hdefining, hcalling, level, reached,
    (Program.nesting_spared hcalling).2 level _ reached⟩

/-- Some links of a chain with the same sign. -/
def equalLinks (sign : Char) (count : Nat) : List Char :=
  (List.replicate count [sign, '1']).flatten

/-- The characters of `deepText`. -/
def deepCharacters : List Char :=
  ['1', '<', '1', '+', '1'] ++ equalLinks '*' 13 ++ equalLinks '+' 248 ++ equalLinks '<' 249

/-- A chain of products inside a chain of sums, and that inside a chain of comparisons. Each of them
alone is within the nesting budget. -/
def deepText : String := String.ofList deepCharacters

/-- Why a run has ended without a value. -/
def Run.halt? {α : Type} : EStateM.Result Halt Machine α → Option Halt
  | .ok _ _ => none
  | .error halt _ => some halt

theorem Run.eq_error_of_halt? {α : Type} {result : EStateM.Result Halt Machine α} {halt : Halt}
    (h : halt? result = some halt) : ∃ later, result = .error halt later := by
  cases result with
  | ok a later => cases h
  | error halt' later =>
    cases h
    exact ⟨later, rfl⟩

/-- The text is read, and fails for its nesting in a new machine. -/
theorem nesting_deepText :
    ∃ program later, Program.parse deepText = .ok program ∧
      Machine.fresh.Reached (fun other => ∃ text, Program.parse text = .ok other) ∧
      program.run 256 600 globalFrame .fresh = .error (.error (.nesting 512)) later := by
  have hread : Program.parse deepText = Source.program (Source.tokenize deepCharacters) := by
    rw [Program.parse, deepText, String.toList_ofList]
  obtain ⟨program, hprogram, hhalt⟩ := exists_ok_of_any
    (Source.program (Source.tokenize deepCharacters))
    (fun program =>
      Run.halt? (program.run 256 600 globalFrame .fresh) = some (.error (.nesting 512)))
    (by decide +kernel)
  obtain ⟨later, hrun⟩ := Run.eq_error_of_halt? hhalt
  exact ⟨program, later, hread.trans hprogram, .refl, hrun⟩

end Formulary
