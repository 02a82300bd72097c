import Formulary.Proofs.Script.Built
import Formulary.Proofs.Source.Building

/-!
# What is written to is a place

The grammar looks at the target of an assignment when it meets the operator, and forgets the
parentheses around it before that.

* `Program.IsRead` : programs that texts write;
* `Program.Lawful.flawless` : what is lawful writes to places only;
* `Program.target_spared` : so the programs of texts never fail for what they write to.
-/

namespace Formulary

/-- Whether a program is what a text writes. -/
def Program.IsRead (program : Program) : Prop :=
  ∃ text, Program.parse text = .ok program

/-- The expression that an assignment or a step by one writes to. -/
def Expr.target? : Expr → Option Expr
  | .assign _ target _ => some target
  | .update _ _ target => some target
  | _ => none

theorem Expr.Lawful.isAssignable {e target : Expr} (h : e.Lawful) (htarget : target ∈ e.target?) :
    target.isAssignable = true := by
  cases e with
  | assign op written value =>
    cases htarget
    exact h
  | update op before written =>
    cases htarget
    exact h
  | _ => cases htarget

/-- What is lawful writes to places only. -/
theorem Program.Lawful.flawless {program : Program} (h : program.Lawful) :
    program.Flawless {.target} := by
  refine ⟨⟨fun e he => ?_, fun s _ => ⟨fun hdepth => (nomatch hdepth), fun hjump => nomatch hjump⟩⟩,
    fun hjump => nomatch hjump⟩
  have hlawful := h.1 e he
  cases e with
  | assign op target value => exact fun _ => hlawful
  | update op before target => exact fun _ => hlawful
  | function definition => exact fun hjump => nomatch hjump
  | _ => trivial

theorem Program.IsRead.flawless {program : Program} (h : program.IsRead) :
    program.Flawless {.target} := by
  obtain ⟨text, accepts⟩ := h
  exact (lawful_of_parse accepts).flawless

/-- **The program of a text writes to names, members and indexed elements only, and never fails for
what it writes to** in a machine that is built with such programs. -/
theorem Program.target_spared {text : String} {program : Program}
    (accepts : Program.parse text = .ok program) :
    (∀ e ∈ program.expressions, ∀ target ∈ e.target?, target.isAssignable = true) ∧
      ∀ machine : Machine, machine.Built Program.IsRead → ∀ limit fuel frame later,
        program.run limit fuel frame machine ≠ .error (.error .invalidTarget) later := by
  refine ⟨fun e he target htarget => ((lawful_of_parse accepts).1 e he).isAssignable htarget, ?_⟩
  intro machine built limit fuel frame later hrun
  have read : program.IsRead := ⟨text, accepts⟩
  have hspares : (Halt.error .invalidTarget).Spares {.target} :=
    spared_of_built built (fun _ h => h.flawless) read.flawless hrun
  exact hspares .target rfl rfl

/-- A function that writes to an element inside a parenthesised member is called in the target of
another text. -/
theorem target_spared_parenthesized :
    ∃ defining calling,
      Program.parse "function f(o) \x7b (o.a) = o['b'] += 'x'; return o \x7d" = .ok defining ∧
      Program.parse "((f(\x7bb: ''\x7d)).a) = ++f.n" = .ok calling ∧
      (∃ e ∈ calling.expressions, e.target?.isSome = true) ∧
      (Run.machineOf (defining.run 8 8 globalFrame .fresh)).Built Program.IsRead ∧
      ∀ limit fuel frame later, calling.run limit fuel frame
        (Run.machineOf (defining.run 8 8 globalFrame .fresh)) ≠
          .error (.error .invalidTarget) later := by
  obtain ⟨defining, hdefining, -⟩ := exists_ok_of_any
    (Program.parse "function f(o) \x7b (o.a) = o['b'] += 'x'; return o \x7d")
    (fun _ => True) (by decide +kernel)
  obtain ⟨calling, hcalling, written⟩ := exists_ok_of_any
    (Program.parse "((f(\x7bb: ''\x7d)).a) = ++f.n")
    (fun program => ∃ e ∈ program.expressions, e.target?.isSome = true) (by decide +kernel)
  have built : (Run.machineOf (defining.run 8 8 globalFrame .fresh)).Built Program.IsRead :=
    .run .fresh ⟨_, hdefining⟩ 8 8 globalFrame
  exact ⟨defining, calling, hdefining, hcalling, written, built,
    (Program.target_spared hcalling).2 _ built⟩

end Formulary
