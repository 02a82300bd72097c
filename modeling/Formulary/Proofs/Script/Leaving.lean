import Formulary.Proofs.Script.Built

/-!
# Jumps have something to leave

* `Jump.Leaves`, `Stmt.isPlaced` : jumps with a loop of the same function, or a function, around
  them;
* `Program.Placed` : programs whose jumps are all of this kind;
* `Stmt.leaves_of_isPlaced` : the jumps with which such a statement may end leave what is around it;
* `Program.jump_spared` : such programs never fail for a jump.
-/

namespace Formulary

/-- Whether a jump has something to leave: `break` and `continue` a loop of the same function,
`return` a function. -/
def Jump.Leaves (loop function : Bool) : Jump → Bool
  | ret => function
  | breakLoop => loop
  | continueLoop => loop

mutual

/-- Whether the jumps in a statement have something to leave, where `loop` says whether a loop of
the same function is around the statement and `function` whether a function is. Functions inside
the statement do not count. -/
def Stmt.isPlaced (loop function : Bool) : Stmt → Bool
  | .ret _ => Jump.ret.Leaves loop function
  | .ifElse _ consequent alternate =>
    consequent.isPlaced loop function && isPlacedBranch loop function alternate
  | .whileLoop _ body => body.isPlaced true function
  | .forLoop start _ _ body =>
    isPlacedBranch loop function start && body.isPlaced true function
  | .block body => isPlacedBody loop function body
  | .breakLoop => Jump.breakLoop.Leaves loop function
  | .continueLoop => Jump.continueLoop.Leaves loop function
  | .expression _ => true
  | .declaration _ => true
  | .function _ => true
  | .empty => true

/-- Whether the jumps in an optional statement have something to leave. -/
def isPlacedBranch (loop function : Bool) : Option Stmt → Bool
  | some statement => statement.isPlaced loop function
  | none => true

/-- Whether the jumps in statements have something to leave. -/
def isPlacedBody (loop function : Bool) : List Stmt → Bool
  | [] => true
  | statement :: rest => statement.isPlaced loop function && isPlacedBody loop function rest

end

/-- Whether each `break` and `continue` of a program is inside a loop of the same function, and each
`return` inside a function. -/
structure Program.Placed (program : Program) : Prop where
  body : isPlacedBody false false program.body = true
  functions : ∀ definition ∈ program.definitions, isPlacedBody false true definition.body = true

instance (program : Program) : Decidable program.Placed :=
  decidable_of_iff (isPlacedBody false false program.body = true ∧
      ∀ definition ∈ program.definitions, isPlacedBody false true definition.body = true)
    ⟨fun h => ⟨h.1, h.2⟩, fun h => ⟨h.body, h.functions⟩⟩

/-! ## The jumps with which statements end -/

/-- A loop is left by `return` only, which leaves the function around it. -/
theorem leaves_of_loop {loop function : Bool} {jumps : List Jump}
    (h : ∀ jump ∈ jumps, jump.Leaves true function = true) :
    ∀ jump ∈ jumps.filter (· = .ret), jump.Leaves loop function = true := by
  intro jump hmem
  obtain ⟨hjump, hret⟩ := List.mem_filter.mp hmem
  have hfunction := h jump hjump
  rw [of_decide_eq_true hret] at hfunction ⊢
  exact hfunction

mutual

/-- **The jumps with which a statement may end leave what is around it.** -/
theorem Stmt.leaves_of_isPlaced {loop function : Bool} (s : Stmt)
    (h : s.isPlaced loop function = true) :
    ∀ jump ∈ s.jumps, jump.Leaves loop function = true := by
  cases s with
  | ret value => exact List.forall_mem_singleton.mpr h
  | ifElse test consequent alternate =>
    obtain ⟨hconsequent, halternate⟩ := Bool.and_eq_true_iff.mp h
    exact List.forall_mem_append.mpr
      ⟨consequent.leaves_of_isPlaced hconsequent, leaves_of_isPlacedBranch alternate halternate⟩
  | whileLoop test body => exact leaves_of_loop (body.leaves_of_isPlaced h)
  | forLoop start test step body =>
    exact leaves_of_loop (body.leaves_of_isPlaced (Bool.and_eq_true_iff.mp h).2)
  | block body => exact leaves_of_isPlacedBody body h
  | breakLoop => exact List.forall_mem_singleton.mpr h
  | continueLoop => exact List.forall_mem_singleton.mpr h
  | _ => exact List.forall_mem_nil _

theorem leaves_of_isPlacedBranch {loop function : Bool} (s : Option Stmt)
    (h : isPlacedBranch loop function s = true) :
    ∀ jump ∈ jumpsOfBranch s, jump.Leaves loop function = true := by
  cases s with
  | some s => exact s.leaves_of_isPlaced h
  | none => exact List.forall_mem_nil _

theorem leaves_of_isPlacedBody {loop function : Bool} (body : List Stmt)
    (h : isPlacedBody loop function body = true) :
    ∀ jump ∈ jumpsOfBody body, jump.Leaves loop function = true := by
  cases body with
  | nil => exact List.forall_mem_nil _
  | cons statement rest =>
    obtain ⟨hfirst, hrest⟩ := Bool.and_eq_true_iff.mp h
    exact List.forall_mem_append.mpr
      ⟨statement.leaves_of_isPlaced hfirst, leaves_of_isPlacedBody rest hrest⟩

end

/-- A function whose jumps have something to leave is left by `return` only. -/
theorem FunctionDef.contained_of_isPlaced {definition : FunctionDef}
    (h : isPlacedBody false true definition.body = true) : definition.Contained := by
  intro jump hmem
  have hleaves := leaves_of_isPlacedBody _ h jump hmem
  cases jump with
  | ret => rfl
  | breakLoop => cases hleaves
  | continueLoop => cases hleaves

theorem Program.Placed.flawless {program : Program} (h : program.Placed) :
    program.Flawless {.jump} := by
  have contained : ∀ definition ∈ program.definitions, definition.Contained :=
    fun definition hmem => definition.contained_of_isPlaced (h.functions definition hmem)
  refine ⟨⟨fun e he => ?_, fun s hs => ⟨fun hdepth => (nomatch hdepth), ?_⟩⟩, fun _ => ?_⟩
  · cases e with
    | assign op target value => exact fun htarget => nomatch htarget
    | update op before target => exact fun htarget => nomatch htarget
    | function definition => exact fun _ => contained _ (mem_definitions.mpr (.inl he))
    | _ => trivial
  · rintro - definition rfl
    exact contained _ (mem_definitions.mpr (.inr hs))
  · refine List.eq_nil_iff_forall_not_mem.mpr fun jump hmem => ?_
    have hleaves := leaves_of_isPlacedBody _ h.body jump hmem
    cases jump <;> cases hleaves

/-- **A program whose jumps have something to leave never fails for a jump** in a machine that is
built with such programs. -/
theorem Program.jump_spared {program : Program} (placed : program.Placed) {machine : Machine}
    (built : machine.Built Program.Placed) (limit fuel : Nat) (frame : FrameRef) (jump : Jump)
    (later : Machine) :
    program.run limit fuel frame machine ≠ .error (.error (.illegalJump jump)) later := by
  intro hrun
  have hspares : (Halt.error (.illegalJump jump)).Spares {.jump} :=
    spared_of_built built (fun _ h => h.flawless) placed.flawless hrun
  exact hspares .jump rfl rfl

/-- A function with a loop that is left in three ways is called in a loop of another text. -/
theorem jump_spared_nested :
    ∃ defining calling,
      Program.parse "function f(a) \x7b for (;;) \x7b if (a) break; continue; return a \x7d \x7d" =
        .ok defining ∧
      Program.parse "while (f) \x7b f([f]); if (f) break \x7d" = .ok calling ∧
      calling.Placed ∧ (Run.machineOf (defining.run 8 8 globalFrame .fresh)).Built Program.Placed ∧
      ∀ limit fuel frame jump later, calling.run limit fuel frame
        (Run.machineOf (defining.run 8 8 globalFrame .fresh)) ≠
          .error (.error (.illegalJump jump)) later := by
  obtain ⟨defining, hdefining, hplaced⟩ := exists_ok_of_any
    (Program.parse "function f(a) \x7b for (;;) \x7b if (a) break; continue; return a \x7d \x7d")
    Program.Placed (by decide +kernel)
  obtain ⟨calling, hcalling, placed⟩ := exists_ok_of_any
    (Program.parse "while (f) \x7b f([f]); if (f) break \x7d") Program.Placed (by decide +kernel)
  have built : (Run.machineOf (defining.run 8 8 globalFrame .fresh)).Built Program.Placed :=
    .run .fresh hplaced 8 8 globalFrame
  exact ⟨defining, calling, hdefining, hcalling, placed, built, Program.jump_spared placed built⟩

end Formulary
