import Formulary.Proofs.Script.Hoisted
import Formulary.Proofs.Script.Overseen

/-!
# The names of a frame hide those around it

* `Run.sheltered` : evaluation that reads and writes some names in a frame itself when they are seen
  from there, and stops where the frame does not have them;
* `Run.matches_sheltered` : it is evaluation while the frame has all these names;
* `Store.sheltered_hoist` : which names a frame has when those of a body have been declared in it, and
  that the body then reaches none of them further out.
-/

namespace Formulary

namespace Run

variable (halt : Halt) (limit : Nat) (target : FrameRef) (names : String → Bool)

/-- Seen from a frame, some names are its own; it stops where the frame does not have them. -/
def Access.sheltered : Access where
  read frame name :=
    if frame = target ∧ names name then do
      match (← store).ownBinding? target name with
      | some value => return some value
      | none => throw halt
    else Access.plain.read frame name
  write frame name value :=
    if frame = target ∧ names name then do
      if (← store).hasOwn target name then
        modifyStore fun store => store.declare target name value
      else throw halt
    else Access.plain.write frame name value

/-- Evaluation in which some names seen from a frame are its own. -/
def sheltered : Nat → Evaluator
  | 0 => .exhausted
  | fuel + 1 =>
    { evaluate := fun frame e =>
        deeper ((sheltered fuel).expression (.sheltered halt target names) frame e)
      execute := fun frame s => (sheltered fuel).statement fuel frame s
      invoke := fun ref arguments => calling limit ((sheltered fuel).call ref arguments) }

/-- Whether a frame has all of some names. -/
def Has (machine : Machine) : Prop :=
  ∀ name, names name = true → machine.store.hasOwn target name = true

variable {halt limit target names} {α : Type}

theorem lasting_has : Lasting (Has target names) where
  store _ _ has last name h := last target name (has name h)
  log _ _ has := has

theorem Has.restore {result : EStateM.Result Halt Machine α}
    (has : Has target names (machineOf result)) (calls nesting : Nat) :
    Has target names (machineOf (restore calls nesting result)) := by
  cases result <;> exact has

theorem Matches.deeper {run other : Run α} (h : Matches (Has target names) run other) :
    Matches (Has target names) (deeper run) (deeper other) := by
  intro machine has
  obtain ⟨hsame, hafter⟩ := h { machine with nesting := machine.nesting + 1 } has
  unfold Run.deeper
  dsimp only
  split
  · exact ⟨rfl, has⟩
  · exact ⟨congrArg _ hsame, hafter.restore _ _⟩

theorem Matches.calling {run other : Run α} (h : Matches (Has target names) run other) :
    Matches (Has target names) (calling limit run) (calling limit other) := by
  intro machine has
  obtain ⟨hsame, hafter⟩ := h { machine with calls := machine.calls + 1, nesting := 0 } has
  unfold Run.calling
  dsimp only
  split
  · exact ⟨rfl, has⟩
  · exact ⟨congrArg _ hsame, hafter.restore _ _⟩

/-- A name that a frame has is found there. -/
theorem binding?_of_hasOwn {store : Store} {name : String}
    (h : store.hasOwn target name = true) :
    store.binding? target name = store.ownBinding? target name ∧
      store.holder? target name = some target := by
  obtain ⟨value, hvalue⟩ := Option.isSome_iff_exists.mp h
  constructor
  · show ((target :: _).findSome? fun frame => store.ownBinding? frame name) = _
    rw [List.findSome?_cons, hvalue]
  · show ((target :: _).find? fun frame => store.hasOwn frame name) = _
    rw [List.find?_cons, h]

/-- While the frame has the names, it does not matter whether they are looked for further out. -/
theorem matches_access :
    Access.plain.Matches (Has target names) (.sheltered halt target names) := by
  refine ⟨fun frame name => ?_, fun frame name value => ?_⟩
  · unfold Access.sheltered
    dsimp only
    split
    · next hname =>
      intro machine has
      have howns := has name hname.2
      obtain ⟨value, hvalue⟩ := Option.isSome_iff_exists.mp howns
      rw [hname.1]
      show (match machine.store.ownBinding? target name with
        | some value => pure (some value)
        | none => throw halt : Run (Option Value)) machine =
          .ok (machine.store.binding? target name) machine ∧ Has target names machine
      rw [(binding?_of_hasOwn howns).1, hvalue]
      exact ⟨rfl, has⟩
    · exact (Access.matches_plain lasting_has).read frame name
  · unfold Access.sheltered
    dsimp only
    split
    · next hname =>
      intro machine has
      have howns := has name hname.2
      obtain ⟨hsame, hafter⟩ :=
        (Access.matches_plain lasting_has).write target name value machine has
      rw [hname.1]
      refine ⟨?_, hafter⟩
      show (if machine.store.hasOwn target name then
          modifyStore fun store => store.declare target name value
        else throw halt : Run Unit) machine =
          .ok () { machine with store := machine.store.assign target name value }
      rw [if_pos howns, Store.assign, (binding?_of_hasOwn howns).2]
      rfl
    · exact (Access.matches_plain lasting_has).write frame name value

/-- **While a frame has some names, they are never looked for further out.** -/
theorem matches_sheltered (fuel : Nat) : (Evaluator.plain limit fuel).Matches (Has target names)
    (sheltered halt limit target names fuel) := by
  induction fuel with
  | zero => exact matches_exhausted
  | succ fuel ih =>
    rw [plain_succ]
    exact ⟨fun frame e => (matches_expression lasting_has ih matches_access frame e).deeper,
      matches_statement lasting_has ih fuel,
      fun ref arguments => (matches_call lasting_has ih ref arguments).calling⟩

end Run

namespace Store

/-- **A frame has the names of a body when they have been declared in it, and while the body runs in
it none of these is looked for further out.** The body does the same whatever would end it where the
frame did not have such a name. -/
theorem sheltered_hoist {store : Store} {target : FrameRef}
    (made : target.index < store.frames.size) (body : List Stmt) :
    store.Hoisted (store.hoist target body) target body ∧
      ∀ halt limit fuel log calls nesting,
        Run.executeBody ((Run.sheltered halt limit target
            ((store.hoist target body).hasOwn target) fuel).execute target) target body
            ⟨store, log, calls, nesting⟩ =
          Run.executeBody (Run.execute limit fuel target) target body
            ⟨store, log, calls, nesting⟩ := by
  refine ⟨hoisted_hoist made body, fun halt limit fuel log calls nesting => ?_⟩
  have hexec (s : Stmt) : Run.Matches (Run.Has target ((store.hoist target body).hasOwn target))
      (Run.execute limit fuel target s)
      ((Run.sheltered halt limit target ((store.hoist target body).hasOwn target) fuel).execute
        target s) := (Run.matches_sheltered fuel).execute target s
  exact (Run.matches_executeList hexec body none
    ⟨store.hoist target body, log, calls, nesting⟩ fun _ h => h).1

/-- A body that declares a name in a branch and writes to it behind the branch. -/
def branchingBody : List Stmt :=
  [.ifElse (.literal (.boolean true)) (.block [.declaration [("x", none)]]) none,
    .function (.mk (some "f") [] []),
    .expression (.assign .set (.identifier "x") (.literal .null))]

/-- The name that the outermost frame has keeps its value there. -/
theorem sheltered_hoist_branching :
    threeFrames.Hoisted (threeFrames.hoist ⟨2⟩ branchingBody) ⟨2⟩ branchingBody ∧
      (threeFrames.hoist ⟨2⟩ branchingBody).ownBinding? ⟨2⟩ "x" = some .undefined ∧
      (threeFrames.hoist ⟨2⟩ branchingBody).ownBinding? ⟨2⟩ "f" = some (.function ⟨0⟩) ∧
      ∀ halt, ∃ flow later,
        Run.executeBody ((Run.sheltered halt 1 ⟨2⟩
            ((threeFrames.hoist ⟨2⟩ branchingBody).hasOwn ⟨2⟩) 4).execute ⟨2⟩) ⟨2⟩ branchingBody
            ⟨threeFrames, #[], 0, 0⟩ = .ok flow later ∧
        later.store.ownBinding? ⟨2⟩ "x" = some .null ∧
        later.store.ownBinding? ⟨0⟩ "x" = some (.string "outer") := by
  have made : (⟨2⟩ : FrameRef).index < threeFrames.frames.size := by decide
  obtain ⟨hhoisted, hsame⟩ := sheltered_hoist made branchingBody
  refine ⟨hhoisted, rfl, rfl, fun halt => ?_⟩
  rw [hsame]
  exact ⟨_, _, rfl, rfl, rfl⟩

end Store

end Formulary
