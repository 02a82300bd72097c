import Formulary.Proofs.Script.Evaluation

/-!
# Scripts that set names before they mention them

* `Program.Renews` : scripts that set each of some global names before anything mentions it;
* `Run.Concludes` : runs that answer alike in linked machines;
* `Program.concludes_run` : so does a script that renews the hidden names.
-/

namespace Formulary

/-! ## Stale names -/

/-- The names that are still stale behind declarations, unless one is mentioned before it is set. -/
def staleAfterDeclarators : List String → List (String × Option Expr) → Option (List String)
  | stale, [] => some stale
  | stale, (name, some initial) :: rest =>
    if Avoid stale initial.expressions then
      staleAfterDeclarators (stale.filter (· ≠ name)) rest
    else none
  | stale, (_, none) :: rest => staleAfterDeclarators stale rest

namespace Stmt

/-- The names that are still stale behind a statement that sets names by an assignment or by
declarations, or sets none. -/
def staleAfterSetting (stale : List String) : Stmt → Option (List String)
  | .expression (.assign .set (.identifier name) value) =>
    if Avoid stale value.expressions then some (stale.filter (· ≠ name)) else none
  | .declaration declarators => staleAfterDeclarators stale declarators
  | other => if Avoid stale other.expressions then some stale else none

/-- The names that are still stale behind a statement, unless it mentions one before it is set. What
a loop begins with may set names for the rounds. -/
def staleAfter (stale : List String) : Stmt → Option (List String)
  | .forLoop (some start) test step body =>
    match start.staleAfterSetting stale with
    | some left =>
      if Avoid left (expressionsOfOption test ++ expressionsOfOption step ++ body.expressions) then
        some left
      else none
    | none => none
  | other => other.staleAfterSetting stale

/-- The expressions inside the function that a statement declares. -/
def hoisted : Stmt → List Expr
  | function definition => definition.expressions
  | _ => []

end Stmt

/-- The names that are still stale behind statements, unless one is mentioned before it is set. -/
def staleAfterBody : List String → List Stmt → Option (List String)
  | stale, [] => some stale
  | stale, statement :: rest =>
    match statement.staleAfter stale with
    | some left => staleAfterBody left rest
    | none => none

/-- Whether a program sets each of some global names before anything mentions it. Its functions are
set before all else and may mention each other. -/
structure Program.Renews (program : Program) (names : List String) : Prop where
  functions : Avoid (names.filter (· ∉ program.functionNames)) (program.body.flatMap Stmt.hoisted)
  body : (staleAfterBody (names.filter (· ∉ program.functionNames)) program.body).isSome

instance (program : Program) (names : List String) : Decidable (program.Renews names) :=
  decidable_of_iff (Avoid (names.filter (· ∉ program.functionNames))
      (program.body.flatMap Stmt.hoisted) ∧
    (staleAfterBody (names.filter (· ∉ program.functionNames)) program.body).isSome)
    ⟨fun h => ⟨h.1, h.2⟩, fun h => ⟨h.functions, h.body⟩⟩

namespace Run

/-! ## Settings -/

section Settings

variable {shifts : Shifts} {stale left : List String} {since : Store} {limit fuel : Nat}

theorem linked_assign_global {name : String} {value : Expr} (avoid : Avoid stale value.expressions)
    (hglobal : (shifts.links since).frame globalFrame globalFrame) :
    Linked shifts stale (stale.filter (· ≠ name)) since Value.Linked
      (evaluate limit fuel globalFrame (.assign .set (.identifier name) value))
      (evaluate limit fuel globalFrame (.assign .set (.identifier name) value)) := by
  cases fuel with
  | zero => exact .throw _
  | succ fuel =>
    refine .deeper ?_
    have heval := (linked_recursion shifts stale limit fuel).1 hglobal
    have hset : ∀ eval : Expr → Run Value,
        evalAssign eval globalFrame .set (.identifier name) value = do
          let result ← eval value
          modifyStore fun store => store.assign globalFrame name result
          return result := fun _ => rfl
    dsimp only
    rw [hset]
    refine .bind_hidden (heval value avoid) fun later a a' grows hvalue => ?_
    refine .bind_hidden (.modifyStore (fun last other hgrows h => ?_) (fun _ => ?_)
      fun last htame => ?_) fun last _ _ hgrows _ => .pure fun _ hend =>
        hvalue.mono (hgrows.trans hend)
    · exact h.assign_global name (hvalue.mono hgrows)
    · exact Store.grows_declare _ _ _
    · exact htame.mono List.filter_sublist.subset

theorem linked_declarators {eval : Expr → Run Value}
    (heval : ∀ stale : List String, ∀ {since : Store},
      (shifts.links since).frame globalFrame globalFrame → Evaluates shifts stale since eval eval)
    {declarators : List (String × Option Expr)}
    (h : staleAfterDeclarators stale declarators = some left)
    (hglobal : (shifts.links since).frame globalFrame globalFrame) :
    Linked shifts stale left since Same (executeDeclaration eval globalFrame declarators)
      (executeDeclaration eval globalFrame declarators) := by
  induction declarators generalizing since stale with
  | nil =>
    cases h
    exact .pure fun _ _ => rfl
  | cons declarator rest ih =>
    obtain ⟨name, initial⟩ := declarator
    cases initial with
    | none =>
      have hdeclared : Linked shifts stale stale since Same
          (modifyStore fun store => store.declareMissing globalFrame name)
          (modifyStore fun store => store.declareMissing globalFrame name) := by
        refine .modifyStore (fun later other grows h => ?_) (fun _ => ?_) fun _ htame => ?_
        · exact h.declareMissing (links_frame_mono hglobal grows) name
        · exact Store.grows_declareMissing _ _
        · exact htame.declareMissing _ _
      exact hdeclared.bind_hidden fun later _ _ grows _ => ih h (links_frame_mono hglobal grows)
    | some initial =>
      unfold staleAfterDeclarators at h
      split at h
      · next avoid =>
        refine .bind_hidden (heval stale hglobal initial avoid) fun later _ _ grows hvalue => ?_
        refine .bind_hidden (.modifyStore (fun last other hgrows h => ?_) (fun _ => ?_)
          fun _ htame => ?_) fun last _ _ hgrows _ =>
            ih h (links_frame_mono hglobal (grows.trans hgrows))
        · exact h.declare_global name (hvalue.mono hgrows)
        · exact Store.grows_declare _ _ _
        · exact htame.mono List.filter_sublist.subset
      · cases h

theorem linked_setting {s : Stmt} (h : s.staleAfterSetting stale = some left)
    (hglobal : (shifts.links since).frame globalFrame globalFrame) :
    Linked shifts stale left since Flow.Linked (execute limit fuel globalFrame s)
      (execute limit fuel globalFrame s) := by
  unfold Stmt.staleAfterSetting at h
  split at h
  · split at h
    · next name value avoid =>
      cases h
      cases fuel with
      | zero => exact .throw _
      | succ fuel =>
        exact .bind_hidden (linked_assign_global avoid hglobal) fun _ _ _ _ hvalue =>
          .pure fun _ grows => .normal (.some (hvalue.mono grows))
    · cases h
  · cases fuel with
    | zero => exact .throw _
    | succ fuel =>
      refine .bind_hidden (linked_declarators (fun stale _ hglobal => ?_) h hglobal)
        fun _ _ _ _ _ => .pure fun _ _ => .normal .none
      exact (linked_recursion shifts stale limit fuel).1 hglobal
  · split at h
    · next avoid =>
      cases h
      exact (linked_recursion shifts stale limit fuel).2.1 hglobal s avoid
    · cases h

theorem linked_statement {s : Stmt} (h : s.staleAfter stale = some left)
    (hglobal : (shifts.links since).frame globalFrame globalFrame) :
    Linked shifts stale left since Flow.Linked (execute limit fuel globalFrame s)
      (execute limit fuel globalFrame s) := by
  unfold Stmt.staleAfter at h
  split at h
  · next start test step body =>
    cases hstart : start.staleAfterSetting stale with
    | none =>
      rw [hstart] at h
      cases h
    | some settled =>
      simp only [hstart] at h
      split at h
      · next avoid =>
        cases h
        cases fuel with
        | zero => exact .throw _
        | succ fuel =>
          obtain ⟨hhead, hbody⟩ := avoid_append.mp avoid
          obtain ⟨htest, hstep⟩ := avoid_append.mp hhead
          -- only the start may set names; test, step and body may run any number of times
          have hloop : Linked shifts stale left since Same
              (loopStart (execute limit fuel globalFrame) (some start))
              (loopStart (execute limit fuel globalFrame) (some start)) :=
            .bind_hidden (linked_setting hstart hglobal) fun _ _ _ _ _ => .pure fun _ _ => rfl
          refine .bind_hidden hloop fun later _ _ grows _ => ?_
          have hglobal := links_frame_mono hglobal grows
          have hrecursion := linked_recursion shifts left limit fuel
          exact linked_iterate (linked_loopTest (hrecursion.1 hglobal) htest)
            (hrecursion.2.1 hglobal body hbody) (linked_loopStep (hrecursion.1 hglobal) hstep) fuel
            .none
      · cases h
  · exact linked_setting h hglobal

end Settings

/-! ## Answers -/

/-- Runs that have failed alike or have related answers, whatever machines they leave. -/
inductive Answers {α : Type} (related : α → α → Prop) :
    EStateM.Result Halt Machine α → EStateM.Result Halt Machine α → Prop where
  | ok {a a' : α} (h : related a a') (machine other : Machine) :
      Answers related (.ok a machine) (.ok a' other)
  | error (halt : Halt) (machine other : Machine) :
      Answers related (.error halt machine) (.error halt other)

/-- Whether runs answer alike in linked machines. -/
def Concludes (shifts : Shifts) (hidden : List String) {α : Type} (since : Store)
    (related : α → α → Prop) (run run' : Run α) : Prop :=
  ∀ machine other, machine.Linked shifts hidden other → since.Grows machine.store →
    Answers related (run machine) (run' other)

section Conclusions

variable {shifts : Shifts} {hidden hidden' : List String} {since : Store} {α β : Type}

theorem Linked.concludes {related : Links → α → α → Prop} {related' : β → β → Prop}
    {run run' : Run α} {next next' : α → Run β}
    (first : Linked shifts hidden hidden' since related run run')
    (second : ∀ later a a', since.Grows later → related (shifts.links later) a a' →
      Concludes shifts hidden' later related' (next a) (next' a')) :
    Concludes shifts hidden since related' (run >>= next) (run' >>= next') := by
  intro machine other linked grows
  show Answers _ (EStateM.bind run next machine) (EStateM.bind run' next' other)
  have hfirst := first machine other linked grows
  unfold EStateM.bind
  generalize run machine = result at *
  generalize run' other = result' at *
  cases hfirst with
  | ok hlinked hgrows value =>
    exact second _ _ _ (grows.trans hgrows) value _ _ hlinked (Store.grows_refl _)
  | error halt machine other => exact .error halt machine other

theorem concludes_pure {related : α → α → Prop} {a a' : α} (h : related a a') :
    Concludes shifts hidden since related (pure a) (pure a') :=
  fun machine other _ _ => .ok h machine other

theorem Concludes.bind_answer {related : α → α → Prop} {related' : β → β → Prop} {run run' : Run α}
    {next next' : α → Run β} (first : Concludes shifts hidden since related run run')
    (second : ∀ a a' machine other, related a a' →
      Answers related' (next a machine) (next' a' other)) :
    Concludes shifts hidden since related' (run >>= next) (run' >>= next') := by
  intro machine other linked grows
  show Answers _ (EStateM.bind run next machine) (EStateM.bind run' next' other)
  have hfirst := first machine other linked grows
  unfold EStateM.bind
  generalize run machine = result at *
  generalize run' other = result' at *
  cases hfirst with
  | ok h machine other => exact second _ _ machine other h
  | error halt machine other => exact .error halt machine other

/-- Ends of statements that are the same up to what their references are. -/
def SameFlow (flow flow' : Flow) : Prop :=
  ∃ links, flow.Linked links flow'

/-- Values that are the same up to what their references are. -/
def SameValue (value value' : Value) : Prop :=
  ∃ links, value.Linked links value'

theorem concludes_executeList {limit fuel : Nat} {body : List Stmt}
    (h : (staleAfterBody hidden body).isSome)
    (hglobal : (shifts.links since).frame globalFrame globalFrame)
    {completion completion' : Option Value}
    (hcompletion : Option.Rel (Value.Linked (shifts.links since)) completion completion') :
    Concludes shifts hidden since SameFlow
      (executeList (execute limit fuel globalFrame) body completion)
      (executeList (execute limit fuel globalFrame) body completion') := by
  -- fewer names are hidden behind each statement; where a list is left early, some still are
  induction body generalizing since hidden completion completion' with
  | nil => exact concludes_pure ⟨_, .normal hcompletion⟩
  | cons statement rest ih =>
    unfold staleAfterBody at h
    split at h
    · next left hleft =>
      refine (linked_statement hleft hglobal).concludes fun later _ _ grows hflow => ?_
      cases hflow with
      | normal hvalue =>
        exact ih h (links_frame_mono hglobal grows)
          (rel_or hvalue (rel_imp hcompletion fun _ _ h => h.mono grows))
      | ret hvalue => exact concludes_pure ⟨_, .ret hvalue⟩
      | breakLoop => exact concludes_pure ⟨shifts.links later, .breakLoop⟩
      | continueLoop => exact concludes_pure ⟨shifts.links later, .continueLoop⟩
    · cases h

end Conclusions

end Run

/-- **A script that renews the hidden names answers alike in linked machines.** -/
theorem Program.concludes_run {shifts : Shifts} {names : List String} {since : Store}
    {limit fuel : Nat} {program : Program} (renews : program.Renews names)
    (hglobal : (shifts.links since).frame globalFrame globalFrame) :
    Run.Concludes shifts names since Run.SameValue (program.run limit fuel globalFrame)
      (program.run limit fuel globalFrame) := by
  unfold Program.run Run.executeBody
  rw [bind_assoc]
  have hhoist : Run.Linked shifts names (names.filter (· ∉ program.functionNames)) since Same
      (Run.modifyStore fun store => store.hoist globalFrame program.body)
      (Run.modifyStore fun store => store.hoist globalFrame program.body) := by
    refine .modifyStore (fun later other grows h => ?_) (fun _ => ?_) fun _ htame => ?_
    · exact h.hoist_global program.body
    · exact Store.grows_hoist _ _
    · refine (htame.mono List.filter_sublist.subset).hoist _ fun definition hmem => ?_
      exact fun e he => renews.functions e (List.mem_flatMap.mpr ⟨_, hmem, he⟩)
  refine hhoist.concludes fun later _ _ grows _ => ?_
  refine Run.Concludes.bind_answer (Run.concludes_executeList renews.body
    (links_frame_mono hglobal grows) .none) fun flow flow' machine other hflow => ?_
  obtain ⟨links, hflow⟩ := hflow
  have hcompletion := hflow.completion
  generalize flow.completion = result at hcompletion
  generalize flow'.completion = result' at hcompletion
  cases hcompletion with
  | ok h => exact .ok ⟨links, h⟩ machine other
  | error e => exact .error _ machine other

end Formulary
