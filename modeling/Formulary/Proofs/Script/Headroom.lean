import Formulary.Proofs.Script.Reached

/-!
# More room for calls changes nothing

How many calls may be inside one another is looked at where a call begins, and nothing goes on
behind that failure. So a run that does not fail for it is the same run where there is more room.
With fuel it is the same.

* `Halt.isCut`, `Run.isCut` : runs that end for lack of room;
* `Run.Roomier` : runs that are the same unless the first one ends for lack of room
  (`Run.Roomier.bind`, `Run.Roomier.deeper`, `Run.Roomier.calling`);
* `Run.roomier_recursion`, `Program.roomier_run` : expressions, statements, calls and programs with
  a greater limit on calls and more fuel;
* `Program.EndsIn`, `Program.endsIn_of_limit_le` : a program that ends within a limit ends in the
  same way within every greater one.
-/

namespace Formulary

/-- Whether a halt is for lack of room: the fuel did not last or, where calls are counted in, too
many of them were inside one another. -/
def Halt.isCut (calls : Bool) : Halt → Bool
  | error (.callDepth _) => calls
  | error _ => false
  | outOfFuel => true

namespace Run

variable {α β : Type} {calls : Bool}

/-- Whether a run has ended for lack of room. -/
def isCut (calls : Bool) : EStateM.Result Halt Machine α → Bool
  | .ok _ _ => false
  | .error halt _ => halt.isCut calls

/-- Whether another run is the same as a run, unless this one ends for lack of room. -/
def Roomier (calls : Bool) (run other : Run α) : Prop :=
  ∀ machine, isCut calls (run machine) = false → other machine = run machine

/-- Whether one limit on calls allows all that another one allows. Where calls are not counted in,
it is the same limit. -/
def Allows (calls : Bool) (limit limit' : Nat) : Prop :=
  limit ≤ limit' ∧ (calls = false → limit = limit')

/-! ## Elementary steps -/

theorem roomier_refl (run : Run α) : Roomier calls run run :=
  fun _ _ => rfl

theorem roomier_outOfFuel (other : Run α) : Roomier calls (throw .outOfFuel) other :=
  fun _ h => nomatch h

theorem Roomier.bind {run other : Run α} {next next' : α → Run β}
    (first : Roomier calls run other) (second : ∀ a, Roomier calls (next a) (next' a)) :
    Roomier calls (run >>= next) (other >>= next') := by
  intro machine h
  have hfirst := first machine
  change isCut calls (EStateM.bind run next machine) = false at h
  show EStateM.bind other next' machine = EStateM.bind run next machine
  unfold EStateM.bind at h ⊢
  cases hrun : run machine with
  | ok a after =>
    rw [hrun] at h hfirst
    rw [hfirst rfl]
    exact second a after h
  | error halt after =>
    rw [hrun] at h hfirst
    rw [hfirst h]

/-- Runs that begin in the same way. -/
theorem Roomier.after {run : Run α} {next next' : α → Run β}
    (h : ∀ a, Roomier calls (next a) (next' a)) : Roomier calls (run >>= next) (run >>= next') :=
  (roomier_refl run).bind h

/-- Runs that end in the same way. -/
theorem Roomier.before {run other : Run α} (h : Roomier calls run other) (next : α → Run β) :
    Roomier calls (run >>= next) (other >>= next) :=
  h.bind fun a => roomier_refl (next a)

theorem isCut_restore (depth nesting : Nat) (result : EStateM.Result Halt Machine α) :
    isCut calls (restore depth nesting result) = isCut calls result := by
  cases result <;> rfl

theorem Roomier.deeper {run other : Run α} (h : Roomier calls run other) :
    Roomier calls (deeper run) (deeper other) := by
  intro machine hcut
  unfold Run.deeper at hcut ⊢
  dsimp only at hcut ⊢
  split
  · rfl
  · next hroom =>
    rw [if_neg hroom, isCut_restore] at hcut
    rw [h _ hcut]

theorem Roomier.calling {limit limit' : Nat} (allows : Allows calls limit limit')
    {run other : Run α} (h : Roomier calls run other) :
    Roomier calls (calling limit run) (calling limit' other) := by
  obtain ⟨le, same⟩ := allows
  intro machine hcut
  unfold Run.calling at hcut ⊢
  dsimp only at hcut ⊢
  by_cases hfull : limit ≤ machine.calls
  · -- only where calls are not counted in does a refused call count as no cut
    rw [if_pos hfull] at hcut
    rw [← same hcut, if_pos hfull, if_pos hfull]
  · rw [if_neg hfull, isCut_restore] at hcut
    have hroom : ¬limit' ≤ machine.calls := by omega
    rw [if_neg hfull, if_neg hroom, h _ hcut]

theorem roomier_mapM {step step' : α → Run β} (h : ∀ a, Roomier calls (step a) (step' a))
    (items : List α) : Roomier calls (items.mapM step) (items.mapM step') := by
  induction items with
  | nil => exact roomier_refl _
  | cons item items ih =>
    rw [List.mapM_cons, List.mapM_cons]
    exact (h item).bind fun _ => ih.before _

/-! ## Expressions around their parts -/

section Expressions

variable {eval eval' : Expr → Run Value} {invoke invoke' : FunctionRef → List Value → Run Value}
  {frame : FrameRef}

theorem roomier_placeOf (heval : ∀ e, Roomier calls (eval e) (eval' e)) (target : Expr) :
    Roomier calls (placeOf eval target) (placeOf eval' target) := by
  cases target with
  | member object name => exact (heval object).before _
  | index object key => exact (heval object).bind fun _ => (heval key).before _
  | _ => exact roomier_refl _

theorem roomier_evalObject (heval : ∀ e, Roomier calls (eval e) (eval' e))
    (properties : List (String × Expr)) :
    Roomier calls (evalObject eval properties) (evalObject eval' properties) :=
  (roomier_mapM (fun property => (heval property.2).before _) properties).before _

theorem roomier_evalUnary (heval : ∀ e, Roomier calls (eval e) (eval' e)) (op : UnaryOp)
    (operand : Expr) :
    Roomier calls (evalUnary eval frame op operand) (evalUnary eval' frame op operand) := by
  unfold evalUnary
  split
  · exact roomier_refl _
  · exact (heval _).before _

theorem roomier_evalLogical (heval : ∀ e, Roomier calls (eval e) (eval' e)) (op : LogicalOp)
    (left right : Expr) : Roomier calls (evalLogical eval op left right)
      (evalLogical eval' op left right) := by
  refine (heval left).bind fun value => ?_
  split
  · exact roomier_refl _
  · exact heval right

theorem roomier_evalConditional (heval : ∀ e, Roomier calls (eval e) (eval' e))
    (test consequent alternate : Expr) :
    Roomier calls (evalConditional eval test consequent alternate)
      (evalConditional eval' test consequent alternate) := by
  refine (heval test).bind fun value => ?_
  split
  · exact heval consequent
  · exact heval alternate

theorem roomier_assigned (heval : ∀ e, Roomier calls (eval e) (eval' e)) (op : AssignOp)
    (place : Place) (value : Expr) :
    Roomier calls (assigned eval frame op place value) (assigned eval' frame op place value) := by
  unfold assigned
  cases op.binary? with
  | none => exact heval value
  | some op => exact .after fun _ => (heval value).before _

theorem roomier_evalAssign (heval : ∀ e, Roomier calls (eval e) (eval' e)) (op : AssignOp)
    (target value : Expr) :
    Roomier calls (evalAssign eval frame op target value)
      (evalAssign eval' frame op target value) :=
  (roomier_placeOf heval target).bind fun place =>
    (roomier_assigned heval op place value).before _

/-! ## Calls around their parts -/

theorem roomier_callValue
    (hinvoke : ∀ ref arguments, Roomier calls (invoke ref arguments) (invoke' ref arguments))
    (name : String) (arguments : List Value) (value : Value) :
    Roomier calls (callValue invoke name arguments value)
      (callValue invoke' name arguments value) := by
  cases value with
  | function ref => exact hinvoke ref arguments
  | _ => exact roomier_refl _

theorem roomier_callMethod
    (hinvoke : ∀ ref arguments, Roomier calls (invoke ref arguments) (invoke' ref arguments))
    (receiver : Value) (name : String) (arguments : List Value) :
    Roomier calls (callMethod invoke receiver name arguments)
      (callMethod invoke' receiver name arguments) := by
  unfold callMethod
  cases Method.find? receiver name with
  | some method => exact roomier_refl _
  | none =>
    exact .after fun _ => .after fun value => roomier_callValue hinvoke name arguments value

theorem roomier_evalCall (heval : ∀ e, Roomier calls (eval e) (eval' e))
    (hinvoke : ∀ ref arguments, Roomier calls (invoke ref arguments) (invoke' ref arguments))
    (arguments : List Expr) (callee : Expr) :
    Roomier calls (evalCall eval invoke arguments callee)
      (evalCall eval' invoke' arguments callee) := by
  have harguments := roomier_mapM heval arguments
  unfold evalCall
  split
  · exact (heval _).bind fun _ => harguments.bind fun _ => roomier_callMethod hinvoke _ _ _
  · exact (heval _).bind fun _ => (heval _).bind fun _ => .after fun _ =>
      harguments.bind fun _ => roomier_callMethod hinvoke _ _ _
  · exact (heval _).bind fun _ => harguments.bind fun _ => roomier_callValue hinvoke _ _ _

end Expressions

/-! ## Statements around their parts -/

section Statements

variable {eval eval' : Expr → Run Value} {exec exec' : Stmt → Run Flow} {frame : FrameRef}

theorem roomier_executeList (hexec : ∀ s, Roomier calls (exec s) (exec' s)) (body : List Stmt)
    (completion : Option Value) :
    Roomier calls (executeList exec body completion) (executeList exec' body completion) := by
  induction body generalizing completion with
  | nil => exact roomier_refl _
  | cons statement rest ih =>
    refine (hexec statement).bind fun flow => ?_
    cases flow with
    | normal value => exact ih _
    | _ => exact roomier_refl _

theorem roomier_executeBody (hexec : ∀ s, Roomier calls (exec s) (exec' s)) (frame : FrameRef)
    (body : List Stmt) :
    Roomier calls (executeBody exec frame body) (executeBody exec' frame body) :=
  .after fun _ => roomier_executeList hexec body none

theorem roomier_callCallable {runBody runBody' : FrameRef → List Stmt → Run Flow}
    (hbody : ∀ frame body, Roomier calls (runBody frame body) (runBody' frame body))
    (arguments : List Value) (callable : Callable) :
    Roomier calls (callCallable runBody arguments callable)
      (callCallable runBody' arguments callable) := by
  cases callable with
  | script definition scope => exact .after fun frame => (hbody frame definition.body).before _
  | _ => exact roomier_refl _

theorem roomier_executeDeclaration (heval : ∀ e, Roomier calls (eval e) (eval' e))
    (declarators : List (String × Option Expr)) :
    Roomier calls (executeDeclaration eval frame declarators)
      (executeDeclaration eval' frame declarators) := by
  induction declarators with
  | nil => exact roomier_refl _
  | cons declarator rest ih =>
    obtain ⟨name, initial⟩ := declarator
    cases initial with
    | some initial => exact (heval initial).bind fun _ => .after fun _ => ih
    | none => exact .after fun _ => ih

/-- The value that is returned, the test of a loop and its step are optional expressions. -/
theorem roomier_ofOption (heval : ∀ e, Roomier calls (eval e) (eval' e)) (e : Option Expr) :
    Roomier calls (returnValue eval e) (returnValue eval' e) ∧
      Roomier calls (loopTest eval e) (loopTest eval' e) ∧
      Roomier calls (loopStep eval e) (loopStep eval' e) := by
  cases e with
  | some e => exact ⟨heval e, (heval e).before _, (heval e).before _⟩
  | none => exact ⟨roomier_refl _, roomier_refl _, roomier_refl _⟩

theorem roomier_executeIf (heval : ∀ e, Roomier calls (eval e) (eval' e))
    (hexec : ∀ s, Roomier calls (exec s) (exec' s)) (test : Expr) (consequent : Stmt)
    (alternate : Option Stmt) :
    Roomier calls (executeIf eval exec test consequent alternate)
      (executeIf eval' exec' test consequent alternate) := by
  refine (heval test).bind fun value => ?_
  split
  · exact hexec consequent
  · cases alternate with
    | some alternate => exact hexec alternate
    | none => exact roomier_refl _

theorem roomier_loopStart (hexec : ∀ s, Roomier calls (exec s) (exec' s)) (start : Option Stmt) :
    Roomier calls (loopStart exec start) (loopStart exec' start) := by
  cases start with
  | some start => exact (hexec start).before _
  | none => exact roomier_refl _

/-- More rounds may be run where there is more fuel. -/
theorem roomier_iterate {test test' : Run Bool} {body body' : Run Flow} {step step' : Run Unit}
    (htest : Roomier calls test test') (hbody : Roomier calls body body')
    (hstep : Roomier calls step step') {rounds rounds' : Nat} (le : rounds ≤ rounds')
    (completion : Option Value) :
    Roomier calls (iterate test body step rounds completion)
      (iterate test' body' step' rounds' completion) := by
  induction rounds generalizing rounds' completion with
  | zero => exact roomier_outOfFuel _
  | succ rounds ih =>
    obtain ⟨rounds', rfl⟩ := Nat.exists_eq_add_of_le' (Nat.le_trans (Nat.le_add_left 1 rounds) le)
    have hrounds : rounds ≤ rounds' := Nat.le_of_succ_le_succ le
    refine htest.bind fun goesOn => ?_
    split
    · refine hbody.bind fun flow => ?_
      cases flow with
      | normal value => exact hstep.bind fun _ => ih hrounds _
      | continueLoop => exact hstep.bind fun _ => ih hrounds _
      | _ => exact roomier_refl _
    · exact roomier_refl _

end Statements

/-! ## Recursion -/

section Recursion

variable {limit limit' fuel fuel' : Nat} {frame : FrameRef}

theorem roomier_evaluate
    (heval : ∀ e, Roomier calls (evaluate limit fuel frame e) (evaluate limit' fuel' frame e))
    (hinvoke : ∀ ref arguments, Roomier calls (invoke limit fuel ref arguments)
      (invoke limit' fuel' ref arguments)) (e : Expr) :
    Roomier calls (evaluate limit (fuel + 1) frame e) (evaluate limit' (fuel' + 1) frame e) := by
  refine .deeper ?_
  cases e with
  | literal literal => exact roomier_refl _
  | identifier name => exact roomier_refl _
  | array elements => exact (roomier_mapM heval elements).before _
  | object properties => exact roomier_evalObject heval properties
  | member object name => exact (heval object).before _
  | index object key => exact (heval object).bind fun _ => (heval key).before _
  | call callee arguments => exact roomier_evalCall heval hinvoke arguments callee
  | unary op operand => exact roomier_evalUnary heval op operand
  | binary op left right => exact (heval left).bind fun _ => (heval right).before _
  | logical op left right => exact roomier_evalLogical heval op left right
  | conditional test consequent alternate =>
    exact roomier_evalConditional heval test consequent alternate
  | assign op target value => exact roomier_evalAssign heval op target value
  | update op before target => exact (roomier_placeOf heval target).before _
  | function definition => exact roomier_refl _

theorem roomier_execute (le : fuel ≤ fuel')
    (heval : ∀ e, Roomier calls (evaluate limit fuel frame e) (evaluate limit' fuel' frame e))
    (hexec : ∀ s, Roomier calls (execute limit fuel frame s) (execute limit' fuel' frame s))
    (s : Stmt) :
    Roomier calls (execute limit (fuel + 1) frame s) (execute limit' (fuel' + 1) frame s) := by
  cases s with
  | expression value => exact (heval value).before _
  | declaration declarators => exact (roomier_executeDeclaration heval declarators).before _
  | function definition => exact roomier_refl _
  | ret value => exact (roomier_ofOption heval value).1.before _
  | ifElse test consequent alternate =>
    exact roomier_executeIf heval hexec test consequent alternate
  | whileLoop test body =>
    exact roomier_iterate (roomier_ofOption heval (some test)).2.1 (hexec body)
      (roomier_refl _) le none
  | forLoop start test step body =>
    exact (roomier_loopStart hexec start).bind fun _ =>
      roomier_iterate (roomier_ofOption heval test).2.1 (hexec body)
        (roomier_ofOption heval step).2.2 le none
  | block body => exact roomier_executeList hexec body none
  | breakLoop => exact roomier_refl _
  | continueLoop => exact roomier_refl _
  | empty => exact roomier_refl _

theorem roomier_invoke (allows : Allows calls limit limit')
    (hexec : ∀ frame s, Roomier calls (execute limit fuel frame s) (execute limit' fuel' frame s))
    (ref : FunctionRef) (arguments : List Value) :
    Roomier calls (invoke limit (fuel + 1) ref arguments)
      (invoke limit' (fuel' + 1) ref arguments) :=
  .calling allows (.after fun _ => roomier_callCallable
    (fun frame body => roomier_executeBody (hexec frame) frame body) arguments _)

/-- **Expressions, statements and calls are the same with a greater limit on calls and with more
fuel,** unless they end for lack of one of them. -/
theorem roomier_recursion (allows : Allows calls limit limit') (hfuel : fuel ≤ fuel') :
    (∀ frame e, Roomier calls (evaluate limit fuel frame e) (evaluate limit' fuel' frame e)) ∧
    (∀ frame s, Roomier calls (execute limit fuel frame s) (execute limit' fuel' frame s)) ∧
    (∀ ref arguments, Roomier calls (invoke limit fuel ref arguments)
      (invoke limit' fuel' ref arguments)) := by
  induction fuel generalizing fuel' with
  | zero =>
    exact ⟨fun _ _ => roomier_outOfFuel _, fun _ _ => roomier_outOfFuel _,
      fun _ _ => roomier_outOfFuel _⟩
  | succ fuel ih =>
    obtain ⟨fuel', rfl⟩ := Nat.exists_eq_add_of_le' (Nat.le_trans (Nat.le_add_left 1 fuel) hfuel)
    have hless : fuel ≤ fuel' := Nat.le_of_succ_le_succ hfuel
    obtain ⟨heval, hexec, hinvoke⟩ := ih hless
    exact ⟨fun frame => roomier_evaluate (heval frame) hinvoke,
      fun frame => roomier_execute hless (heval frame) (hexec frame),
      roomier_invoke allows hexec⟩

end Recursion

end Run

/-! ## Programs -/

/-- **A program is the same with a greater limit on calls and with more fuel,** unless it ends for
lack of one of them. -/
theorem Program.roomier_run (calls : Bool) {limit limit' fuel fuel' : Nat}
    (allows : Run.Allows calls limit limit') (hfuel : fuel ≤ fuel') (frame : FrameRef)
    (program : Program) :
    Run.Roomier calls (program.run limit fuel frame) (program.run limit' fuel' frame) :=
  (Run.roomier_executeBody ((Run.roomier_recursion allows hfuel).2.1 frame) frame
    program.body).before _

/-- Whether a program ends in a machine with a value or an error, and the machine after it, when
`limit` calls may be inside one another and the fuel lasts. -/
def Program.EndsIn (program : Program) (limit : Nat) (frame : FrameRef) (machine : Machine)
    (result : EStateM.Result Halt Machine Value) : Prop :=
  (∀ later, result ≠ .error .outOfFuel later) ∧
    ∃ fuel, program.run limit fuel frame machine = result

/-- Only a lack of fuel cuts a run short where calls are not counted in. -/
theorem Run.isCut_false {α : Type} {result : EStateM.Result Halt Machine α}
    (lasts : ∀ later, result ≠ .error .outOfFuel later) : isCut false result = false := by
  cases result with
  | ok a later => rfl
  | error halt later =>
    cases halt with
    | outOfFuel => exact absurd rfl (lasts later)
    | error e => cases e <;> rfl

theorem Run.isCut_true_iff {α : Type} {result : EStateM.Result Halt Machine α} :
    isCut true result = false ↔ (∀ later, result ≠ .error .outOfFuel later) ∧
      ∀ most later, result ≠ .error (.error (.callDepth most)) later := by
  constructor
  · intro h
    constructor
    · rintro later rfl
      cases h
    · rintro most later rfl
      cases h
  · rintro ⟨lasts, room⟩
    cases result with
    | ok a later => rfl
    | error halt later =>
      cases halt with
      | outOfFuel => exact absurd rfl (lasts later)
      | error e =>
        cases e with
        | callDepth most => exact absurd rfl (room most later)
        | _ => rfl

/-- **A program that ends within a limit on calls ends within every greater one with the same value
or error and leaves the same machine,** and in no other way. -/
theorem Program.endsIn_of_limit_le {limit limit' : Nat} (le : limit ≤ limit') {program : Program}
    {frame : FrameRef} {machine : Machine} {result : EStateM.Result Halt Machine Value}
    (ends : program.EndsIn limit frame machine result)
    (room : ∀ most later, result ≠ .error (.error (.callDepth most)) later)
    (other : EStateM.Result Halt Machine Value) :
    program.EndsIn limit' frame machine other ↔ other = result := by
  obtain ⟨lasts, fuel, hrun⟩ := ends
  -- with at least as much fuel the greater limit has the same result
  have hsame : ∀ more, fuel ≤ more → program.run limit' more frame machine = result := by
    intro more hfuel
    have hroomier := program.roomier_run true ⟨le, nofun⟩ hfuel frame machine
    rw [hrun] at hroomier
    exact hroomier (Run.isCut_true_iff.mpr ⟨lasts, room⟩)
  refine ⟨fun ⟨lasts', fuel', hother⟩ => ?_, fun heq => ?_⟩
  · -- the other result is the one that the greater of both fuels has
    have hroomier := program.roomier_run false ⟨Nat.le_refl limit', fun _ => rfl⟩
      (Nat.le_max_right fuel fuel') frame machine
    rw [hother] at hroomier
    calc other = program.run limit' (max fuel fuel') frame machine :=
          (hroomier (Run.isCut_false lasts')).symm
      _ = result := hsame _ (Nat.le_max_left fuel fuel')
  · rw [heq]
    exact ⟨lasts, fuel, hsame fuel (Nat.le_refl fuel)⟩

/-- A function that calls itself ends with a value where two calls may be inside one another, and so
where nine may. -/
theorem endsIn_of_limit_le_recursive :
    ∃ program, Program.parse "function f(g) \x7b return g && g(false) \x7d f(f)" = .ok program ∧
      program.EndsIn 2 globalFrame .fresh (program.run 2 12 globalFrame .fresh) ∧
      ∀ other, program.EndsIn 9 globalFrame .fresh other ↔
        other = program.run 2 12 globalFrame .fresh := by
  obtain ⟨program, hprogram, hcut⟩ := exists_ok_of_any
    (Program.parse "function f(g) \x7b return g && g(false) \x7d f(f)")
    (fun program => Run.isCut true (program.run 2 12 globalFrame .fresh) = false)
    (by decide +kernel)
  obtain ⟨lasts, room⟩ := Run.isCut_true_iff.mp hcut
  have ends : program.EndsIn 2 globalFrame .fresh (program.run 2 12 globalFrame .fresh) :=
    ⟨lasts, 12, rfl⟩
  exact ⟨program, hprogram, ends, Program.endsIn_of_limit_le (by decide) ends room⟩

end Formulary
