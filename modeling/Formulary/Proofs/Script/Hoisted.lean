import Formulary.Proofs.Value.Nearest

/-!
# A frame behind its declarations

* `Stmt.Declares` : the variables that a statement declares (`Stmt.mem_declaredNames`);
* `DeclaresVariable`, `DeclaresFunction`, `DeclaresLast` : what a list of statements declares, and the
  last function of a name;
* `Store.Confined` : stores that differ in the names of one frame and in new functions;
* `Store.Hoisted`, `Store.hoisted_hoist` : what a frame has when the names of a list of statements
  have been declared in it.
-/

namespace Formulary

/-! ## Declarations in statements -/

/-- Whether a statement declares a variable, at any depth outside inner functions. -/
inductive Stmt.Declares (name : String) : Stmt → Prop where
  | declaration {declarators : List (String × Option Expr)} {initial : Option Expr}
      (mem : (name, initial) ∈ declarators) : Declares name (.declaration declarators)
  | consequent {test : Expr} {consequent : Stmt} {alternate : Option Stmt}
      (inside : Declares name consequent) : Declares name (.ifElse test consequent alternate)
  | alternate {test : Expr} {consequent alternate : Stmt} (inside : Declares name alternate) :
      Declares name (.ifElse test consequent (some alternate))
  | whileBody {test : Expr} {body : Stmt} (inside : Declares name body) :
      Declares name (.whileLoop test body)
  | start {start : Stmt} {test step : Option Expr} {body : Stmt} (inside : Declares name start) :
      Declares name (.forLoop (some start) test step body)
  | forBody {start : Option Stmt} {test step : Option Expr} {body : Stmt}
      (inside : Declares name body) : Declares name (.forLoop start test step body)
  | block {statement : Stmt} {body : List Stmt} (mem : statement ∈ body)
      (inside : Declares name statement) : Declares name (.block body)

/-- Whether some statement declares a variable. -/
def DeclaresVariable (body : List Stmt) (name : String) : Prop :=
  ∃ s ∈ body, s.Declares name

/-- Whether one of the statements themselves is a function of a name. -/
def DeclaresFunction (body : List Stmt) (name : String) : Prop :=
  ∃ definition, Stmt.function definition ∈ body ∧ definition.name = some name

/-- Whether a function is the last one of a name among the statements. -/
def DeclaresLast (body : List Stmt) (name : String) (definition : FunctionDef) : Prop :=
  definition.name = some name ∧
    ∃ before after, body = before ++ .function definition :: after ∧ ¬DeclaresFunction after name

mutual

/-- The names that are declared first are those of the variables. -/
theorem Stmt.mem_declaredNames {name : String} (s : Stmt) :
    name ∈ s.declaredNames ↔ s.Declares name := by
  cases s with
  | declaration declarators =>
    refine List.mem_map.trans ⟨?_, ?_⟩
    · rintro ⟨⟨_, initial⟩, hmem, rfl⟩
      exact .declaration hmem
    · rintro ⟨hmem⟩
      exact ⟨_, hmem, rfl⟩
  | ifElse test consequent alternate =>
    unfold Stmt.declaredNames
    rw [List.mem_append, consequent.mem_declaredNames]
    cases alternate with
    | some alternate =>
      rw [alternate.mem_declaredNames]
      refine ⟨Or.rec .consequent .alternate, fun h => ?_⟩
      cases h with
      | consequent inside => exact .inl inside
      | alternate inside => exact .inr inside
    | none =>
      refine ⟨Or.rec .consequent (fun h => nomatch h), fun h => ?_⟩
      cases h with
      | consequent inside => exact .inl inside
  | whileLoop test body =>
    refine body.mem_declaredNames.trans ⟨.whileBody, fun h => ?_⟩
    cases h with
    | whileBody inside => exact inside
  | forLoop start test step body =>
    unfold Stmt.declaredNames
    rw [List.mem_append, body.mem_declaredNames]
    cases start with
    | some start =>
      rw [start.mem_declaredNames]
      refine ⟨Or.rec .start .forBody, fun h => ?_⟩
      cases h with
      | start inside => exact .inl inside
      | forBody inside => exact .inr inside
    | none =>
      refine ⟨Or.rec (fun h => nomatch h) .forBody, fun h => ?_⟩
      cases h with
      | forBody inside => exact .inr inside
  | block body =>
    refine (mem_declaredNamesOf body).trans
      ⟨fun ⟨_, hmem, inside⟩ => .block hmem inside, fun h => ?_⟩
    cases h with
    | block hmem inside => exact ⟨_, hmem, inside⟩
  | _ => exact ⟨fun h => (nomatch h), fun h => nomatch h⟩

theorem mem_declaredNamesOf {name : String} (body : List Stmt) :
    name ∈ declaredNamesOf body ↔ DeclaresVariable body name := by
  cases body with
  | nil => exact ⟨fun h => (nomatch h), fun ⟨_, h, _⟩ => nomatch h⟩
  | cons s rest =>
    unfold declaredNamesOf
    rw [List.mem_append, s.mem_declaredNames, mem_declaredNamesOf rest]
    simp only [DeclaresVariable, List.mem_cons, exists_eq_or_imp]

end

section Append

variable {before after : List Stmt} {name : String} {definition : FunctionDef}

theorem declaresVariable_append :
    DeclaresVariable (before ++ after) name ↔
      DeclaresVariable before name ∨ DeclaresVariable after name := by
  simp only [DeclaresVariable, List.mem_append, or_and_right, exists_or]

theorem declaresFunction_append :
    DeclaresFunction (before ++ after) name ↔
      DeclaresFunction before name ∨ DeclaresFunction after name := by
  simp only [DeclaresFunction, List.mem_append, or_and_right, exists_or]

theorem DeclaresLast.append_left (h : DeclaresLast after name definition) (before : List Stmt) :
    DeclaresLast (before ++ after) name definition := by
  obtain ⟨hname, first, last, rfl, hlast⟩ := h
  exact ⟨hname, before ++ first, last, (List.append_assoc ..).symm, hlast⟩

theorem DeclaresLast.append_right (h : DeclaresLast before name definition)
    (others : ¬DeclaresFunction after name) : DeclaresLast (before ++ after) name definition := by
  obtain ⟨hname, first, last, rfl, hlast⟩ := h
  refine ⟨hname, first, last ++ after, List.append_assoc .., fun h => ?_⟩
  exact (declaresFunction_append.mp h).elim hlast others

end Append

namespace Store

/-! ## Changes of one frame -/

/-- Whether a store differs from another one in nothing but the names of one frame and functions
that are new. -/
structure Confined (store later : Store) (target : FrameRef) : Prop where
  others : ∀ ref, ref ≠ target → later.frame ref = store.frame ref
  parent : (later.frame target).parent = (store.frame target).parent
  frames : later.frames.size = store.frames.size
  arrays : later.arrays = store.arrays
  objects : later.objects = store.objects
  functions : store.functions.size ≤ later.functions.size
  callables : ∀ ref : FunctionRef, ref.index < store.functions.size →
    later.callable ref = store.callable ref

variable {store later last : Store} {target : FrameRef}

theorem confined_refl (store : Store) (target : FrameRef) : store.Confined store target :=
  ⟨fun _ _ => rfl, rfl, rfl, rfl, rfl, Nat.le_refl _, fun _ _ => rfl⟩

theorem Confined.trans (first : store.Confined later target) (second : later.Confined last target) :
    store.Confined last target where
  others ref hne := (second.others ref hne).trans (first.others ref hne)
  parent := second.parent.trans first.parent
  frames := second.frames.trans first.frames
  arrays := second.arrays.trans first.arrays
  objects := second.objects.trans first.objects
  functions := Nat.le_trans first.functions second.functions
  callables ref h := (second.callables ref (Nat.lt_of_lt_of_le h first.functions)).trans
    (first.callables ref h)

theorem confined_newFunction (store : Store) (callable : Callable) (target : FrameRef) :
    store.Confined (store.newFunction callable).2 target where
  others _ _ := rfl
  parent := rfl
  frames := rfl
  arrays := rfl
  objects := rfl
  functions := (store.grows_newFunction callable).functions
  callables ref h := by rw [callable_newFunction, if_neg (Nat.ne_of_lt h)]

section Made

variable (made : target.index < store.frames.size)

include made

theorem confined_declare (name : String) (value : Value) :
    store.Confined (store.declare target name value) target where
  others ref hne := by rw [frame_declare made, if_neg fun heq => hne heq.symm]
  parent := (rebound_declare made name value).parent target
  frames := (rebound_declare made name value).frames
  arrays := rfl
  objects := rfl
  functions := Nat.le_refl _
  callables _ _ := rfl

theorem ownBinding?_declare (name other : String) (value : Value) :
    (store.declare target name value).ownBinding? target other =
      if other = name then some value else store.ownBinding? target other := by
  simpa using (rebound_declare made name value).binding target other

/-- Names that the frame lacks become undefined, and nothing else changes. -/
theorem declareMissing_spec (name : String) :
    store.Confined (store.declareMissing target name) target ∧
      ∀ other, (store.declareMissing target name).ownBinding? target other =
        (store.ownBinding? target other).or (if other = name then some .undefined else none) := by
  unfold declareMissing
  cases hown : store.ownBinding? target name with
  | some value =>
    rw [if_pos (by rw [hasOwn, hown]; rfl)]
    refine ⟨store.confined_refl target, fun other => ?_⟩
    split
    · next heq => rw [heq, hown, Option.some_or]
    · rw [Option.or_none]
  | none =>
    rw [if_neg (by rw [hasOwn, hown]; exact Bool.false_ne_true)]
    refine ⟨confined_declare made name .undefined, fun other => ?_⟩
    rw [ownBinding?_declare made]
    split
    · next heq => rw [heq, hown, Option.none_or]
    · rw [Option.or_none]

theorem declareMissing_foldl_spec (names : List String) :
    store.Confined (names.foldl (fun store name => store.declareMissing target name) store) target ∧
      ∀ other, (names.foldl (fun store name => store.declareMissing target name)
          store).ownBinding? target other =
        (store.ownBinding? target other).or (if other ∈ names then some .undefined else none) := by
  induction names generalizing store with
  | nil => exact ⟨store.confined_refl target, fun other => by simp⟩
  | cons name names ih =>
    obtain ⟨hconfined, howns⟩ := declareMissing_spec made name
    have hmade : target.index < (store.declareMissing target name).frames.size :=
      hconfined.frames ▸ made
    obtain ⟨hrest, hownsRest⟩ := ih hmade
    refine ⟨hconfined.trans hrest, fun other => ?_⟩
    rw [List.foldl_cons, hownsRest, howns, Option.or_assoc]
    congr 1
    by_cases heq : other = name <;> simp [heq]

/-- The function is new, and the name stands for it. -/
theorem declareFunction_spec {definition : FunctionDef} {name : String}
    (hname : definition.name = some name) :
    store.Confined (store.declareFunction target definition) target ∧
      store.functions.size < (store.declareFunction target definition).functions.size ∧
      (store.declareFunction target definition).callable ⟨store.functions.size⟩ =
        .script definition target ∧
      ∀ other, (store.declareFunction target definition).ownBinding? target other =
        if other = name then some (.function ⟨store.functions.size⟩)
        else store.ownBinding? target other := by
  have hmade : target.index < (store.newFunction (.script definition target)).2.frames.size := made
  unfold declareFunction
  rw [hname]
  refine ⟨(store.confined_newFunction _ target).trans (confined_declare hmade _ _),
    by simp [newFunction, declare], ?_, fun other => ownBinding?_declare hmade name other _⟩
  exact (store.callable_newFunction _ _).trans (if_pos rfl)

end Made

/-! ## Names declared before a body runs -/

/-- What a frame has when the names of a list of statements have been declared in it: the names that
it had, the variables of the statements and their functions. A function is the last one of its name
and made in the frame, a name that the frame had keeps its value, and the others are undefined. -/
structure Hoisted (store later : Store) (target : FrameRef) (body : List Stmt) : Prop where
  confined : store.Confined later target
  own : ∀ name, later.hasOwn target name = true ↔
    store.hasOwn target name = true ∨ DeclaresVariable body name ∨ DeclaresFunction body name
  function : ∀ name, DeclaresFunction body name → ∃ definition ref,
    DeclaresLast body name definition ∧ store.functions.size ≤ ref.index ∧
      ref.index < later.functions.size ∧ later.ownBinding? target name = some (.function ref) ∧
      later.callable ref = .script definition target
  old : ∀ name value, ¬DeclaresFunction body name → store.ownBinding? target name = some value →
    later.ownBinding? target name = some value
  fresh : ∀ name, ¬DeclaresFunction body name → store.hasOwn target name = false →
    DeclaresVariable body name → later.ownBinding? target name = some .undefined

/-- The names of some statements, and then those of the statements behind them. -/
theorem Hoisted.trans {before after : List Stmt} (first : store.Hoisted later target before)
    (second : later.Hoisted last target after) : store.Hoisted last target (before ++ after) where
  confined := first.confined.trans second.confined
  own name := by
    rw [second.own, first.own, declaresVariable_append, declaresFunction_append]
    simp only [or_assoc, or_left_comm]
  function name h := by
    by_cases hafter : DeclaresFunction after name
    · obtain ⟨definition, ref, hlast, hnew, hin, hvalue, hcall⟩ := second.function name hafter
      exact ⟨definition, ref, hlast.append_left before,
        Nat.le_trans first.confined.functions hnew, hin, hvalue, hcall⟩
    · have hbefore := (declaresFunction_append.mp h).resolve_right hafter
      obtain ⟨definition, ref, hlast, hnew, hin, hvalue, hcall⟩ := first.function name hbefore
      exact ⟨definition, ref, hlast.append_right hafter, hnew,
        Nat.lt_of_lt_of_le hin second.confined.functions, second.old name _ hafter hvalue,
        (second.confined.callables ref hin).trans hcall⟩
  old name value hnot hvalue := by
    obtain ⟨hbefore, hafter⟩ := not_or.mp (mt declaresFunction_append.mpr hnot)
    exact second.old name value hafter (first.old name value hbefore hvalue)
  fresh name hnot hlacks hvar := by
    obtain ⟨hbefore, hafter⟩ := not_or.mp (mt declaresFunction_append.mpr hnot)
    by_cases hfirst : DeclaresVariable before name
    · exact second.old name _ hafter (first.fresh name hbefore hlacks hfirst)
    · refine second.fresh name hafter ?_ ((declaresVariable_append.mp hvar).resolve_left hfirst)
      have hnames := first.own name
      simpa [hlacks, hfirst, hbefore] using hnames

section Hoisting

variable (made : target.index < store.frames.size)

include made

/-- A function of the body. -/
theorem hoisted_declareFunction {definition : FunctionDef} {name : String}
    (hname : definition.name = some name) :
    store.Hoisted (store.declareFunction target definition) target [.function definition] := by
  obtain ⟨hconfined, hin, hcallable, hown⟩ := declareFunction_spec made hname
  have hfunction (other : String) :
      DeclaresFunction [.function definition] other ↔ other = name := by
    simp [DeclaresFunction, hname, eq_comm]
  have hvariable (other : String) : ¬DeclaresVariable [.function definition] other := by
    rintro ⟨s, hmem, h⟩
    rw [List.mem_singleton.mp hmem] at h
    cases h
  refine ⟨hconfined, fun other => ?_, fun other h => ?_, fun other value hnot hvalue => ?_,
    fun other _ _ hvar => absurd hvar (hvariable other)⟩
  · rw [hfunction, hasOwn, hasOwn, hown]
    by_cases heq : other = name <;> simp [heq, hvariable]
  · rw [hfunction] at h
    refine ⟨definition, ⟨store.functions.size⟩, ⟨h ▸ hname, [], [], rfl, ?_⟩, Nat.le_refl _, hin,
      by rw [hown, if_pos h], hcallable⟩
    rintro ⟨_, hmem, _⟩
    exact List.not_mem_nil hmem
  · rw [hown, if_neg (mt (hfunction other).mpr hnot)]
    exact hvalue

/-- Statements that are no functions declare variables only. -/
theorem hoisted_variables {s : Stmt} (h : ∀ name, ¬DeclaresFunction [s] name) :
    store.Hoisted
      (s.declaredNames.foldl (fun store name => store.declareMissing target name) store)
      target [s] := by
  obtain ⟨hconfined, hown⟩ := declareMissing_foldl_spec made s.declaredNames
  have hvariable (name : String) : DeclaresVariable [s] name ↔ name ∈ s.declaredNames := by
    rw [s.mem_declaredNames]
    simp [DeclaresVariable]
  refine ⟨hconfined, fun name => ?_, fun name hname => absurd hname (h name),
    fun name value _ hvalue => ?_, fun name _ hlacks hvar => ?_⟩
  · rw [hvariable, hasOwn, hasOwn, hown]
    by_cases hmem : name ∈ s.declaredNames <;> simp [hmem, h name]
  · rw [hown, hvalue, Option.some_or]
  · have hnone : store.ownBinding? target name = none := by simpa [hasOwn] using hlacks
    rw [hown, hnone, Option.none_or, if_pos ((hvariable name).mp hvar)]

theorem hoisted_hoistOne (s : Stmt) : store.Hoisted (store.hoistOne target s) target [s] := by
  cases s with
  | function definition =>
    cases hname : definition.name with
    | some name => exact hoisted_declareFunction made hname
    | none =>
      have hsame : store.hoistOne target (.function definition) = store := by
        show store.declareFunction target definition = store
        unfold declareFunction
        rw [hname]
      rw [hsame]
      exact hoisted_variables made (s := .function definition) fun name => by
        simp [DeclaresFunction, hname]
  | _ => exact hoisted_variables made fun name => by simp [DeclaresFunction]

/-- **A frame has the names of the statements when they have been declared in it.** -/
theorem hoisted_hoist (body : List Stmt) :
    store.Hoisted (store.hoist target body) target body := by
  induction body generalizing store with
  | nil =>
    have hlacks (name : String) : ¬DeclaresFunction [] name := fun ⟨_, hmem, _⟩ => nomatch hmem
    exact ⟨store.confined_refl target, fun name => by simp [hlacks, DeclaresVariable, hoist],
      fun name h => absurd h (hlacks name), fun _ _ _ h => h,
      fun _ _ _ ⟨_, hmem, _⟩ => nomatch hmem⟩
  | cons s rest ih =>
    have hfirst := hoisted_hoistOne made s
    exact hfirst.trans (ih (hfirst.confined.frames ▸ made))

end Hoisting

end Store

end Formulary
