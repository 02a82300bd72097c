import Formulary.Proofs.Script.Composed
import Formulary.Proofs.Script.Declared

/-!
# Runs in machines that correspond

* `Machine.Linked` : machines whose stores correspond, with the same counts;
* `Run.Linked` : runs that come to the same in such machines;
* `Run.Linked.bind`, `Run.Linked.inStore`, `Run.Linked.updateStore` : steps that are of this kind;
* `Run.linked_method`, `Run.linked_intrinsic` : so are the methods of values and the functions that
  every script has.
-/

namespace Formulary

/-- Machines whose stores correspond, with functions that do not tell them apart and the same
counts. -/
structure Machine.Linked (shifts : Shifts) (hidden : List String) (machine other : Machine) :
    Prop where
  store : machine.store.Corresponds shifts hidden other.store
  tame : machine.store.Tame hidden
  calls : machine.calls = other.calls
  nesting : machine.nesting = other.nesting

/-- What is the same whatever the references are. -/
abbrev Same {α : Type} (_ : Links) : α → α → Prop := Eq

/-- Ends of statements that are the same up to the references of their values. -/
inductive Flow.Linked (links : Links) : Flow → Flow → Prop where
  | normal {value value' : Option Value} (h : Option.Rel (Value.Linked links) value value') :
      Linked links (.normal value) (.normal value')
  | ret {value value' : Value} (h : value.Linked links value') :
      Linked links (.ret value) (.ret value')
  | breakLoop : Linked links .breakLoop .breakLoop
  | continueLoop : Linked links .continueLoop .continueLoop

/-- A call whose body ends like this comes to the same. -/
theorem Flow.Linked.returned {links : Links} {flow flow' : Flow} (h : flow.Linked links flow') :
    ResultsLinked (Value.Linked links) flow.returned flow'.returned := by
  cases h with
  | normal _ => exact .ok .undefined
  | ret h => exact .ok h
  | breakLoop => exact .error _
  | continueLoop => exact .error _

theorem Flow.Linked.completion {links : Links} {flow flow' : Flow} (h : flow.Linked links flow') :
    ResultsLinked (Value.Linked links) flow.completion flow'.completion := by
  cases h with
  | normal h => exact .ok (rel_getD h .undefined)
  | ret _ => exact .error _
  | breakLoop => exact .error _
  | continueLoop => exact .error _

theorem Literal.linked_value (literal : Literal) (links : Links) :
    literal.value.Linked links literal.value := by
  cases literal <;> constructor

namespace Run

/-- Runs that have failed alike, or have related answers and leave machines linked. -/
inductive Alike (shifts : Shifts) (hidden : List String) {α : Type} (since : Store)
    (related : Links → α → α → Prop) :
    EStateM.Result Halt Machine α → EStateM.Result Halt Machine α → Prop where
  | ok {a a' : α} {machine other : Machine} (linked : machine.Linked shifts hidden other)
      (grows : since.Grows machine.store) (value : related (shifts.links machine.store) a a') :
      Alike shifts hidden since related (.ok a machine) (.ok a' other)
  | error (halt : Halt) (machine other : Machine) :
      Alike shifts hidden since related (.error halt machine) (.error halt other)

/-- Whether runs come to the same in linked machines whose stores have grown out of `since`. The
names that are hidden before them are `hidden`, and those behind them `hidden'`. -/
def Linked (shifts : Shifts) (hidden hidden' : List String) {α : Type} (since : Store)
    (related : Links → α → α → Prop) (run run' : Run α) : Prop :=
  ∀ machine other, machine.Linked shifts hidden other → since.Grows machine.store →
    Alike shifts hidden' machine.store related (run machine) (run' other)

/-! ## Elementary steps -/

section Steps

variable {shifts : Shifts} {hidden hidden' hidden'' : List String} {α β : Type}
  {since : Store} {r : Links → α → α → Prop} {s : Links → β → β → Prop}

theorem Alike.earlier {result result' : EStateM.Result Halt Machine α}
    {middle : Store} (h : Alike shifts hidden middle r result result')
    (grows : since.Grows middle) :
    Alike shifts hidden since r result result' := by
  cases h with
  | ok linked hgrows value => exact .ok linked (grows.trans hgrows) value
  | error halt machine other => exact .error halt machine other

theorem Alike.restore {result result' : EStateM.Result Halt Machine α}
    (h : Alike shifts hidden since r result result') (calls nesting : Nat) :
    Alike shifts hidden since r (restore calls nesting result)
      (restore calls nesting result') := by
  cases h with
  | ok linked grows value => exact .ok ⟨linked.store, linked.tame, rfl, rfl⟩ grows value
  | error halt machine other => exact .error halt _ _

namespace Linked

theorem later {run run' : Run α} (h : Linked shifts hidden hidden' since r run run')
    {middle : Store} (grows : since.Grows middle) :
    Linked shifts hidden hidden' middle r run run' :=
  fun machine other linked hgrows => h machine other linked (grows.trans hgrows)

theorem pure {a a' : α} (h : ∀ later, since.Grows later → r (shifts.links later) a a') :
    Linked shifts hidden hidden since r (pure a) (pure a') :=
  fun machine _ linked grows => .ok linked (Store.grows_refl _) (h machine.store grows)

theorem throw (halt : Halt) :
    Linked shifts hidden hidden' since r (throw halt) (throw halt) :=
  fun machine other _ _ => .error halt machine other

theorem bind_hidden {run run' : Run α} {next next' : α → Run β}
    (first : Linked shifts hidden hidden' since r run run')
    (second : ∀ later a a', since.Grows later → r (shifts.links later) a a' →
      Linked shifts hidden' hidden'' later s (next a) (next' a')) :
    Linked shifts hidden hidden'' since s (run >>= next) (run' >>= next') := by
  intro machine other linked grows
  show Alike _ _ _ _ (EStateM.bind run next machine) (EStateM.bind run' next' other)
  have hfirst := first machine other linked grows
  unfold EStateM.bind
  generalize run machine = result at *
  generalize run' other = result' at *
  cases hfirst with
  | ok hlinked hgrows value =>
    exact (second _ _ _ (grows.trans hgrows) value _ _ hlinked (Store.grows_refl _)).earlier hgrows
  | error halt machine other => exact .error halt machine other

theorem bind {run run' : Run α} {next next' : α → Run β}
    (first : Linked shifts hidden hidden since r run run')
    (second : ∀ later a a', since.Grows later → r (shifts.links later) a a' →
      Linked shifts hidden hidden later s (next a) (next' a')) :
    Linked shifts hidden hidden since s (run >>= next) (run' >>= next') :=
  first.bind_hidden second

/-- Runs that go on with what their stores hold. -/
theorem inStore {next next' : Store → Run α}
    (h : ∀ later other, since.Grows later → later.Corresponds shifts hidden other →
      later.Tame hidden →
      Linked shifts hidden hidden' later r (next later) (next' other)) :
    Linked shifts hidden hidden' since r (store >>= next) (store >>= next') :=
  fun machine other linked grows =>
    h machine.store other.store grows linked.store linked.tame machine other linked
      (Store.grows_refl _)

theorem modifyStore {change change' : Store → Store}
    (h : ∀ later other, since.Grows later → later.Corresponds shifts hidden other →
      (change later).Corresponds shifts hidden' (change' other))
    (grows : ∀ later, Store.Grows later (change later))
    (tame : ∀ later, later.Tame hidden → (change later).Tame hidden') :
    Linked shifts hidden hidden' since Same (modifyStore change) (modifyStore change') :=
  fun machine other linked hgrows =>
    .ok ⟨h machine.store other.store hgrows linked.store, tame _ linked.tame, linked.calls,
      linked.nesting⟩ (grows _) rfl

theorem updateStore {change change' : Store → α × Store}
    (h : ∀ later other, since.Grows later → later.Corresponds shifts hidden other →
      later.Made shifts hidden r (change later) (change' other)) :
    Linked shifts hidden hidden since r (updateStore change) (updateStore change') := by
  rintro ⟨machine, log, calls, nesting⟩ ⟨other, log', _, _⟩ ⟨hstore, htame, rfl, rfl⟩ grows
  have hmade := h machine other grows hstore
  exact .ok ⟨hmade.corresponds, hmade.tame htame, rfl, rfl⟩ hmade.grows hmade.value

theorem write (entry entry' : LogEntry) :
    Linked shifts hidden hidden since Same (write entry) (write entry') :=
  fun _ _ linked _ =>
    .ok ⟨linked.store, linked.tame, linked.calls, linked.nesting⟩ (Store.grows_refl _) rfl

theorem deeper {run run' : Run α} (h : Linked shifts hidden hidden' since r run run') :
    Linked shifts hidden hidden' since r (deeper run) (deeper run') := by
  intro machine other linked grows
  unfold Run.deeper
  dsimp only
  rw [linked.nesting, linked.calls]
  split
  · exact .error _ _ _
  · exact Alike.restore (h { machine with calls := other.calls, nesting := other.nesting + 1 }
      { other with nesting := other.nesting + 1 } ⟨linked.store, linked.tame, rfl, rfl⟩ grows) _ _

theorem calling (limit : Nat) {run run' : Run α}
    (h : Linked shifts hidden hidden' since r run run') :
    Linked shifts hidden hidden' since r (calling limit run) (calling limit run') := by
  intro machine other linked grows
  unfold Run.calling
  dsimp only
  rw [linked.nesting, linked.calls]
  split
  · exact .error _ _ _
  · exact Alike.restore (h { machine with calls := other.calls + 1, nesting := 0 }
      { other with calls := other.calls + 1, nesting := 0 }
      ⟨linked.store, linked.tame, rfl, rfl⟩ grows) _ _

end Linked

end Steps

/-! ## Lists and results -/

section Parts

variable {shifts : Shifts} {hidden : List String} {since : Store}

section Results

variable {α β : Type} {r : Links → α → α → Prop}

theorem linked_mapM {items : List β} {step step' : β → Run α}
    (h : ∀ item ∈ items, Linked shifts hidden hidden since r (step item) (step' item))
    (lasting : ∀ store later a a', store.Grows later → r (shifts.links store) a a' →
      r (shifts.links later) a a') :
    Linked shifts hidden hidden since (fun links => List.Forall₂ (r links))
      (items.mapM step) (items.mapM step') := by
  induction items generalizing since with
  | nil => exact .pure fun _ _ => .nil
  | cons item items ih =>
    obtain ⟨hhead, htail⟩ := List.forall_mem_cons.mp h
    rw [List.mapM_cons, List.mapM_cons]
    refine hhead.bind fun later a a' grows ha => ?_
    refine (ih fun item hmem => (htail item hmem).later grows).bind fun last _ _ hgrows hrest => ?_
    exact .pure fun _ hlast =>
      .cons (lasting _ _ _ _ (hgrows.trans hlast) ha) (hrest.imp fun _ _ => lasting _ _ _ _ hlast)

theorem linked_ofExcept {result result' : Except EvalError α}
    (h : ∀ later, since.Grows later → ResultsLinked (r (shifts.links later)) result result') :
    Linked shifts hidden hidden since r (ofExcept result) (ofExcept result') := by
  cases h since since.grows_refl with
  | ok _ =>
    refine .pure fun later grows => ?_
    cases h later grows with
    | ok ha => exact ha
  | error e => exact .throw _

theorem linked_ofFault {result result' : Except TypeFault α}
    (h : ∀ later, since.Grows later → ResultsLinked (r (shifts.links later)) result result') :
    Linked shifts hidden hidden since r (ofFault result) (ofFault result') := by
  rw [ofFault_eq, ofFault_eq]
  exact linked_ofExcept fun later grows => (h later grows).mapError _

theorem linked_ofFunction {result result' : Except FunctionError α}
    (h : ∀ later, since.Grows later → ResultsLinked (r (shifts.links later)) result result') :
    Linked shifts hidden hidden since r (ofFunction result) (ofFunction result') := by
  rw [ofFunction_eq, ofFunction_eq]
  exact linked_ofExcept fun later grows => (h later grows).mapError _

end Results

/-! ## Methods and functions that every script has -/

variable {arguments arguments' : List Value}

/-- Runs that answer with what their stores say about linked values. -/
theorem linked_inStore_pure {value value' : Store → Value}
    (h : ∀ later other, since.Grows later → later.Corresponds shifts hidden other →
      (value later).Linked (shifts.links later) (value' other)) :
    Linked shifts hidden hidden since Value.Linked (do return value (← store))
      (do return value' (← store)) :=
  .inStore fun _ _ grows corresponds _ =>
    .pure fun _ hgrows => (h _ _ grows corresponds).mono hgrows

theorem linked_push {ref ref' : ArrayRef} (href : (shifts.links since).array ref ref')
    (harguments : ValuesLinked (shifts.links since) arguments arguments') :
    Linked shifts hidden hidden since Value.Linked (ArrayMethod.push.run ref arguments)
      (ArrayMethod.push.run ref' arguments') := by
  refine .bind (.modifyStore (fun later other grows corresponds => ?_) ?_ ?_)
    fun later _ _ grows _ => ?_
  · exact corresponds.modifyElements (links_array_mono href grows) fun hitems => by
      simpa using List.rel_append hitems (harguments.mono grows)
  · exact fun later => later.grows_modifyElements ref _
  · exact fun _ htame => htame
  · refine linked_inStore_pure fun last other hgrows corresponds => ?_
    have hitems := corresponds.linked.elements (links_array_mono href (grows.trans hgrows))
    exact Value.linked_number (congrArg Float.ofNat hitems.length_eq)

theorem linked_pop {ref ref' : ArrayRef} (href : (shifts.links since).array ref ref') :
    Linked shifts hidden hidden since Value.Linked (ArrayMethod.pop.run ref arguments)
      (ArrayMethod.pop.run ref' arguments') := by
  refine .inStore fun later other grows corresponds _ => ?_
  have hitems := corresponds.linked.elements (links_array_mono href grows)
  refine .bind (.modifyStore (fun last other' hgrows h => ?_) ?_ ?_) fun last _ _ hgrows _ => ?_
  · exact h.modifyElements (links_array_mono href (grows.trans hgrows)) fun hitems => by
      simpa [List.dropLast_eq_take, hitems.length_eq] using List.forall₂_take _ hitems
  · exact fun last => last.grows_modifyElements ref _
  · exact fun _ htame => htame
  · refine .pure fun _ hlast => Value.Linked.mono ?_ (hgrows.trans hlast)
    simp only [← Array.getLast?_toList, List.getLast?_eq_getElem?, hitems.length_eq]
    exact rel_getD (rel_getElem? hitems _) .undefined

theorem linked_arrayMethod {ref ref' : ArrayRef} (href : (shifts.links since).array ref ref')
    (harguments : ValuesLinked (shifts.links since) arguments arguments') (method : ArrayMethod) :
    Linked shifts hidden hidden since Value.Linked (method.run ref arguments)
      (method.run ref' arguments') := by
  cases method with
  | push => exact linked_push href harguments
  | pop => exact linked_pop href
  | join =>
    refine linked_inStore_pure fun later other grows corresponds => ?_
    exact Value.linked_string (corresponds.linked.joinItems
      (corresponds.linked.elements (links_array_mono href grows))
      (argumentAt_linked (harguments.mono grows) 0))
  | indexOf =>
    refine linked_inStore_pure fun later other grows corresponds => Value.linked_ofFind ?_
    refine findIdx?_eq_of_forall₂ (corresponds.linked.elements (links_array_mono href grows))
      fun item item' hitem => ?_
    exact corresponds.linked.strictEqual hitem (argumentAt_linked (harguments.mono grows) 0)
  | includes =>
    refine linked_inStore_pure fun later other grows corresponds => ?_
    refine Value.linked_boolean (any_eq_of_forall₂
      (corresponds.linked.elements (links_array_mono href grows)) fun item item' hitem => ?_)
    exact corresponds.linked.isIncluded hitem (argumentAt_linked (harguments.mono grows) 0)
  | slice =>
    refine .inStore fun later other grows corresponds _ => ?_
    refine .updateStore fun last other' hgrows h => ?_
    refine h.made_newArray (ValuesLinked.mono ?_ hgrows)
    exact corresponds.linked.sliceItems (corresponds.linked.elements (links_array_mono href grows))
      (argumentAt_linked (harguments.mono grows) 0) (argumentAt_linked (harguments.mono grows) 1)

theorem linked_stringMethod (text : String)
    (harguments : ValuesLinked (shifts.links since) arguments arguments') (method : StringMethod) :
    Linked shifts hidden hidden since Value.Linked (method.run text arguments)
      (method.run text arguments') := by
  cases method with
  | toUpperCase => exact .pure fun _ _ => .string _
  | toLowerCase => exact .pure fun _ _ => .string _
  | trim => exact .pure fun _ _ => .string _
  | charAt =>
    refine linked_inStore_pure fun later other grows corresponds => Value.linked_string ?_
    cases harguments with
    | nil => rfl
    | cons hfirst _ => simp only [corresponds.linked.toNumber (hfirst.mono grows)]
  | indexOf =>
    refine linked_inStore_pure fun later other grows corresponds => Value.linked_ofFind ?_
    rw [corresponds.linked.display (argumentAt_linked (harguments.mono grows) 0)]
  | substring =>
    refine linked_inStore_pure fun later other grows corresponds => Value.linked_string ?_
    exact congrArg String.ofList (corresponds.linked.substringOf text.toList
      (argumentAt_linked (harguments.mono grows) 0) (argumentAt_linked (harguments.mono grows) 1))
  | split =>
    refine .inStore fun later other grows corresponds _ => ?_
    rw [corresponds.linked.pieces text (argumentAt_linked (harguments.mono grows) 0)]
    refine .updateStore fun last other' _ h => h.made_newArray ?_
    exact List.forall₂_map_left_iff.mpr (List.forall₂_map_right_iff.mpr
      (List.forall₂_same.mpr fun _ _ => .string _))

theorem linked_numberMethod (x : Float)
    (harguments : ValuesLinked (shifts.links since) arguments arguments') (method : NumberMethod) :
    Linked shifts hidden hidden since Value.Linked (method.run x arguments)
      (method.run x arguments') := by
  cases method with
  | toFixed =>
    refine .inStore fun later other grows corresponds _ => ?_
    rw [corresponds.linked.fixedPlaces (argumentAt_linked (harguments.mono grows) 0)]
    cases fixedPlaces other (argumentAt arguments' 0) with
    | ok places => exact .pure fun _ _ => .string _
    | error fault => exact .throw _
  | toText => exact .pure fun _ _ => .string _

/-- **Methods do not tell linked values apart.** -/
theorem linked_method {method method' : Method}
    (hmethod : method.Linked (shifts.links since) method')
    (harguments : ValuesLinked (shifts.links since) arguments arguments') :
    Linked shifts hidden hidden since Value.Linked (method.run arguments)
      (method'.run arguments') := by
  cases hmethod with
  | array href method => exact linked_arrayMethod href harguments method
  | string text method => exact linked_stringMethod text harguments method
  | number x method => exact linked_numberMethod x harguments method

/-- **Neither do the functions that every script has.** -/
theorem linked_intrinsic (harguments : ValuesLinked (shifts.links since) arguments arguments')
    (function : Intrinsic) :
    Linked shifts hidden hidden since Value.Linked (function.run arguments)
      (function.run arguments') := by
  refine .inStore fun later other grows corresponds _ => ?_
  have hlater := harguments.mono grows
  have hfirst := argumentAt_linked hlater 0
  have hlinked := corresponds.linked
  cases function with
  | isNaN => exact .pure fun _ _ => Value.linked_boolean (congrArg _ (hlinked.toNumber hfirst))
  | isFinite => exact .pure fun _ _ => Value.linked_boolean (congrArg _ (hlinked.toNumber hfirst))
  | parseFloat =>
    dsimp only
    rw [hlinked.display hfirst]
    exact .pure fun _ _ => .number _
  | parseInt =>
    dsimp only
    rw [hlinked.parseInteger hlater]
    refine .bind (linked_ofFunction (r := Same) fun _ _ => resultsLinked_of_eq rfl) ?_
    rintro _ x _ _ rfl
    exact .pure fun _ _ => .number x
  | toNumber =>
    dsimp only
    rw [hlinked.toNumber hfirst, isEmpty_eq_of_forall₂ hlater]
    exact .pure fun _ _ => .number _
  | toText =>
    dsimp only
    rw [hlinked.display hfirst, isEmpty_eq_of_forall₂ hlater]
    exact .pure fun _ _ => .string _
  | toBoolean => exact .pure fun _ _ => Value.linked_boolean hfirst.truth
  | math f =>
    dsimp only
    rw [hlinked.numbers hlater]
    exact .pure fun _ _ => .number _
  | console method => exact .bind (.write _ _) fun _ _ _ _ _ => .pure fun _ _ => .undefined
  | stringify =>
    dsimp only
    rw [hlinked.stringify hfirst]
    refine .bind (linked_ofFunction (r := Same) fun _ _ => resultsLinked_of_eq rfl) ?_
    rintro _ text _ _ rfl
    exact .pure fun _ _ => .string text
  | parse =>
    dsimp only
    rw [hlinked.display hfirst]
    cases Json.read? ((argumentAt arguments' 0).display other) with
    | some json => exact .updateStore fun _ _ _ h => h.ofJson json
    | none => exact .throw _

end Parts

end Run

end Formulary
