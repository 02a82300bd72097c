import Formulary.Proofs.Source.Expressions
import Formulary.Proofs.Value.Corresponding
import Formulary.Proofs.Value.Held

/-!
# Things that scripts make and declare in corresponding stores

* `Store.Tame` : stores whose functions mention no hidden names;
* `Store.Made` : things made in corresponding stores, which correspond again;
* `Store.Corresponds.ofJson` : values made from JSON;
* `Store.Corresponds.hoist`, `Store.Corresponds.hoist_global` : names declared before a body runs.
-/

namespace Formulary

/-! ## Functions that do not tell corresponding stores apart -/

/-- Functions that mention no hidden names; built-in ones do not look into references. -/
def Callable.Tame (hidden : List String) : Callable → Prop
  | script definition _ => Avoid hidden definition.expressions
  | intrinsic _ => True
  | builtin _ function => function.Natural

/-- Whether all functions of a store are of this kind. -/
def Store.Tame (hidden : List String) (store : Store) : Prop :=
  ∀ ref, (store.callable ref).Tame hidden

theorem Store.Tame.mono {hidden hidden' : List String} {store : Store} (tame : store.Tame hidden)
    (sub : hidden' ⊆ hidden) : store.Tame hidden' := by
  intro ref
  have href := tame ref
  cases hcallable : store.callable ref with
  | script definition scope =>
    rw [hcallable] at href
    exact Avoid.mono href sub
  | intrinsic function => trivial
  | builtin name function =>
    rw [hcallable] at href
    exact href

theorem Store.Tame.apply {hidden : List String} {store : Store} (tame : store.Tame hidden)
    (edit : Edit) : (store.apply edit).Tame hidden :=
  Store.Holds.apply tame edit

theorem Store.Tame.newFunction {hidden : List String} {store : Store} (tame : store.Tame hidden)
    {callable : Callable} (h : callable.Tame hidden) :
    (store.newFunction callable).2.Tame hidden :=
  Store.Holds.newFunction tame h

/-! ## Things made alike -/

/-- Things that have been made in corresponding stores, which correspond again. -/
structure Store.Made (shifts : Shifts) (hidden : List String) {α β : Type}
    (related : Links → α → β → Prop) (store : Store) (made : α × Store) (made' : β × Store) :
    Prop where
  grows : store.Grows made.2
  corresponds : made.2.Corresponds shifts hidden made'.2
  tame : store.Tame hidden → made.2.Tame hidden
  value : related (shifts.links made.2) made.1 made'.1

theorem Store.Made.trans {shifts : Shifts} {hidden : List String} {α β γ δ : Type}
    {related : Links → α → β → Prop} {related' : Links → γ → δ → Prop} {store : Store}
    {made : α × Store} {made' : β × Store} {later : γ × Store} {later' : δ × Store}
    (first : store.Made shifts hidden related made made')
    (second : made.2.Made shifts hidden related' later later') :
    store.Made shifts hidden related' later later' :=
  ⟨first.grows.trans second.grows, second.corresponds, second.tame ∘ first.tame, second.value⟩

namespace Store.Corresponds

variable {shifts : Shifts} {hidden : List String} {store other : Store}

theorem made_newArray (h : store.Corresponds shifts hidden other) {items items' : Array Value}
    (hitems : ValuesLinked (shifts.links store) items.toList items'.toList) :
    store.Made shifts hidden Value.Linked (store.newArray items) (other.newArray items') :=
  ⟨store.grows_newArray items, h.newArray hitems, id, h.linked_newArray items items'⟩

theorem made_newObject (h : store.Corresponds shifts hidden other)
    {properties properties' : Table Value}
    (hproperties : properties.Linked (shifts.links store) properties') :
    store.Made shifts hidden Value.Linked (store.newObject properties)
      (other.newObject properties') :=
  ⟨store.grows_newObject properties, h.newObject hproperties, id,
    h.linked_newObject properties properties'⟩

theorem made_newFunction (h : store.Corresponds shifts hidden other)
    {callable callable' : Callable} (hcallable : callable.Linked (shifts.links store) callable')
    (tame : callable.Tame hidden) :
    store.Made shifts hidden Value.Linked (store.newFunction callable)
      (other.newFunction callable') :=
  ⟨store.grows_newFunction callable, h.newFunction hcallable, fun hstore => hstore.newFunction tame,
    h.linked_newFunction callable callable'⟩

theorem made_newFrame (h : store.Corresponds shifts hidden other) {scope scope' : FrameRef}
    (hscope : (shifts.links store).frame scope scope') :
    store.Made shifts hidden Links.frame (store.newFrame (some scope))
      (other.newFrame (some scope')) :=
  ⟨store.grows_newFrame _, h.newFrame hscope, id, h.linked_newFrame _ _⟩

mutual

/-- **A JSON value becomes linked values in corresponding stores.** -/
theorem ofJson (json : Json) {store other : Store}
    (h : store.Corresponds shifts hidden other) :
    store.Made shifts hidden Value.Linked (Value.ofJson json store) (Value.ofJson json other) := by
  cases json with
  | null => exact ⟨store.grows_refl, h, id, .null⟩
  | boolean b => exact ⟨store.grows_refl, h, id, .boolean b⟩
  | number n => exact ⟨store.grows_refl, h, id, .number _⟩
  | string s => exact ⟨store.grows_refl, h, id, .string s⟩
  | array items =>
    have hitems := ofItems items h
    exact hitems.trans (hitems.corresponds.made_newArray hitems.value)
  | object members =>
    have hmembers := ofMembers members h
    exact hmembers.trans (hmembers.corresponds.made_newObject (.ofList hmembers.value))

theorem ofItems (items : List Json) {store other : Store}
    (h : store.Corresponds shifts hidden other) :
    store.Made shifts hidden ValuesLinked (Value.ofItems items store)
      (Value.ofItems items other) := by
  cases items with
  | nil => exact ⟨store.grows_refl, h, id, .nil⟩
  | cons item items =>
    have hfirst := ofJson item h
    have hrest := ofItems items hfirst.corresponds
    exact ⟨hfirst.grows.trans hrest.grows, hrest.corresponds,
      hrest.tame ∘ hfirst.tame, .cons (hfirst.value.mono hrest.grows) hrest.value⟩

theorem ofMembers (members : List (String × Json)) {store other : Store}
    (h : store.Corresponds shifts hidden other) :
    store.Made shifts hidden (fun links => List.Forall₂ (EntryLinked links))
      (Value.ofMembers members store) (Value.ofMembers members other) := by
  cases members with
  | nil => exact ⟨store.grows_refl, h, id, .nil⟩
  | cons member members =>
    obtain ⟨key, member⟩ := member
    have hfirst := ofJson member h
    have hrest := ofMembers members hfirst.corresponds
    exact ⟨hfirst.grows.trans hrest.grows, hrest.corresponds,
      hrest.tame ∘ hfirst.tame,
      .cons ⟨rfl, hfirst.value.mono hrest.grows⟩ hrest.value⟩

end

end Store.Corresponds

/-! ## Names declared before a body runs -/

namespace Store

variable {shifts : Shifts} {hidden : List String} {store other : Store}

theorem Tame.declareFunction (tame : store.Tame hidden) (ref : FrameRef)
    {definition : FunctionDef} (avoid : Avoid hidden definition.expressions) :
    (store.declareFunction ref definition).Tame hidden :=
  Holds.declareFunction tame avoid

theorem Tame.declare_foldl (tame : store.Tame hidden) (ref : FrameRef) (arguments : List Value)
    (parameters : List (String × Nat)) :
    (parameters.foldl (fun store parameter =>
      store.declare ref parameter.1 (argumentAt arguments parameter.2)) store).Tame hidden :=
  Holds.declareArguments tame ref arguments parameters

theorem Tame.declareMissing (tame : store.Tame hidden) (ref : FrameRef) (name : String) :
    (store.declareMissing ref name).Tame hidden :=
  Holds.declareMissing tame ref name

theorem Tame.hoist (tame : store.Tame hidden) (ref : FrameRef) {body : List Stmt}
    (avoid : ∀ definition, .function definition ∈ body → Avoid hidden definition.expressions) :
    (store.hoist ref body).Tame hidden :=
  Holds.hoist tame avoid

namespace Corresponds

variable {ref ref' : FrameRef}

theorem mono_hidden {hidden' : List String} (h : store.Corresponds shifts hidden other)
    (sub : hidden ⊆ hidden') : store.Corresponds shifts hidden' other :=
  h.changed store.grows_refl h.fit (fun href => .inl ⟨href, rfl, rfl⟩)
    (fun href => .inl ⟨href, rfl, rfl⟩) (fun href => .inl ⟨href, rfl, rfl⟩)
    fun href => .inl ⟨href, rfl, rfl, fun _ => sub⟩

theorem declareFunction (h : store.Corresponds shifts hidden other)
    (href : (shifts.links store).frame ref ref') (definition : FunctionDef) :
    (store.declareFunction ref definition).Corresponds shifts hidden
      (other.declareFunction ref' definition) := by
  unfold Store.declareFunction
  split
  · next name _ =>
    have hmade := h.newFunction (.script definition href)
    exact hmade.declare (links_frame_mono href (store.grows_newFunction _)) name
      (h.linked_newFunction (.script definition ref) (.script definition ref'))
  · exact h

/-- The parameters of a function get linked arguments. -/
theorem declare_foldl (h : store.Corresponds shifts hidden other)
    (href : (shifts.links store).frame ref ref') {arguments arguments' : List Value}
    (harguments : ValuesLinked (shifts.links store) arguments arguments')
    (parameters : List (String × Nat)) :
    (parameters.foldl (fun store parameter =>
        store.declare ref parameter.1 (argumentAt arguments parameter.2)) store).Corresponds shifts
      hidden (parameters.foldl (fun store parameter =>
        store.declare ref' parameter.1 (argumentAt arguments' parameter.2)) other) := by
  induction parameters generalizing store other with
  | nil => exact h
  | cons parameter rest ih =>
    have hgrows := store.grows_declare ref parameter.1 (argumentAt arguments parameter.2)
    exact ih (h.declare href parameter.1 (argumentAt_linked harguments parameter.2))
      (links_frame_mono href hgrows) (harguments.mono hgrows)

theorem declareMissing_foldl (h : store.Corresponds shifts hidden other)
    (href : (shifts.links store).frame ref ref') (names : List String) :
    (names.foldl (fun store name => store.declareMissing ref name) store).Corresponds shifts hidden
      (names.foldl (fun store name => store.declareMissing ref' name) other) := by
  induction names generalizing store other with
  | nil => exact h
  | cons name names ih =>
    exact ih (h.declareMissing href name) (links_frame_mono href (grows_declareMissing ref name))

theorem hoistOne (h : store.Corresponds shifts hidden other)
    (href : (shifts.links store).frame ref ref') (statement : Stmt) :
    (store.hoistOne ref statement).Corresponds shifts hidden (other.hoistOne ref' statement) := by
  cases statement with
  | function definition => exact h.declareFunction href definition
  | _ => exact h.declareMissing_foldl href _

/-- **Corresponding frames correspond behind the same declarations.** -/
theorem hoist (h : store.Corresponds shifts hidden other)
    (href : (shifts.links store).frame ref ref') (body : List Stmt) :
    (store.hoist ref body).Corresponds shifts hidden (other.hoist ref' body) := by
  induction body generalizing store other with
  | nil => exact h
  | cons statement rest ih =>
    exact ih (h.hoistOne href statement) (links_frame_mono href (grows_hoistOne ref statement))

theorem hoistOne_global (h : store.Corresponds shifts hidden other) (statement : Stmt) :
    (store.hoistOne globalFrame statement).Corresponds shifts
      (hidden.filter (· ∉ statement.functionName?)) (other.hoistOne globalFrame statement) := by
  cases hname : statement.functionName? with
  | none => simpa using h.hoistOne h.global_linked statement
  | some name =>
    cases statement with
    | function definition =>
      have hdefinition : definition.name = some name := hname
      have hmade := (h.newFunction (.script definition h.global_linked)).declare_global name
        (h.linked_newFunction (.script definition globalFrame) (.script definition globalFrame))
      unfold Store.hoistOne Store.declareFunction
      simp only [hdefinition]
      refine hmade.mono_hidden fun other hmem => ?_
      simp only [List.mem_filter, decide_eq_true_eq, Option.mem_some_iff] at hmem ⊢
      exact ⟨hmem.1, fun heq => hmem.2 heq.symm⟩
    | _ => cases hname

/-- The names of functions that a script declares come out of hiding. -/
theorem hoist_global (h : store.Corresponds shifts hidden other) (body : List Stmt) :
    (store.hoist globalFrame body).Corresponds shifts
      (hidden.filter (· ∉ body.filterMap Stmt.functionName?)) (other.hoist globalFrame body) := by
  induction body generalizing store other hidden with
  | nil => exact h.mono_hidden (by simp)
  | cons statement rest ih =>
    refine (ih (h.hoistOne_global statement)).mono_hidden fun name hmem => ?_
    simp only [List.mem_filter, decide_eq_true_eq, List.mem_filterMap, List.mem_cons] at hmem ⊢
    obtain ⟨⟨hhidden, hfirst⟩, hrest⟩ := hmem
    refine ⟨hhidden, ?_⟩
    rintro ⟨statement', rfl | hin, hname⟩
    · exact hfirst hname
    · exact hrest ⟨statement', hin, hname⟩

end Corresponds

end Store

end Formulary
