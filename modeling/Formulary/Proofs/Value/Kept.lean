import Formulary.Proofs.Value.Growth
import Formulary.Value.Exchange

/-!
# Stores that keep what was there

* `Store.Keeps` : stores that hold everything that another one does as it was, but for the values of
  some global names;
* `Store.keeps_newArray`, `Store.keeps_declare`, `Store.keeps_ofJson` : what adds something or sets
  such a name keeps all else.
-/

namespace Formulary

/-- Whether a store holds everything that was in another one as it was, but for the values of some
global names. It may hold more. -/
structure Store.Keeps (names : List String) (store later : Store) : Prop where
  arrays : store.arrays.toList <+: later.arrays.toList
  objects : store.objects.toList <+: later.objects.toList
  functions : store.functions.toList <+: later.functions.toList
  frames : store.frames.size ≤ later.frames.size
  parent : ∀ ref, ref.index < store.frames.size →
    (later.frame ref).parent = (store.frame ref).parent
  binding : ∀ ref name, ref.index < store.frames.size → (ref = globalFrame → name ∉ names) →
    later.ownBinding? ref name = store.ownBinding? ref name

namespace Store

variable {names : List String} (store : Store)

theorem keeps_refl : store.Keeps names store :=
  ⟨List.prefix_rfl, List.prefix_rfl, List.prefix_rfl, Nat.le_refl _, fun _ _ => rfl,
    fun _ _ _ _ => rfl⟩

variable {store}

theorem Keeps.trans {middle later : Store} (first : store.Keeps names middle)
    (second : middle.Keeps names later) : store.Keeps names later where
  arrays := first.arrays.trans second.arrays
  objects := first.objects.trans second.objects
  functions := first.functions.trans second.functions
  frames := Nat.le_trans first.frames second.frames
  parent ref h :=
    (second.parent ref (Nat.lt_of_lt_of_le h first.frames)).trans (first.parent ref h)
  binding ref name h visible :=
    (second.binding ref name (Nat.lt_of_lt_of_le h first.frames) visible).trans
      (first.binding ref name h visible)

theorem Keeps.mono_names {names' : List String} {later : Store} (keeps : store.Keeps names later)
    (sub : names ⊆ names') : store.Keeps names' later :=
  { keeps with
    binding := fun ref name h visible =>
      keeps.binding ref name h fun hglobal hmem => visible hglobal (sub hmem) }

/-! ## Single changes -/

variable (store)

theorem keeps_newArray (items : Array Value) : store.Keeps names (store.newArray items).2 :=
  { store.keeps_refl with arrays := by simp [newArray] }

theorem keeps_newObject (properties : Table Value) :
    store.Keeps names (store.newObject properties).2 :=
  { store.keeps_refl with objects := by simp [newObject] }

theorem keeps_newFunction (callable : Callable) :
    store.Keeps names (store.newFunction callable).2 :=
  { store.keeps_refl with functions := by simp [newFunction] }

/-- Setting one of the names keeps all else. -/
theorem keeps_declare {name : String} (h : name ∈ names) (value : Value) :
    store.Keeps names (store.declare globalFrame name value) := by
  refine ⟨List.prefix_rfl, List.prefix_rfl, List.prefix_rfl, ?_, fun ref hlt => ?_,
    fun ref other hlt visible => ?_⟩
  · simp [declare]
  · show ((store.modifyFrame globalFrame _).frame ref).parent = _
    rw [frame_modifyFrame _ _ hlt]
    split <;> rfl
  · show ((store.modifyFrame globalFrame _).frame ref).bindings.get? other = _
    rw [frame_modifyFrame _ _ hlt]
    split
    · next heq =>
      have hne : other ≠ name := fun hname => visible heq.symm (hname ▸ h)
      rw [Table.get?_put, if_neg hne]
      rfl
    · rfl

theorem keeps_declareMissing {name : String} (h : name ∈ names) :
    store.Keeps names (store.declareMissing globalFrame name) := by
  unfold declareMissing
  split
  · exact store.keeps_refl
  · exact store.keeps_declare h _

theorem keeps_assign {name : String} (h : name ∈ names) (value : Value) :
    store.Keeps names (store.assign globalFrame name value) := by
  rw [assign_globalFrame]
  exact store.keeps_declare h value

theorem keeps_declareFunction {definition : FunctionDef}
    (h : ∀ name ∈ definition.name, name ∈ names) :
    store.Keeps names (store.declareFunction globalFrame definition) := by
  unfold declareFunction
  split
  · next name hname =>
    exact (store.keeps_newFunction _).trans (keeps_declare _ (h name hname) _)
  · exact store.keeps_refl

theorem keeps_foldl {α : Type} {change : Store → α → Store} {items : List α}
    (h : ∀ item ∈ items, ∀ store : Store, store.Keeps names (change store item)) :
    store.Keeps names (items.foldl change store) := by
  induction items generalizing store with
  | nil => exact store.keeps_refl
  | cons item items ih =>
    obtain ⟨hfirst, hrest⟩ := List.forall_mem_cons.mp h
    exact (hfirst store).trans (ih (change store item) hrest)

end Store

/-! ## Values from JSON -/

namespace Store

variable {names : List String}

mutual

/-- **A value made from JSON leaves everything else alone.** -/
theorem keeps_ofJson (store : Store) (json : Json) :
    store.Keeps names (Value.ofJson json store).2 := by
  cases json with
  | array items => exact (keeps_ofItems store items).trans (keeps_newArray _ _)
  | object members => exact (keeps_ofMembers store members).trans (keeps_newObject _ _)
  | _ => exact store.keeps_refl

theorem keeps_ofItems (store : Store) (items : List Json) :
    store.Keeps names (Value.ofItems items store).2 := by
  cases items with
  | nil => exact store.keeps_refl
  | cons item items => exact (keeps_ofJson store item).trans (keeps_ofItems _ items)

theorem keeps_ofMembers (store : Store) (members : List (String × Json)) :
    store.Keeps names (Value.ofMembers members store).2 := by
  cases members with
  | nil => exact store.keeps_refl
  | cons member members =>
    exact (keeps_ofJson store member.2).trans (keeps_ofMembers _ members)

end

end Store

end Formulary
