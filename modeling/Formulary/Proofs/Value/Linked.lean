import Formulary.Value.Comparison
import Formulary.Value.Exchange
import Mathlib.Data.List.Forall2

/-!
# Values that differ only in what their references are

* `Links` : which references into one store stand for which into another;
* `Value.Linked`, `Callable.Linked`, `Table.Linked` : the same up to such references;
* `Store.Linked` : linked references refer to contents that are linked again;
* `Store.Linked.display`, `Store.Linked.toNumber`, `Store.Linked.looseEqual`,
  `Store.Linked.before`, `Store.Linked.toJson` : conversions, comparisons and the exported form do
  not tell linked values apart.
-/

namespace Formulary

/-- Which references into one store stand for which references into another. -/
structure Links where
  array : ArrayRef → ArrayRef → Prop
  object : ObjectRef → ObjectRef → Prop
  function : FunctionRef → FunctionRef → Prop
  frame : FrameRef → FrameRef → Prop

/-- Whether no reference stands for two, and none is stood for by two. -/
structure Links.OneToOne (links : Links) : Prop where
  array : ∀ {a b a' b'}, links.array a a' → links.array b b' → (a = b ↔ a' = b')
  object : ∀ {a b a' b'}, links.object a a' → links.object b b' → (a = b ↔ a' = b')
  function : ∀ {a b a' b'}, links.function a a' → links.function b b' → (a = b ↔ a' = b')
  frame : ∀ {a b a' b'}, links.frame a a' → links.frame b b' → (a = b ↔ a' = b')

/-- Values that are the same up to their references. -/
inductive Value.Linked (links : Links) : Value → Value → Prop where
  | undefined : Linked links .undefined .undefined
  | null : Linked links .null .null
  | boolean (b : Bool) : Linked links (.boolean b) (.boolean b)
  | number (x : Float) : Linked links (.number x) (.number x)
  | string (s : String) : Linked links (.string s) (.string s)
  | array {ref ref' : ArrayRef} (h : links.array ref ref') :
      Linked links (.array ref) (.array ref')
  | object {ref ref' : ObjectRef} (h : links.object ref ref') :
      Linked links (.object ref) (.object ref')
  | function {ref ref' : FunctionRef} (h : links.function ref ref') :
      Linked links (.function ref) (.function ref')

/-- Functions that are the same up to the frames that they were made in. -/
inductive Callable.Linked (links : Links) : Callable → Callable → Prop where
  | script (definition : FunctionDef) {scope scope' : FrameRef}
      (h : links.frame scope scope') :
      Linked links (.script definition scope) (.script definition scope')
  | intrinsic (function : Intrinsic) : Linked links (.intrinsic function) (.intrinsic function)
  | builtin (name : String) (function : Builtin) :
      Linked links (.builtin name function) (.builtin name function)

/-- Lists of values that are linked in order. -/
abbrev ValuesLinked (links : Links) : List Value → List Value → Prop :=
  List.Forall₂ (Value.Linked links)

/-- Named values of the same name that are linked. -/
def EntryLinked (links : Links) (entry entry' : String × Value) : Prop :=
  entry.1 = entry'.1 ∧ entry.2.Linked links entry'.2

/-- Tables with the same names in the same order and linked values. -/
def Table.Linked (links : Links) (table table' : Table Value) : Prop :=
  List.Forall₂ (EntryLinked links) table.entries table'.entries

/-- Containers whose references are linked. -/
inductive Container.Linked (links : Links) : Container → Container → Prop where
  | array {ref ref' : ArrayRef} (h : links.array ref ref') :
      Linked links (.array ref) (.array ref')
  | object {ref ref' : ObjectRef} (h : links.object ref ref') :
      Linked links (.object ref) (.object ref')

/-- Whether linked containers hold values that are linked again. -/
structure Store.ContentsLinked (links : Links) (store other : Store) : Prop where
  oneToOne : links.OneToOne
  elements : ∀ {ref ref'}, links.array ref ref' →
    ValuesLinked links (store.elements ref).toList (other.elements ref').toList
  properties : ∀ {ref ref'}, links.object ref ref' →
    (store.properties ref).Linked links (other.properties ref')

/-- Whether all linked references but those of frames refer to what is linked again. -/
structure Store.Linked (links : Links) (store other : Store) : Prop extends
    store.ContentsLinked links other where
  callable : ∀ {ref ref'}, links.function ref ref' →
    (store.callable ref).Linked links (other.callable ref')

/-! ## Lists and options -/

section Lists

variable {α β γ : Type} {r : α → β → Prop} {xs : List α} {ys : List β}

theorem map_eq_of_forall₂ {f : α → γ} {g : β → γ} (h : List.Forall₂ r xs ys)
    (heq : ∀ x y, r x y → f x = g y) : xs.map f = ys.map g := by
  induction h with
  | nil => rfl
  | cons hhead _ ih => rw [List.map_cons, List.map_cons, heq _ _ hhead, ih]

theorem mapM_eq_of_forall₂ {m : Type → Type} [Monad m] [LawfulMonad m] {f : α → m γ} {g : β → m γ}
    (h : List.Forall₂ r xs ys) (heq : ∀ x y, r x y → f x = g y) : xs.mapM f = ys.mapM g := by
  induction h with
  | nil => rfl
  | cons hhead _ ih => rw [List.mapM_cons, List.mapM_cons, heq _ _ hhead, ih]

theorem any_eq_of_forall₂ {f : α → Bool} {g : β → Bool} (h : List.Forall₂ r xs ys)
    (heq : ∀ x y, r x y → f x = g y) : xs.any f = ys.any g := by
  induction h with
  | nil => rfl
  | cons hhead _ ih => rw [List.any_cons, List.any_cons, heq _ _ hhead, ih]

theorem isEmpty_eq_of_forall₂ (h : List.Forall₂ r xs ys) : xs.isEmpty = ys.isEmpty := by
  cases h <;> rfl

theorem findIdx?_eq_of_forall₂ {f : α → Bool} {g : β → Bool} (h : List.Forall₂ r xs ys)
    (heq : ∀ x y, r x y → f x = g y) : xs.findIdx? f = ys.findIdx? g := by
  induction h with
  | nil => rfl
  | cons hhead _ ih => rw [List.findIdx?_cons, List.findIdx?_cons, heq _ _ hhead, ih]

theorem rel_getElem? (h : List.Forall₂ r xs ys) (i : Nat) : Option.Rel r xs[i]? ys[i]? := by
  induction h generalizing i with
  | nil => exact .none
  | cons hhead _ ih =>
    cases i with
    | zero => exact .some hhead
    | succ i => exact ih i

theorem rel_imp {s : α → β → Prop} {a : Option α} {b : Option β} (h : Option.Rel r a b)
    (himp : ∀ x y, r x y → s x y) : Option.Rel s a b := by
  cases h with
  | none => exact .none
  | some h => exact .some (himp _ _ h)

theorem rel_or {a b : Option α} {a' b' : Option β} (ha : Option.Rel r a a')
    (hb : Option.Rel r b b') : Option.Rel r (a.or b) (a'.or b') := by
  cases ha with
  | none => exact hb
  | some h => exact .some h

theorem rel_getD {a : Option α} {b : Option β} {fallback : α} {fallback' : β}
    (h : Option.Rel r a b) (hfallback : r fallback fallback') :
    r (a.getD fallback) (b.getD fallback') := by
  cases h with
  | none => exact hfallback
  | some h => exact h

end Lists

/-! ## Tables -/

namespace Table.Linked

variable {links : Links} {table table' : Table Value}

theorem get? (h : table.Linked links table') (name : String) :
    Option.Rel (Value.Linked links) (table.get? name) (table'.get? name) := by
  unfold Table.Linked at h
  unfold Table.get?
  generalize table.entries = entries at h
  generalize table'.entries = entries' at h
  induction h with
  | nil => exact .none
  | @cons entry entry' rest rest' hhead _ ih =>
    obtain ⟨key, value⟩ := entry
    obtain ⟨key', value'⟩ := entry'
    obtain ⟨rfl, hvalue⟩ := hhead
    rw [List.lookup_cons, List.lookup_cons]
    cases name == key with
    | true => exact .some hvalue
    | false => exact ih

theorem put (h : table.Linked links table') (name : String) {value value' : Value}
    (hvalue : value.Linked links value') :
    (table.put name value).Linked links (table'.put name value') := by
  unfold Table.Linked at h ⊢
  unfold Table.put
  dsimp only
  generalize table.entries = entries at h
  generalize table'.entries = entries' at h
  induction h with
  | nil => exact .cons ⟨rfl, hvalue⟩ .nil
  | @cons entry entry' rest rest' hhead htail ih =>
    obtain ⟨key, old⟩ := entry
    obtain ⟨key', old'⟩ := entry'
    obtain ⟨rfl, hold⟩ := hhead
    dsimp only at hold ⊢
    unfold putEntry
    split
    · exact .cons ⟨rfl, hvalue⟩ htail
    · exact .cons ⟨rfl, hold⟩ ih

theorem ofList {entries entries' : List (String × Value)}
    (h : List.Forall₂ (EntryLinked links) entries entries') :
    (Table.ofList entries).Linked links (Table.ofList entries') := by
  have hempty : Table.Linked links Table.empty Table.empty := .nil
  unfold Table.ofList
  generalize (Table.empty : Table Value) = start at hempty ⊢
  suffices ∀ start', start.Linked links start' →
      (entries.foldl (fun table entry => table.put entry.1 entry.2) start).Linked links
        (entries'.foldl (fun table entry => table.put entry.1 entry.2) start') from
    this start hempty
  clear hempty
  induction h generalizing start with
  | nil => exact fun _ h => h
  | cons hhead _ ih =>
    intro start' hstart
    rw [List.foldl_cons, List.foldl_cons, ← hhead.1]
    exact ih _ _ (hstart.put _ hhead.2)

end Table.Linked

/-! ## Distinctions that need no store -/

namespace Value.Linked

variable {links : Links} {value value' : Value}

theorem typeName (h : value.Linked links value') : value.typeName = value'.typeName := by
  cases h <;> rfl

theorem kindName (h : value.Linked links value') : value.kindName = value'.kindName := by
  cases h <;> rfl

theorem isPrimitive (h : value.Linked links value') : value.isPrimitive = value'.isPrimitive := by
  cases h <;> rfl

theorem isMissing (h : value.Linked links value') : value.isMissing = value'.isMissing := by
  cases h <;> rfl

theorem isNaN (h : value.Linked links value') : value.isNaN = value'.isNaN := by
  cases h <;> rfl

theorem truth (h : value.Linked links value') : value.truth = value'.truth := by
  cases h <;> rfl

/-- A value that is no reference is linked to itself only. -/
theorem eq_of_isPrimitive (h : value.Linked links value') (hprim : value.isPrimitive = true) :
    value = value' := by
  cases h with
  | array _ => cases hprim
  | object _ => cases hprim
  | function _ => cases hprim
  | _ => rfl

end Value.Linked

theorem Container.Linked.eq_iff {links : Links} (oneToOne : links.OneToOne)
    {a b a' b' : Container} (ha : a.Linked links a') (hb : b.Linked links b') :
    a = b ↔ a' = b' := by
  cases ha <;> cases hb
  · next ha _ _ hb => simpa using oneToOne.array ha hb
  · simp
  · simp
  · next ha _ _ hb => simpa using oneToOne.object ha hb

theorem Callable.Linked.display {links : Links} {callable callable' : Callable}
    (h : callable.Linked links callable') : callable.display = callable'.display := by
  cases h <;> rfl

theorem Callable.Linked.name {links : Links} {callable callable' : Callable}
    (h : callable.Linked links callable') : callable.name = callable'.name := by
  cases h <;> rfl

/-- Whether something lies on a path does not tell linked things apart. -/
theorem contains_eq_of_unique {α : Type} [DecidableEq α] {r : α → α → Prop}
    (unique : ∀ {a b a' b'}, r a a' → r b b' → (a = b ↔ a' = b')) {path path' : List α}
    (hpath : List.Forall₂ r path path') {a a' : α} (h : r a a') :
    path.contains a = path'.contains a' := by
  rw [List.contains_eq_any_beq, List.contains_eq_any_beq]
  refine any_eq_of_forall₂ hpath fun b b' hb => ?_
  rw [Bool.eq_iff_iff, beq_iff_eq, beq_iff_eq]
  exact unique h hb

/-! ## Conversions -/

namespace Store.Linked

variable {links : Links} {store other : Store} {value value' left left' right right' : Value}

theorem displayWithin (linked : store.Linked links other) (room : Nat)
    {path path' : List ArrayRef} (hpath : List.Forall₂ links.array path path')
    (h : value.Linked links value') :
    value.displayWithin store room path = value'.displayWithin other room path' := by
  induction room generalizing path path' value value' with
  | zero =>
    cases h with
    | function href => simpa only [Value.displayWithin] using (linked.callable href).display
    | _ => simp only [Value.displayWithin]
  | succ room ih =>
    cases h with
    | function href => simpa only [Value.displayWithin] using (linked.callable href).display
    | array href =>
      simp only [Value.displayWithin, contains_eq_of_unique linked.oneToOne.array hpath href]
      refine congrArg (ite _ _) (congrArg _ ?_)
      refine map_eq_of_forall₂ (linked.elements href) fun item item' hitem => ?_
      rw [hitem.isMissing, ih (.cons href hpath) hitem]
    | _ => simp only [Value.displayWithin]

/-- **Linked values have the same text.** -/
theorem display (linked : store.Linked links other) (h : value.Linked links value') :
    value.display store = value'.display other :=
  linked.displayWithin _ .nil h

theorem displayItem (linked : store.Linked links other) (h : value.Linked links value') :
    value.displayItem store = value'.displayItem other := by
  unfold Value.displayItem
  rw [h.isMissing, linked.display h]

/-- **Linked values are the same number.** -/
theorem toNumber (linked : store.Linked links other) (h : value.Linked links value') :
    value.toNumber store = value'.toNumber other := by
  cases h with
  | array href => simp only [Value.toNumber, linked.display (.array href)]
  | _ => simp only [Value.toNumber]

theorem toInteger (linked : store.Linked links other) (h : value.Linked links value') :
    value.toInteger store = value'.toInteger other := by
  unfold Value.toInteger
  rw [h.kindName, linked.toNumber h]

/-- Replaced by their texts, linked values are equal. -/
theorem toPrimitive (linked : store.Linked links other) (h : value.Linked links value') :
    value.toPrimitive store = value'.toPrimitive other := by
  unfold Value.toPrimitive
  rw [h.isPrimitive, linked.display h]
  split
  · next hprim => exact h.eq_of_isPrimitive (h.isPrimitive.trans hprim)
  · rfl

/-! ## Comparisons -/

theorem sameReference (linked : store.Linked links other) (hleft : left.Linked links left')
    (hright : right.Linked links right') :
    left.sameReference right = left'.sameReference right' := by
  rw [Bool.eq_iff_iff]
  cases hleft with
  | array ha =>
    cases hright with
    | array hb => simpa only [Value.sameReference, beq_iff_eq] using linked.oneToOne.array ha hb
    | _ => exact Iff.rfl
  | object ha =>
    cases hright with
    | object hb => simpa only [Value.sameReference, beq_iff_eq] using linked.oneToOne.object ha hb
    | _ => exact Iff.rfl
  | function ha =>
    cases hright with
    | function hb =>
      simpa only [Value.sameReference, beq_iff_eq] using linked.oneToOne.function ha hb
    | _ => exact Iff.rfl
  | _ => simp only [Value.sameReference]

/-- A reference on either side leaves only the question whether both refer to the same thing. -/
theorem strictEqual_eq_sameReference (h : (left.isPrimitive && right.isPrimitive) = false) :
    left.strictEqual right = left.sameReference right := by
  cases left <;> cases right <;> first | (cases h; done) | rfl

theorem strictEqual (linked : store.Linked links other) (hleft : left.Linked links left')
    (hright : right.Linked links right') : left.strictEqual right = left'.strictEqual right' := by
  cases hprim : left.isPrimitive && right.isPrimitive with
  | false =>
    rw [strictEqual_eq_sameReference hprim, linked.sameReference hleft hright,
      strictEqual_eq_sameReference (by rw [← hleft.isPrimitive, ← hright.isPrimitive, hprim])]
  | true =>
    obtain ⟨hl, hr⟩ := Bool.and_eq_true_iff.mp hprim
    rw [hleft.eq_of_isPrimitive hl, hright.eq_of_isPrimitive hr]

/-- **Loose equality does not tell linked values apart.** -/
theorem looseEqual (linked : store.Linked links other) (hleft : left.Linked links left')
    (hright : right.Linked links right') :
    left.looseEqual store right = left'.looseEqual other right' := by
  unfold Value.looseEqual
  rw [hleft.isMissing, hright.isMissing, hleft.isPrimitive, hright.isPrimitive,
    linked.sameReference hleft hright, linked.toPrimitive hleft, linked.toPrimitive hright]

/-- The number of a value that has been replaced by its text does not need the store. -/
theorem toNumber_toPrimitive (store other : Store) (value : Value) :
    (value.toPrimitive store).toNumber store = (value.toPrimitive store).toNumber other := by
  unfold Value.toPrimitive
  split
  · next h => cases value <;> first | (cases h; done) | rfl
  · rfl

/-- **The order of values does not tell linked values apart.** -/
theorem before (linked : store.Linked links other) (strict : Bool)
    (hleft : left.Linked links left') (hright : right.Linked links right') :
    left.before store strict right = left'.before other strict right' := by
  unfold Value.before
  rw [← linked.toPrimitive hleft, ← linked.toPrimitive hright]
  split
  · rfl
  · dsimp only
    rw [toNumber_toPrimitive store other left, toNumber_toPrimitive store other right]

end Store.Linked

/-! ## The exported form -/

namespace Store.ContentsLinked

variable {links : Links} {store other : Store} {value value' : Value}

theorem toJsonWithin (linked : store.ContentsLinked links other) (room : Nat)
    {path path' : List Container} (hpath : List.Forall₂ (Container.Linked links) path path')
    (h : value.Linked links value') :
    value.toJsonWithin store room path = value'.toJsonWithin other room path' := by
  have unique : ∀ {a b a' b' : Container}, a.Linked links a' → b.Linked links b' →
      (a = b ↔ a' = b') := Container.Linked.eq_iff linked.oneToOne
  induction room generalizing path path' value value' with
  | zero =>
    cases h with
    | array href =>
      simp only [Value.toJsonWithin, contains_eq_of_unique unique hpath (.array href)]
    | object href =>
      simp only [Value.toJsonWithin, contains_eq_of_unique unique hpath (.object href)]
    | _ => simp only [Value.toJsonWithin]
  | succ room ih =>
    cases h with
    | array href =>
      simp only [Value.toJsonWithin, contains_eq_of_unique unique hpath (.array href)]
      refine congrArg (ite _ _) (congrArg (· >>= _) ?_)
      exact mapM_eq_of_forall₂ (linked.elements href) fun item item' hitem =>
        ih (.cons (.array href) hpath) hitem
    | object href =>
      simp only [Value.toJsonWithin, contains_eq_of_unique unique hpath (.object href)]
      refine congrArg (ite _ _) (congrArg (· >>= _) ?_)
      refine mapM_eq_of_forall₂ (linked.properties href) fun entry entry' hentry => ?_
      rw [hentry.1, ih (.cons (.object href) hpath) hentry.2]
    | _ => simp only [Value.toJsonWithin]

/-- **Linked values have the same exported form.** -/
theorem toJson (linked : store.ContentsLinked links other) (h : value.Linked links value') :
    value.toJson store = value'.toJson other := by
  unfold Value.toJson
  rw [toJsonWithin linked _ .nil h]

end Store.ContentsLinked

end Formulary
