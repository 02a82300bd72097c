import Formulary.Proofs.Function.Natural
import Formulary.Proofs.Value.Growth

/-!
# Stores that correspond

A script that is run in a store with more in it makes its own things further on, and finds what was
there before in the same places. Some global names may have other values there.

* `Shifts` : where the things of one store stand in another one;
* `Store.Corresponds` : what stands there is the same up to that, but for the global names that are
  `hidden`;
* `Store.Corresponds.changed` : stores correspond behind changes of both;
* `Store.Corresponds.newArray`, `Store.Corresponds.apply` : new things and writes are such changes;
* `Store.Corresponds.binding?`, `Store.Corresponds.assign` : names seen from corresponding frames.
-/

namespace Formulary

/-! ## Places -/

/-- Where the things of one store stand in another: the first `kept` of them in the same places, all
others `gap` places further on. -/
structure Shift where
  kept : Nat
  gap : Nat

namespace Shift

/-- Where a thing stands in the other store. -/
def place (shift : Shift) (index : Nat) : Nat :=
  if index < shift.kept then index else index + shift.gap

/-- Whether the other store has room for the things of a store, and no more. -/
structure Fits (shift : Shift) (size size' : Nat) : Prop where
  kept : shift.kept ≤ size
  gap : size' = size + shift.gap

variable {shift : Shift} {size size' i j i' j' : Nat}

theorem place_lt_place (h : i < j) : shift.place i < shift.place j := by
  unfold place
  split <;> split <;> omega

theorem place_lt (fits : shift.Fits size size') (h : i < size) : shift.place i < size' := by
  obtain ⟨hkept, rfl⟩ := fits
  unfold place
  split <;> omega

/-- The next thing of the one store stands where the next thing of the other does. -/
theorem place_size (fits : shift.Fits size size') : shift.place size = size' := by
  obtain ⟨hkept, rfl⟩ := fits
  exact if_neg (by omega)

theorem eq_iff (hi : i' = shift.place i) (hj : j' = shift.place j) : i = j ↔ i' = j' := by
  rw [hi, hj]
  refine ⟨congrArg _, fun h => ?_⟩
  rcases Nat.lt_trichotomy i j with hlt | heq | hlt
  · exact absurd h (Nat.ne_of_lt (place_lt_place hlt))
  · exact heq
  · exact absurd h (Nat.ne_of_gt (place_lt_place hlt))

theorem eq_size_iff (fits : shift.Fits size size') (hi : i' = shift.place i) :
    i = size ↔ i' = size' :=
  eq_iff hi (place_size fits).symm

theorem Fits.succ (fits : shift.Fits size size') : shift.Fits (size + 1) (size' + 1) :=
  ⟨Nat.le_succ_of_le fits.kept, by rw [fits.gap]; omega⟩

end Shift

/-- Where the things of one store stand in another, by their kinds. -/
structure Shifts where
  arrays : Shift
  objects : Shift
  functions : Shift
  frames : Shift

/-- The references into a store with those to the same things in the other one. -/
def Shifts.links (shifts : Shifts) (store : Store) : Links where
  array ref ref' := ref.index < store.arrays.size ∧ ref'.index = shifts.arrays.place ref.index
  object ref ref' := ref.index < store.objects.size ∧ ref'.index = shifts.objects.place ref.index
  function ref ref' :=
    ref.index < store.functions.size ∧ ref'.index = shifts.functions.place ref.index
  frame ref ref' := ref.index < store.frames.size ∧ ref'.index = shifts.frames.place ref.index

/-- Whether another store has room for the things of a store, and no more. -/
structure Shifts.Fit (shifts : Shifts) (store other : Store) : Prop where
  arrays : shifts.arrays.Fits store.arrays.size other.arrays.size
  objects : shifts.objects.Fits store.objects.size other.objects.size
  functions : shifts.functions.Fits store.functions.size other.functions.size
  frames : shifts.frames.Fits store.frames.size other.frames.size

theorem Shifts.oneToOne_links (shifts : Shifts) (store : Store) :
    (shifts.links store).OneToOne where
  array {a b a' b'} ha hb := by
    cases a; cases b; cases a'; cases b'
    simpa using Shift.eq_iff ha.2 hb.2
  object {a b a' b'} ha hb := by
    cases a; cases b; cases a'; cases b'
    simpa using Shift.eq_iff ha.2 hb.2
  function {a b a' b'} ha hb := by
    cases a; cases b; cases a'; cases b'
    simpa using Shift.eq_iff ha.2 hb.2
  frame {a b a' b'} ha hb := by
    cases a; cases b; cases a'; cases b'
    simpa using Shift.eq_iff ha.2 hb.2

/-! ## Behind the growth of a store -/

section Growth

variable {shifts : Shifts} {store later : Store}

theorem Value.Linked.mono {value value' : Value} (h : value.Linked (shifts.links store) value')
    (grows : store.Grows later) : value.Linked (shifts.links later) value' := by
  cases h with
  | array href => exact .array ⟨Nat.lt_of_lt_of_le href.1 grows.arrays, href.2⟩
  | object href => exact .object ⟨Nat.lt_of_lt_of_le href.1 grows.objects, href.2⟩
  | function href => exact .function ⟨Nat.lt_of_lt_of_le href.1 grows.functions, href.2⟩
  | _ => constructor

theorem links_array_mono {ref ref' : ArrayRef} (h : (shifts.links store).array ref ref')
    (grows : store.Grows later) : (shifts.links later).array ref ref' :=
  ⟨Nat.lt_of_lt_of_le h.1 grows.arrays, h.2⟩

theorem links_object_mono {ref ref' : ObjectRef} (h : (shifts.links store).object ref ref')
    (grows : store.Grows later) : (shifts.links later).object ref ref' :=
  ⟨Nat.lt_of_lt_of_le h.1 grows.objects, h.2⟩

theorem links_function_mono {ref ref' : FunctionRef} (h : (shifts.links store).function ref ref')
    (grows : store.Grows later) : (shifts.links later).function ref ref' :=
  ⟨Nat.lt_of_lt_of_le h.1 grows.functions, h.2⟩

theorem links_frame_mono {ref ref' : FrameRef} (h : (shifts.links store).frame ref ref')
    (grows : store.Grows later) : (shifts.links later).frame ref ref' :=
  ⟨Nat.lt_of_lt_of_le h.1 grows.frames, h.2⟩

theorem Callable.Linked.mono {callable callable' : Callable}
    (h : callable.Linked (shifts.links store) callable') (grows : store.Grows later) :
    callable.Linked (shifts.links later) callable' := by
  cases h with
  | script definition hscope => exact .script definition (links_frame_mono hscope grows)
  | intrinsic function => exact .intrinsic function
  | builtin name function => exact .builtin name function

theorem ValuesLinked.mono {values values' : List Value}
    (h : ValuesLinked (shifts.links store) values values') (grows : store.Grows later) :
    ValuesLinked (shifts.links later) values values' :=
  h.imp fun _ _ hvalue => hvalue.mono grows

theorem Table.Linked.mono {table table' : Table Value}
    (h : table.Linked (shifts.links store) table') (grows : store.Grows later) :
    table.Linked (shifts.links later) table' :=
  h.imp fun _ _ hentry => ⟨hentry.1, hentry.2.mono grows⟩

theorem Edit.Linked.mono {edit edit' : Edit}
    (h : edit.Linked (shifts.links store) edit') (grows : store.Grows later) :
    edit.Linked (shifts.links later) edit' := by
  cases h with
  | property name href hvalue =>
    exact .property name (links_object_mono href grows) (hvalue.mono grows)
  | element index href hvalue =>
    exact .element index (links_array_mono href grows) (hvalue.mono grows)
  | length length href => exact .length length (links_array_mono href grows)
  | nothing => exact .nothing

end Growth

/-! ## Corresponding stores -/

/-- Frames with the same names, linked values and linked frames around them. Of the global names
only those that are not `hidden` count. -/
structure Frame.Linked (links : Links) (hidden : List String) (ref : FrameRef)
    (frame frame' : Frame) : Prop where
  parent : Option.Rel links.frame frame.parent frame'.parent
  outward : ∀ parent ∈ frame.parent, parent.index < ref.index
  bindings : ∀ name, (ref = globalFrame → name ∉ hidden) →
    Option.Rel (Value.Linked links) (frame.bindings.get? name) (frame'.bindings.get? name)

/-- Whether the same things stand in two stores, but for what `shifts` allows and for the global
names that are `hidden`. -/
structure Store.Corresponds (shifts : Shifts) (hidden : List String) (store other : Store) :
    Prop where
  fit : shifts.Fit store other
  global : 0 < shifts.frames.kept
  linked : store.Linked (shifts.links store) other
  frame : ∀ {ref ref'}, (shifts.links store).frame ref ref' →
    (store.frame ref).Linked (shifts.links store) hidden ref (other.frame ref')

/-! ## Elements written -/

section Elements

variable {links : Links} {items items' : Array Value} {value value' : Value}

theorem forall₂_set {α β : Type} {r : α → β → Prop} {xs : List α} {ys : List β} {x : α} {y : β}
    (h : List.Forall₂ r xs ys) (hxy : r x y) (index : Nat) :
    List.Forall₂ r (xs.set index x) (ys.set index y) := by
  induction h generalizing index with
  | nil => exact .nil
  | cons hhead htail ih =>
    cases index with
    | zero => exact .cons hxy htail
    | succ index => exact .cons hhead (ih index)

theorem linked_undefined (links : Links) (count : Nat) : ValuesLinked links
    (List.replicate count Value.undefined) (List.replicate count .undefined) := by
  refine List.forall₂_same.mpr fun value hvalue => ?_
  rw [List.eq_of_mem_replicate hvalue]
  exact .undefined

theorem withElement_linked (index : Nat) (hvalue : value.Linked links value')
    (hitems : ValuesLinked links items.toList items'.toList) :
    ValuesLinked links (withElement index value items).toList
      (withElement index value' items').toList := by
  have hsize : items.size = items'.size := hitems.length_eq
  unfold withElement
  rw [hsize]
  split
  · rw [Array.toList_setIfInBounds, Array.toList_setIfInBounds]
    exact forall₂_set hitems hvalue index
  · simp only [Array.toList_push, Array.toList_append, Array.toList_replicate]
    exact List.rel_append (List.rel_append hitems (linked_undefined links _)) (.cons hvalue .nil)

theorem resized_linked (length : Nat) (hitems : ValuesLinked links items.toList items'.toList) :
    ValuesLinked links (resized length items).toList (resized length items').toList := by
  have hsize : items.size = items'.size := hitems.length_eq
  unfold resized
  rw [hsize]
  simp only [Array.toList_append, Array.toList_replicate, Array.take_eq_extract,
    Array.toList_extract, List.extract_eq_take_drop, Nat.sub_zero, List.drop_zero]
  exact List.rel_append (List.forall₂_take length hitems) (linked_undefined links _)

end Elements

/-! ## Names of a frame -/

section Lists

variable {α β γ δ : Type} {r : α → β → Prop} {xs : List α} {ys : List β}

theorem rel_findSome? {s : γ → δ → Prop} {f : α → Option γ} {g : β → Option δ}
    (h : List.Forall₂ r xs ys) (hrel : ∀ x y, r x y → Option.Rel s (f x) (g y)) :
    Option.Rel s (xs.findSome? f) (ys.findSome? g) := by
  induction h with
  | nil => exact .none
  | @cons x y xs ys hhead _ ih =>
    have hfirst := hrel _ _ hhead
    rw [List.findSome?_cons, List.findSome?_cons]
    generalize f x = a at hfirst
    generalize g y = b at hfirst
    cases hfirst with
    | none => exact ih
    | some h => exact .some h

theorem rel_find? {f : α → Bool} {g : β → Bool} (h : List.Forall₂ r xs ys)
    (heq : ∀ x y, r x y → f x = g y) : Option.Rel r (xs.find? f) (ys.find? g) := by
  induction h with
  | nil => exact .none
  | cons hhead _ ih =>
    rw [List.find?_cons, List.find?_cons, heq _ _ hhead]
    split
    · exact .some hhead
    · exact ih

theorem rel_getLastD (h : List.Forall₂ r xs ys) {x : α} {y : β} (hfallback : r x y) :
    r (xs.getLastD x) (ys.getLastD y) := by
  induction h generalizing x y with
  | nil => exact hfallback
  | cons hhead _ ih =>
    rw [List.getLastD_cons, List.getLastD_cons]
    exact ih hhead

theorem isSome_eq_of_rel {a : Option α} {b : Option β} (h : Option.Rel r a b) :
    a.isSome = b.isSome := by
  cases h <;> rfl

end Lists
namespace Frame.Linked

variable {links : Links} {hidden hidden' : List String} {ref : FrameRef} {frame frame' : Frame}

theorem put (h : frame.Linked links hidden ref frame') (name : String) {value value' : Value}
    (hvalue : value.Linked links value')
    (hidden_or : ∀ other ∈ hidden, other = name ∨ other ∈ hidden') :
    Frame.Linked links hidden' ref { frame with bindings := frame.bindings.put name value }
      { frame' with bindings := frame'.bindings.put name value' } := by
  refine ⟨h.parent, h.outward, fun other visible => ?_⟩
  rw [Table.get?_put, Table.get?_put]
  split
  · exact .some hvalue
  · next hne =>
    exact h.bindings other fun hglobal hmem =>
      (hidden_or other hmem).elim hne (visible hglobal)

theorem putMissing (h : frame.Linked links hidden ref frame') (name : String) :
    (frame.putMissing name).Linked links hidden ref (frame'.putMissing name) := by
  have hget : ∀ (frame : Frame) (other : String), other ≠ name →
      (frame.putMissing name).bindings.get? other = frame.bindings.get? other := by
    intro frame other hne
    unfold Frame.putMissing
    split
    · rfl
    · rw [Table.get?_put, if_neg hne]
  have hparent : ∀ frame : Frame, (frame.putMissing name).parent = frame.parent := by
    intro frame
    unfold Frame.putMissing
    split <;> rfl
  refine ⟨by rw [hparent, hparent]; exact h.parent, by rw [hparent]; exact h.outward,
    fun other visible => ?_⟩
  have hother := h.bindings other visible
  by_cases heq : other = name
  · subst heq
    unfold Frame.putMissing
    rw [isSome_eq_of_rel hother]
    split
    · exact hother
    · rw [Table.get?_put, Table.get?_put, if_pos rfl, if_pos rfl]
      exact .some .undefined
  · rw [hget _ _ heq, hget _ _ heq]
    exact hother

end Frame.Linked

/-! ## Changes that make stores correspond again -/

namespace Store.Corresponds

variable {shifts : Shifts} {hidden hidden' : List String} {store other later later' : Store}

/-- Stores correspond after a change of both when everything either stands as it did or corresponds
anew. -/
theorem changed (h : store.Corresponds shifts hidden other) (grows : store.Grows later)
    (fit : shifts.Fit later later')
    (elements : ∀ {ref ref'}, (shifts.links later).array ref ref' →
      ((shifts.links store).array ref ref' ∧ later.elements ref = store.elements ref ∧
        later'.elements ref' = other.elements ref') ∨
      ValuesLinked (shifts.links later) (later.elements ref).toList (later'.elements ref').toList)
    (properties : ∀ {ref ref'}, (shifts.links later).object ref ref' →
      ((shifts.links store).object ref ref' ∧ later.properties ref = store.properties ref ∧
        later'.properties ref' = other.properties ref') ∨
      (later.properties ref).Linked (shifts.links later) (later'.properties ref'))
    (callable : ∀ {ref ref'}, (shifts.links later).function ref ref' →
      ((shifts.links store).function ref ref' ∧ later.callable ref = store.callable ref ∧
        later'.callable ref' = other.callable ref') ∨
      (later.callable ref).Linked (shifts.links later) (later'.callable ref'))
    (frame : ∀ {ref ref'}, (shifts.links later).frame ref ref' →
      ((shifts.links store).frame ref ref' ∧ later.frame ref = store.frame ref ∧
        later'.frame ref' = other.frame ref' ∧ (ref = globalFrame → hidden ⊆ hidden')) ∨
      (later.frame ref).Linked (shifts.links later) hidden' ref (later'.frame ref')) :
    later.Corresponds shifts hidden' later' where
  fit := fit
  global := h.global
  linked := by
    refine ⟨⟨shifts.oneToOne_links later, fun href => ?_, fun href => ?_⟩, fun href => ?_⟩
    · rcases elements href with ⟨hold, heq, heq'⟩ | hnew
      · rw [heq, heq']
        exact (h.linked.elements hold).mono grows
      · exact hnew
    · rcases properties href with ⟨hold, heq, heq'⟩ | hnew
      · rw [heq, heq']
        exact (h.linked.properties hold).mono grows
      · exact hnew
    · rcases callable href with ⟨hold, heq, heq'⟩ | hnew
      · rw [heq, heq']
        exact (h.linked.callable hold).mono grows
      · exact hnew
  frame {ref ref'} href := by
    rcases frame href with ⟨hold, heq, heq', hsub⟩ | hnew
    · -- what was hidden in the global frame must still be, as nothing has been set there
      rw [heq, heq']
      obtain ⟨hparent, houtward, hbindings⟩ := h.frame hold
      refine ⟨?_, houtward, fun name hname => ?_⟩
      · exact rel_imp hparent fun _ _ hlink => links_frame_mono hlink grows
      · have hvisible : ref = globalFrame → name ∉ hidden :=
          fun hglobal hmem => hname hglobal (hsub hglobal hmem)
        exact rel_imp (hbindings name hvisible) fun _ _ hvalue => hvalue.mono grows
    · exact hnew

theorem global_linked (h : store.Corresponds shifts hidden other) :
    (shifts.links store).frame globalFrame globalFrame :=
  ⟨Nat.lt_of_lt_of_le h.global h.fit.frames.kept, (if_pos h.global).symm⟩

/-! ### New things -/

theorem newArray (h : store.Corresponds shifts hidden other) {items items' : Array Value}
    (hitems : ValuesLinked (shifts.links store) items.toList items'.toList) :
    (store.newArray items).2.Corresponds shifts hidden (other.newArray items').2 := by
  have hgrows : store.Grows (store.newArray items).2 := Store.grows_newArray store items
  refine h.changed hgrows ?_ ?_ (fun href => .inl ⟨href, rfl, rfl⟩)
    (fun href => .inl ⟨href, rfl, rfl⟩) (fun href => .inl ⟨href, rfl, rfl, fun _ _ hname => hname⟩)
  · refine ⟨?_, h.fit.objects, h.fit.functions, h.fit.frames⟩
    simpa [Store.newArray] using h.fit.arrays.succ
  · intro ref ref' href
    have hlt : ref.index < store.arrays.size + 1 := by simpa [Store.newArray] using href.1
    rw [Store.elements_newArray, Store.elements_newArray]
    have hiff := Shift.eq_size_iff h.fit.arrays href.2
    by_cases hnew : ref.index = store.arrays.size
    · rw [if_pos hnew, if_pos (hiff.mp hnew)]
      exact .inr (hitems.mono hgrows)
    · rw [if_neg hnew, if_neg (mt hiff.mpr hnew)]
      exact .inl ⟨⟨by omega, href.2⟩, rfl, rfl⟩

theorem newObject (h : store.Corresponds shifts hidden other) {properties properties' : Table Value}
    (hproperties : properties.Linked (shifts.links store) properties') :
    (store.newObject properties).2.Corresponds shifts hidden (other.newObject properties').2 := by
  have hgrows : store.Grows (store.newObject properties).2 := Store.grows_newObject store properties
  refine h.changed hgrows ?_ (fun href => .inl ⟨href, rfl, rfl⟩) ?_
    (fun href => .inl ⟨href, rfl, rfl⟩) (fun href => .inl ⟨href, rfl, rfl, fun _ _ hname => hname⟩)
  · refine ⟨h.fit.arrays, ?_, h.fit.functions, h.fit.frames⟩
    simpa [Store.newObject] using h.fit.objects.succ
  · intro ref ref' href
    have hlt : ref.index < store.objects.size + 1 := by simpa [Store.newObject] using href.1
    rw [Store.properties_newObject, Store.properties_newObject]
    have hiff := Shift.eq_size_iff h.fit.objects href.2
    by_cases hnew : ref.index = store.objects.size
    · rw [if_pos hnew, if_pos (hiff.mp hnew)]
      exact .inr (hproperties.mono hgrows)
    · rw [if_neg hnew, if_neg (mt hiff.mpr hnew)]
      exact .inl ⟨⟨by omega, href.2⟩, rfl, rfl⟩

theorem newFunction (h : store.Corresponds shifts hidden other) {callable callable' : Callable}
    (hcallable : callable.Linked (shifts.links store) callable') :
    (store.newFunction callable).2.Corresponds shifts hidden (other.newFunction callable').2 := by
  have hgrows : store.Grows (store.newFunction callable).2 := Store.grows_newFunction store callable
  refine h.changed hgrows ?_ (fun href => .inl ⟨href, rfl, rfl⟩) (fun href => .inl ⟨href, rfl, rfl⟩)
    ?_ (fun href => .inl ⟨href, rfl, rfl, fun _ _ hname => hname⟩)
  · refine ⟨h.fit.arrays, h.fit.objects, ?_, h.fit.frames⟩
    simpa [Store.newFunction] using h.fit.functions.succ
  · intro ref ref' href
    have hlt : ref.index < store.functions.size + 1 := by simpa [Store.newFunction] using href.1
    rw [Store.callable_newFunction, Store.callable_newFunction]
    have hiff := Shift.eq_size_iff h.fit.functions href.2
    by_cases hnew : ref.index = store.functions.size
    · rw [if_pos hnew, if_pos (hiff.mp hnew)]
      exact .inr (hcallable.mono hgrows)
    · rw [if_neg hnew, if_neg (mt hiff.mpr hnew)]
      exact .inl ⟨⟨by omega, href.2⟩, rfl, rfl⟩

theorem newFrame (h : store.Corresponds shifts hidden other) {scope scope' : FrameRef}
    (hscope : (shifts.links store).frame scope scope') :
    (store.newFrame (some scope)).2.Corresponds shifts hidden
      (other.newFrame (some scope')).2 := by
  have hgrows := store.grows_newFrame (some scope)
  refine h.changed hgrows ?_ (fun href => .inl ⟨href, rfl, rfl⟩) (fun href => .inl ⟨href, rfl, rfl⟩)
    (fun href => .inl ⟨href, rfl, rfl⟩) ?_
  · refine ⟨h.fit.arrays, h.fit.objects, h.fit.functions, ?_⟩
    simpa [Store.newFrame] using h.fit.frames.succ
  · intro ref ref' href
    have hlt : ref.index < store.frames.size + 1 := by simpa [Store.newFrame] using href.1
    rw [Store.frame_newFrame, Store.frame_newFrame]
    have hiff := Shift.eq_size_iff h.fit.frames href.2
    by_cases hnew : ref.index = store.frames.size
    · rw [if_pos hnew, if_pos (hiff.mp hnew)]
      refine .inr ⟨.some (links_frame_mono hscope hgrows), ?_, fun _ _ => .none⟩
      rintro _ ⟨⟩
      exact hnew ▸ hscope.1
    · rw [if_neg hnew, if_neg (mt hiff.mpr hnew)]
      exact .inl ⟨⟨by omega, href.2⟩, rfl, rfl, fun _ _ hname => hname⟩

/-- The next things of corresponding stores are linked once they are made. -/
theorem linked_newArray (h : store.Corresponds shifts hidden other) (items items' : Array Value) :
    (store.newArray items).1.Linked (shifts.links (store.newArray items).2)
      (other.newArray items').1 :=
  .array ⟨by simp [Store.newArray], (Shift.place_size h.fit.arrays).symm⟩

theorem linked_newObject (h : store.Corresponds shifts hidden other)
    (properties properties' : Table Value) :
    (store.newObject properties).1.Linked (shifts.links (store.newObject properties).2)
      (other.newObject properties').1 :=
  .object ⟨by simp [Store.newObject], (Shift.place_size h.fit.objects).symm⟩

theorem linked_newFunction (h : store.Corresponds shifts hidden other)
    (callable callable' : Callable) :
    (store.newFunction callable).1.Linked (shifts.links (store.newFunction callable).2)
      (other.newFunction callable').1 :=
  .function ⟨by simp [Store.newFunction], (Shift.place_size h.fit.functions).symm⟩

theorem linked_newFrame (h : store.Corresponds shifts hidden other)
    (scope scope' : Option FrameRef) :
    (shifts.links (store.newFrame scope).2).frame (store.newFrame scope).1
      (other.newFrame scope').1 :=
  ⟨by simp [Store.newFrame], (Shift.place_size h.fit.frames).symm⟩

/-! ### Writes -/

theorem modifyElements (h : store.Corresponds shifts hidden other) {ref ref' : ArrayRef}
    (href : (shifts.links store).array ref ref') {change change' : Array Value → Array Value}
    (hchange : ∀ {items items' : Array Value},
      ValuesLinked (shifts.links store) items.toList items'.toList →
      ValuesLinked (shifts.links store) (change items).toList (change' items').toList) :
    (store.modifyElements ref change).Corresponds shifts hidden
      (other.modifyElements ref' change') := by
  have hgrows := store.grows_modifyElements ref change
  refine h.changed hgrows ?_ ?_ (fun href => .inl ⟨href, rfl, rfl⟩)
    (fun href => .inl ⟨href, rfl, rfl⟩) (fun href => .inl ⟨href, rfl, rfl, fun _ _ hname => hname⟩)
  · refine ⟨?_, h.fit.objects, h.fit.functions, h.fit.frames⟩
    simpa [Store.modifyElements] using h.fit.arrays
  · intro target target' htarget
    have hold : (shifts.links store).array target target' :=
      ⟨by simpa [Store.modifyElements] using htarget.1, htarget.2⟩
    have hlt : target'.index < other.arrays.size :=
      hold.2 ▸ Shift.place_lt h.fit.arrays hold.1
    rw [Store.elements_modifyElements _ _ hold.1, Store.elements_modifyElements _ _ hlt]
    have hiff := (shifts.oneToOne_links store).array href hold
    by_cases heq : ref = target
    · rw [if_pos heq, if_pos (hiff.mp heq)]
      exact .inr (ValuesLinked.mono (hchange (h.linked.elements hold)) hgrows)
    · rw [if_neg heq, if_neg (mt hiff.mpr heq)]
      exact .inl ⟨hold, rfl, rfl⟩

theorem modifyProperties (h : store.Corresponds shifts hidden other) {ref ref' : ObjectRef}
    (href : (shifts.links store).object ref ref') {change change' : Table Value → Table Value}
    (hchange : ∀ {table table' : Table Value}, table.Linked (shifts.links store) table' →
      (change table).Linked (shifts.links store) (change' table')) :
    (store.modifyProperties ref change).Corresponds shifts hidden
      (other.modifyProperties ref' change') := by
  have hgrows := store.grows_modifyProperties ref change
  refine h.changed hgrows ?_ (fun href => .inl ⟨href, rfl, rfl⟩) ?_
    (fun href => .inl ⟨href, rfl, rfl⟩) (fun href => .inl ⟨href, rfl, rfl, fun _ _ hname => hname⟩)
  · refine ⟨h.fit.arrays, ?_, h.fit.functions, h.fit.frames⟩
    simpa [Store.modifyProperties] using h.fit.objects
  · intro target target' htarget
    have hold : (shifts.links store).object target target' :=
      ⟨by simpa [Store.modifyProperties] using htarget.1, htarget.2⟩
    have hlt : target'.index < other.objects.size :=
      hold.2 ▸ Shift.place_lt h.fit.objects hold.1
    rw [Store.properties_modifyProperties _ _ hold.1, Store.properties_modifyProperties _ _ hlt]
    have hiff := (shifts.oneToOne_links store).object href hold
    by_cases heq : ref = target
    · rw [if_pos heq, if_pos (hiff.mp heq)]
      exact .inr (Table.Linked.mono (hchange (h.linked.properties hold)) hgrows)
    · rw [if_neg heq, if_neg (mt hiff.mpr heq)]
      exact .inl ⟨hold, rfl, rfl⟩

/-- A change of corresponding frames. Global names come out of hiding only when it is they that are
changed. -/
theorem modifyFrame (h : store.Corresponds shifts hidden other) {ref ref' : FrameRef}
    (href : (shifts.links store).frame ref ref') {change change' : Frame → Frame}
    (hchange : ∀ {frame frame' : Frame}, frame.Linked (shifts.links store) hidden ref frame' →
      (change frame).Linked (shifts.links store) hidden' ref (change' frame'))
    (others : ref ≠ globalFrame → hidden ⊆ hidden') :
    (store.modifyFrame ref change).Corresponds shifts hidden' (other.modifyFrame ref' change') := by
  have hgrows := store.grows_modifyFrame ref change
  have hlinks : shifts.links (store.modifyFrame ref change) = shifts.links store := by
    simp [Shifts.links, Store.modifyFrame]
  refine h.changed hgrows ?_ (fun href => .inl ⟨href, rfl, rfl⟩) (fun href => .inl ⟨href, rfl, rfl⟩)
    (fun href => .inl ⟨href, rfl, rfl⟩) ?_
  · refine ⟨h.fit.arrays, h.fit.objects, h.fit.functions, ?_⟩
    simpa [Store.modifyFrame] using h.fit.frames
  · intro target target' hold
    rw [hlinks] at hold ⊢
    have hlt : target'.index < other.frames.size :=
      hold.2 ▸ Shift.place_lt h.fit.frames hold.1
    rw [Store.frame_modifyFrame _ _ hold.1, Store.frame_modifyFrame _ _ hlt]
    have hiff := (shifts.oneToOne_links store).frame href hold
    by_cases heq : ref = target
    · subst heq
      rw [if_pos rfl, if_pos (hiff.mp rfl)]
      exact .inr (hchange (h.frame hold))
    · rw [if_neg heq, if_neg (mt hiff.mpr heq)]
      exact .inl ⟨hold, rfl, rfl, fun hglobal => others fun hne => heq (hne.trans hglobal.symm)⟩

theorem apply (h : store.Corresponds shifts hidden other) {edit edit' : Edit}
    (hedit : edit.Linked (shifts.links store) edit') :
    (store.apply edit).Corresponds shifts hidden (other.apply edit') := by
  cases hedit with
  | property name href hvalue => exact h.modifyProperties href fun htable => htable.put name hvalue
  | element index href hvalue =>
    exact h.modifyElements href fun hitems => withElement_linked index hvalue hitems
  | length length href => exact h.modifyElements href fun hitems => resized_linked length hitems
  | nothing => exact h

/-! ### Names -/

theorem chainWithin (h : store.Corresponds shifts hidden other) {fuel fuel' : Nat}
    {ref ref' : FrameRef} (href : (shifts.links store).frame ref ref') (hfuel : ref.index < fuel)
    (hfuel' : ref'.index < fuel') :
    List.Forall₂ (shifts.links store).frame (store.chainWithin fuel ref)
      (other.chainWithin fuel' ref') := by
  induction fuel generalizing fuel' ref ref' with
  | zero => exact absurd hfuel (Nat.not_lt_zero _)
  | succ fuel ih =>
    cases fuel' with
    | zero => exact absurd hfuel' (Nat.not_lt_zero _)
    | succ fuel' =>
      unfold Store.chainWithin
      refine .cons href ?_
      obtain ⟨hparent, houtward, -⟩ := h.frame href
      generalize (store.frame ref).parent = scope at hparent houtward ⊢
      generalize (other.frame ref').parent = scope' at hparent ⊢
      cases hparent with
      | none => exact .nil
      | @some parent parent' hlink =>
        -- frames are made behind those around them, on both sides, so that the fuel suffices
        have hlt : parent.index < ref.index := houtward parent rfl
        have hlt' : parent'.index < ref'.index := by
          rw [hlink.2, href.2]
          exact Shift.place_lt_place hlt
        exact ih hlink (by omega) (by omega)

/-- **The frames around corresponding frames correspond.** -/
theorem chain (h : store.Corresponds shifts hidden other) {ref ref' : FrameRef}
    (href : (shifts.links store).frame ref ref') :
    List.Forall₂ (shifts.links store).frame (store.chain ref) (other.chain ref') :=
  h.chainWithin href (Nat.lt_succ_self _) (Nat.lt_succ_self _)

theorem ownBinding? (h : store.Corresponds shifts hidden other) {ref ref' : FrameRef}
    (href : (shifts.links store).frame ref ref') {name : String} (visible : name ∉ hidden) :
    Option.Rel (Value.Linked (shifts.links store)) (store.ownBinding? ref name)
      (other.ownBinding? ref' name) :=
  (h.frame href).bindings name fun _ => visible

/-- **A name that is not hidden has linked values seen from corresponding frames.** -/
theorem binding? (h : store.Corresponds shifts hidden other) {ref ref' : FrameRef}
    (href : (shifts.links store).frame ref ref') {name : String} (visible : name ∉ hidden) :
    Option.Rel (Value.Linked (shifts.links store)) (store.binding? ref name)
      (other.binding? ref' name) :=
  rel_findSome? (h.chain href) fun _ _ hlink => h.ownBinding? hlink visible

theorem holder? (h : store.Corresponds shifts hidden other) {ref ref' : FrameRef}
    (href : (shifts.links store).frame ref ref') {name : String} (visible : name ∉ hidden) :
    Option.Rel (shifts.links store).frame (store.holder? ref name) (other.holder? ref' name) := by
  refine rel_find? (h.chain href) fun _ _ hlink => ?_
  exact isSome_eq_of_rel (h.ownBinding? hlink visible)

theorem declare (h : store.Corresponds shifts hidden other) {ref ref' : FrameRef}
    (href : (shifts.links store).frame ref ref') (name : String) {value value' : Value}
    (hvalue : value.Linked (shifts.links store) value') :
    (store.declare ref name value).Corresponds shifts hidden (other.declare ref' name value') :=
  h.modifyFrame href (fun hframe => hframe.put name hvalue fun _ hmem => .inr hmem)
    fun _ _ hmem => hmem

/-- A global name comes out of hiding when it gets linked values. -/
theorem declare_global (h : store.Corresponds shifts hidden other) (name : String)
    {value value' : Value} (hvalue : value.Linked (shifts.links store) value') :
    (store.declare globalFrame name value).Corresponds shifts (hidden.filter (· ≠ name))
      (other.declare globalFrame name value') := by
  refine h.modifyFrame h.global_linked (fun hframe => hframe.put name hvalue fun other hmem => ?_)
    fun hne => absurd rfl hne
  by_cases heq : other = name
  · exact .inl heq
  · exact .inr (List.mem_filter.mpr ⟨hmem, by simpa using heq⟩)

theorem declareMissing (h : store.Corresponds shifts hidden other) {ref ref' : FrameRef}
    (href : (shifts.links store).frame ref ref') (name : String) :
    (store.declareMissing ref name).Corresponds shifts hidden (other.declareMissing ref' name) := by
  rw [Store.declareMissing_eq, Store.declareMissing_eq]
  exact h.modifyFrame href (fun hframe => hframe.putMissing name) fun _ _ hmem => hmem

theorem assign_global (h : store.Corresponds shifts hidden other) (name : String)
    {value value' : Value} (hvalue : value.Linked (shifts.links store) value') :
    (store.assign globalFrame name value).Corresponds shifts (hidden.filter (· ≠ name))
      (other.assign globalFrame name value') := by
  rw [Store.assign_globalFrame, Store.assign_globalFrame]
  exact h.declare_global name hvalue

theorem assign (h : store.Corresponds shifts hidden other) {ref ref' : FrameRef}
    (href : (shifts.links store).frame ref ref') {name : String} (visible : name ∉ hidden)
    {value value' : Value} (hvalue : value.Linked (shifts.links store) value') :
    (store.assign ref name value).Corresponds shifts hidden (other.assign ref' name value') := by
  refine h.declare (rel_getD (h.holder? href visible) ?_) name hvalue
  exact rel_getLastD (h.chain href) href

end Store.Corresponds

end Formulary
