import Formulary.Script.Global
import Formulary.Script.Hoisting
import Formulary.Script.Property

/-!
# What single changes do to a store

* `Store.Grows` : stores with everything in them that another one has;
* `Store.elements_newArray`, `Store.frame_modifyFrame` : what a store holds behind a change;
* `Store.grows_newArray`, `Store.grows_hoist` : changes behind which a store has grown.
-/

namespace Formulary

/-- Whether a store has everything in it that another one has. -/
structure Store.Grows (store later : Store) : Prop where
  arrays : store.arrays.size ≤ later.arrays.size
  objects : store.objects.size ≤ later.objects.size
  functions : store.functions.size ≤ later.functions.size
  frames : store.frames.size ≤ later.frames.size

theorem Store.grows_refl (store : Store) : store.Grows store :=
  ⟨Nat.le_refl _, Nat.le_refl _, Nat.le_refl _, Nat.le_refl _⟩

theorem Store.Grows.trans {store middle later : Store} (first : store.Grows middle)
    (second : middle.Grows later) : store.Grows later :=
  ⟨Nat.le_trans first.arrays second.arrays, Nat.le_trans first.objects second.objects,
    Nat.le_trans first.functions second.functions, Nat.le_trans first.frames second.frames⟩

/-! ## What single changes do -/

namespace Store

variable (store : Store)

theorem elements_newArray (items : Array Value) (ref : ArrayRef) :
    (store.newArray items).2.elements ref =
      if ref.index = store.arrays.size then items else store.elements ref := by
  unfold newArray elements
  dsimp only
  rw [Array.getElem?_push]
  split <;> rfl

theorem properties_newObject (properties : Table Value) (ref : ObjectRef) :
    (store.newObject properties).2.properties ref =
      if ref.index = store.objects.size then properties else store.properties ref := by
  unfold newObject Store.properties
  dsimp only
  rw [Array.getElem?_push]
  split <;> rfl

theorem callable_newFunction (callable : Callable) (ref : FunctionRef) :
    (store.newFunction callable).2.callable ref =
      if ref.index = store.functions.size then callable else store.callable ref := by
  unfold newFunction Store.callable
  dsimp only
  rw [Array.getElem?_push]
  split <;> rfl

theorem frame_newFrame (parent : Option FrameRef) (ref : FrameRef) :
    (store.newFrame parent).2.frame ref =
      if ref.index = store.frames.size then ⟨.empty, parent⟩ else store.frame ref := by
  unfold newFrame frame
  dsimp only
  rw [Array.getElem?_push]
  split <;> rfl

theorem elements_modifyElements {target ref : ArrayRef} (change : Array Value → Array Value)
    (h : ref.index < store.arrays.size) :
    (store.modifyElements target change).elements ref =
      if target = ref then change (store.elements ref) else store.elements ref := by
  cases target
  cases ref
  unfold modifyElements elements
  dsimp only at h ⊢
  simp only [Array.getElem?_modify, Array.getElem?_eq_getElem h, ArrayRef.mk.injEq]
  split <;> rfl

theorem properties_modifyProperties {target ref : ObjectRef} (change : Table Value → Table Value)
    (h : ref.index < store.objects.size) :
    (store.modifyProperties target change).properties ref =
      if target = ref then change (store.properties ref) else store.properties ref := by
  cases target
  cases ref
  unfold modifyProperties properties
  dsimp only at h ⊢
  simp only [Array.getElem?_modify, Array.getElem?_eq_getElem h, ObjectRef.mk.injEq]
  split <;> rfl

/-- Changes a frame. -/
def modifyFrame (ref : FrameRef) (change : Frame → Frame) : Store :=
  { store with frames := store.frames.modify ref.index change }

theorem frame_modifyFrame {target ref : FrameRef} (change : Frame → Frame)
    (h : ref.index < store.frames.size) :
    (store.modifyFrame target change).frame ref =
      if target = ref then change (store.frame ref) else store.frame ref := by
  cases target
  cases ref
  unfold modifyFrame frame
  dsimp only at h ⊢
  simp only [Array.getElem?_modify, Array.getElem?_eq_getElem h, FrameRef.mk.injEq]
  split <;> rfl

theorem grows_newArray (items : Array Value) : store.Grows (store.newArray items).2 :=
  ⟨by simp [newArray], Nat.le_refl _, Nat.le_refl _, Nat.le_refl _⟩

theorem grows_newObject (properties : Table Value) : store.Grows (store.newObject properties).2 :=
  ⟨Nat.le_refl _, by simp [newObject], Nat.le_refl _, Nat.le_refl _⟩

theorem grows_newFunction (callable : Callable) : store.Grows (store.newFunction callable).2 :=
  ⟨Nat.le_refl _, Nat.le_refl _, by simp [newFunction], Nat.le_refl _⟩

theorem grows_newFrame (parent : Option FrameRef) : store.Grows (store.newFrame parent).2 :=
  ⟨Nat.le_refl _, Nat.le_refl _, Nat.le_refl _, by simp [newFrame]⟩

theorem grows_modifyElements (ref : ArrayRef) (change : Array Value → Array Value) :
    store.Grows (store.modifyElements ref change) :=
  ⟨by simp [modifyElements], Nat.le_refl _, Nat.le_refl _, Nat.le_refl _⟩

theorem grows_modifyProperties (ref : ObjectRef) (change : Table Value → Table Value) :
    store.Grows (store.modifyProperties ref change) :=
  ⟨Nat.le_refl _, by simp [modifyProperties], Nat.le_refl _, Nat.le_refl _⟩

theorem grows_apply (edit : Edit) : store.Grows (store.apply edit) := by
  cases edit with
  | property ref name value => exact store.grows_modifyProperties ref _
  | element ref index value => exact store.grows_modifyElements ref _
  | length ref length => exact store.grows_modifyElements ref _
  | nothing => exact store.grows_refl

theorem grows_modifyFrame (ref : FrameRef) (change : Frame → Frame) :
    store.Grows (store.modifyFrame ref change) :=
  ⟨Nat.le_refl _, Nat.le_refl _, Nat.le_refl _, by simp [modifyFrame]⟩

/-- What a change of a frame does depends on what it makes of that frame only. -/
theorem modifyFrame_congr {ref : FrameRef} {change change' : Frame → Frame}
    (h : change (store.frame ref) = change' (store.frame ref)) :
    store.modifyFrame ref change = store.modifyFrame ref change' := by
  have hframes : store.frames.modify ref.index change = store.frames.modify ref.index change' := by
    refine Array.ext_getElem? fun i => ?_
    rw [Array.getElem?_modify, Array.getElem?_modify]
    split
    · next heq =>
      subst heq
      unfold Store.frame at h
      cases hframe : store.frames[ref.index]? with
      | none => rfl
      | some frame =>
        rw [hframe] at h
        exact congrArg some h
    · rfl
  unfold modifyFrame
  rw [hframes]

theorem modifyFrame_of_eq {ref : FrameRef} {change : Frame → Frame}
    (h : change (store.frame ref) = store.frame ref) : store.modifyFrame ref change = store := by
  have hsame : store.modifyFrame ref change = store.modifyFrame ref id := store.modifyFrame_congr h
  have hframes : store.frames.modify ref.index id = store.frames := by
    refine Array.ext_getElem? fun i => ?_
    rw [Array.getElem?_modify, Option.map_id_apply, ite_self]
  rw [hsame]
  unfold modifyFrame
  rw [hframes]

end Store

/-- Gives a name undefined unless the frame has it. -/
def Frame.putMissing (frame : Frame) (name : String) : Frame :=
  if (frame.bindings.get? name).isSome then frame
  else { frame with bindings := frame.bindings.put name .undefined }

theorem Store.declareMissing_eq (store : Store) (ref : FrameRef) (name : String) :
    store.declareMissing ref name = store.modifyFrame ref fun frame => frame.putMissing name := by
  unfold declareMissing
  split
  · next hown =>
    have hkept : (store.frame ref).putMissing name = store.frame ref := if_pos hown
    exact (store.modifyFrame_of_eq hkept).symm
  · next hown =>
    have hput : (store.frame ref).putMissing name = { store.frame ref with
        bindings := (store.frame ref).bindings.put name .undefined } := if_neg hown
    exact (store.modifyFrame_congr hput).symm

/-- There is no frame around that of the global names. -/
theorem Store.assign_globalFrame (store : Store) (name : String) (value : Value) :
    store.assign globalFrame name value = store.declare globalFrame name value := by
  have hchain : store.chain globalFrame = [globalFrame] := by
    unfold chain
    simp only [globalFrame, chainWithin]
    split <;> rfl
  unfold assign holder? outermost
  rw [hchain, List.find?_cons]
  split <;> rfl


namespace Store

variable {store : Store}

theorem grows_declare (ref : FrameRef) (name : String) (value : Value) :
    store.Grows (store.declare ref name value) :=
  store.grows_modifyFrame ref _

theorem grows_declareMissing (ref : FrameRef) (name : String) :
    store.Grows (store.declareMissing ref name) := by
  rw [declareMissing_eq]
  exact store.grows_modifyFrame ref _

theorem grows_declareFunction (ref : FrameRef) (definition : FunctionDef) :
    store.Grows (store.declareFunction ref definition) := by
  unfold declareFunction
  split
  · exact (store.grows_newFunction _).trans (grows_declare _ _ _)
  · exact store.grows_refl

theorem grows_foldl {α : Type} {change : Store → α → Store}
    (h : ∀ (store : Store) (item : α), store.Grows (change store item)) (items : List α) :
    store.Grows (items.foldl change store) := by
  induction items generalizing store with
  | nil => exact store.grows_refl
  | cons item items ih => exact (h store item).trans ih

theorem grows_hoistOne (ref : FrameRef) (statement : Stmt) :
    store.Grows (store.hoistOne ref statement) := by
  cases statement with
  | function definition => exact grows_declareFunction ref definition
  | _ => exact grows_foldl (fun _ name => grows_declareMissing ref name) _

theorem grows_hoist (ref : FrameRef) (body : List Stmt) : store.Grows (store.hoist ref body) :=
  grows_foldl (fun _ statement => grows_hoistOne ref statement) body


end Store

end Formulary
