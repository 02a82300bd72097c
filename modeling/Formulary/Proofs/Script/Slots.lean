import Formulary.Proofs.Number.Text
import Formulary.Proofs.Value.Growth
import Formulary.Script.Evaluation

/-!
# The slots of containers

* `elementIndex?_eq_some_iff` : the names of positions are their digits;
* `Value.position?_iff` : a key denotes a position below `2 ^ 53` when its text is the name of it;
* `readIndexed_eq`, `editIndexed_iff` : keys reach what their texts name;
* `Store.SameBut` : stores that differ in one container at most;
* `writePlace_index` : a write by key changes one slot, and any key with that text reads it.
-/

namespace Formulary

/-! ## Names of positions -/

/-- **The name of a position is its digits.** -/
theorem elementIndex?_eq_some_iff {name : String} {i : Nat} : elementIndex? name = some i ↔
    i ≤ Number.uint64Greatest ∧ name.toList = Number.digitChars i := by
  unfold elementIndex?
  dsimp only
  constructor
  · intro h
    split at h
    · cases h
    · next hshape =>
      split at h
      · next hdigits =>
        split at h
        · next hle =>
          cases h
          have plain : Number.Plain name.toList := by
            refine ⟨by simpa using fun h => hshape (by simp [h]), ?_, ?_⟩
            · simpa using hdigits
            · rw [Bool.or_eq_true, not_or, Bool.and_eq_true, not_and_or] at hshape
              simpa using hshape.2
          exact ⟨hle, (Number.digitChars_natOfDigits plain).symm⟩
        · cases h
      · cases h
  · rintro ⟨hle, hname⟩
    obtain ⟨hnonempty, hdigits, hleading⟩ := Number.plain_digitChars i
    rw [hname, Number.natOfDigits_digitChars, if_neg, if_pos, if_pos hle]
    · simpa using hdigits
    · rw [Bool.or_eq_true, not_or, Bool.and_eq_true, not_and_or]
      exact ⟨by simpa using hnonempty, by simpa using hleading⟩

/-! ## Keys -/

namespace Value

variable {store : Store} {key : Value} {i : Nat}

theorem position?_number {x : Float} (hi : i < 2 ^ 53) :
    (number x).position? = some i ↔ Number.isWhole x = true ∧ Number.truncate x = i := by
  have hindex (hfinite : x.isFinite = true) :
      Number.clampIndex x = min (Number.truncate x).toNat Number.uint64Greatest := by
    rw [Number.clampIndex, if_neg (by simp [(Number.isFinite_iff.mp hfinite).2])]
  have hgreatest : 2 ^ 53 ≤ Number.uint64Greatest := by decide
  have hposition : (number x).position? =
      if 0 ≤ x && Number.isWhole x then some (Number.clampIndex x) else none := rfl
  rw [hposition]
  constructor
  · intro h
    split at h
    · next hkey =>
      obtain ⟨hnonneg, hwhole⟩ := Bool.and_eq_true_iff.mp hkey
      obtain ⟨hfinite, hfraction⟩ := Number.isWhole_iff.mp hwhole
      refine ⟨hwhole, ?_⟩
      have htruncate : 0 ≤ Number.truncate x := by
        rw [Number.truncate_of_isFinite hfinite]
        rcases (Number.nonneg_iff_parts hfinite).mp (of_decide_eq_true hnonneg) with hzero | hsign
        · simp [Number.Binary.wholePart_of_significand hzero]
        · simp [hsign]
      have hmin := Option.some.inj h
      rw [hindex hfinite] at hmin
      omega
    · cases h
  · rintro ⟨hwhole, htruncate⟩
    obtain ⟨hfinite, hfraction⟩ := Number.isWhole_iff.mp hwhole
    have hnonneg : 0 ≤ x := by
      rw [Number.nonneg_iff_parts hfinite]
      rw [Number.truncate_of_isFinite hfinite] at htruncate
      cases hsign : (Number.Binary.ofFloat x).negative with
      | false => exact .inr rfl
      | true =>
        rw [hsign, if_pos rfl] at htruncate
        exact .inl (Number.Binary.significand_of_wholePart hfraction (by omega))
    rw [if_pos (Bool.and_eq_true_iff.mpr ⟨decide_eq_true hnonneg, hwhole⟩), hindex hfinite,
      htruncate]
    congr 1
    omega

/-- A text with something that is no digit names no position. -/
theorem elementIndex?_eq_none {name : String} {c : Char} (hc : c ∈ name.toList)
    (h : c.isDigit = false) : elementIndex? name = none := by
  cases hname : elementIndex? name with
  | none => rfl
  | some i =>
    rw [(elementIndex?_eq_some_iff.mp hname).2] at hc
    rw [Number.isDigit_digitChars c hc] at h
    cases h

/-- **A key denotes a position below `2 ^ 53` when its text is the name of the position.** -/
theorem position?_iff (primitive : key.isPrimitive = true) (hi : i < 2 ^ 53) :
    key.position? = some i ↔ elementIndex? (key.display store) = some i := by
  have hnone (name : String) (c : Char) (hc : c ∈ name.toList) (h : c.isDigit = false) :
      none = some i ↔ elementIndex? name = some i := by
    rw [elementIndex?_eq_none hc h]
  cases key with
  | undefined => exact hnone "undefined" 'u' (by decide) rfl
  | null => exact hnone "null" 'n' (by decide) rfl
  | boolean b =>
    cases b with
    | true => exact hnone "true" 't' (by decide) rfl
    | false => exact hnone "false" 'f' (by decide) rfl
  | number x =>
    have hgreatest : 2 ^ 53 ≤ Number.uint64Greatest := by decide
    rw [position?_number hi, elementIndex?_eq_some_iff, ← Number.text_eq_iff hi]
    exact ⟨fun h => ⟨by omega, h⟩, And.right⟩
  | string s => exact Iff.rfl
  | array => cases primitive
  | object => cases primitive
  | function => cases primitive

end Value

/-! ## Reading -/

/-- Whether a value is a key of a container: a simple value, and for an array not the name of its
length. -/
structure Value.IsKeyOf (key : Value) (store : Store) (target : Value) : Prop where
  primitive : key.isPrimitive = true
  element : ∀ {ref}, target = .array ref → key.display store ≠ "length"

/-- Whether a value is an object of a store, or an array of it with fewer than `2 ^ 53` elements. -/
inductive Store.Slotted (store : Store) : Value → Prop
  | object {ref : ObjectRef} (made : ref.index < store.objects.size) : Slotted store (.object ref)
  | array {ref : ArrayRef} (made : ref.index < store.arrays.size)
    (short : (store.elements ref).size < 2 ^ 53) : Slotted store (.array ref)

section Reading

variable {store : Store} {target key value : Value} {ref : ArrayRef} {i : Nat}

/-- Positions from `2 ^ 53` on have no elements. -/
theorem Store.element_of_le (short : (store.elements ref).size < 2 ^ 53) (h : 2 ^ 53 ≤ i) :
    store.element ref i = .undefined := by
  unfold element
  rw [Array.getElem?_eq_none (by omega)]
  rfl

/-- The element that a text names. -/
def Store.elementNamed (store : Store) (ref : ArrayRef) (name : String) : Value :=
  match elementIndex? name with
  | some i => store.element ref i
  | none => .undefined

theorem readProperty_array {name : String} (h : name ≠ "length") :
    readProperty store (.array ref) name = .ok (store.elementNamed ref name) := by
  unfold readProperty Store.elementNamed
  dsimp only
  rw [if_neg h]
  cases elementIndex? name <;> rfl

/-- **A key of a container reads what its text names.** -/
theorem readIndexed_eq (slotted : store.Slotted target) (isKey : key.IsKeyOf store target) :
    readIndexed store target key = readProperty store target (key.display store) := by
  cases slotted with
  | object => rfl
  | array made short =>
    rw [readProperty_array (isKey.element rfl)]
    unfold readIndexed Store.elementNamed
    cases hposition : key.position? with
    | none =>
      rw [← Store.elementNamed, ← readProperty_array (isKey.element rfl)]
    | some i =>
      dsimp only
      congr 1
      by_cases hi : i < 2 ^ 53
      · rw [(Value.position?_iff isKey.primitive hi).mp hposition]
      · rw [Store.element_of_le short (by omega)]
        cases hname : elementIndex? (key.display store) with
        | none => rfl
        | some j =>
          refine (Store.element_of_le short ?_).symm
          by_contra hj
          have hsome := (Value.position?_iff isKey.primitive (by omega)).mpr hname
          rw [hposition] at hsome
          cases hsome
          omega

end Reading

/-! ## Writing -/

section Writing

variable {store : Store} {target key value : Value} {ref : ArrayRef} {i : Nat} {edit : Edit}

theorem editElement_eq_ok :
    editElement ref i value = .ok edit ↔ i < maxArrayLength ∧ edit = .element ref i value := by
  unfold editElement
  split
  · next hlt => simp [hlt, eq_comm]
  · next hge => simp [hge]

/-- A write to a name other than the length of an array needs the name of a position within the
limit of its length. -/
theorem editProperty_array {name : String} (h : name ≠ "length") :
    editProperty (.array ref) name value = .ok edit ↔
      ∃ i < maxArrayLength, elementIndex? name = some i ∧ edit = .element ref i value := by
  unfold editProperty
  dsimp only
  cases elementIndex? name with
  | none => simp [h]
  | some i => simp [editElement_eq_ok]

/-- A write to a key needs the same of the text of the key. -/
theorem editIndexed_array (isKey : key.IsKeyOf store (.array ref)) :
    editIndexed store (.array ref) key value = .ok edit ↔
      ∃ i < maxArrayLength, elementIndex? (key.display store) = some i ∧
        edit = .element ref i value := by
  have hlimit : maxArrayLength < 2 ^ 53 := by decide
  unfold editIndexed
  cases hposition : key.position? with
  | none => exact editProperty_array (isKey.element rfl)
  | some i =>
    dsimp only
    rw [editElement_eq_ok]
    constructor
    · rintro ⟨hlt, rfl⟩
      exact ⟨i, hlt, (Value.position?_iff isKey.primitive (by omega)).mp hposition, rfl⟩
    · rintro ⟨j, hlt, hname, rfl⟩
      have hj := (Value.position?_iff isKey.primitive (by omega)).mpr hname
      rw [hposition] at hj
      cases hj
      exact ⟨hlt, rfl⟩

/-- **A write by key is possible when that by its text is, and is the same.** -/
theorem editIndexed_iff (isKey : key.IsKeyOf store target) :
    editIndexed store target key value = .ok edit ↔
      editProperty target (key.display store) value = .ok edit := by
  cases target with
  | array ref => rw [editIndexed_array isKey, editProperty_array (isKey.element rfl)]
  | _ => exact Iff.rfl

theorem getD_withElement (i j : Nat) (value : Value) (items : Array Value) :
    ((withElement i value items)[j]?).getD .undefined =
      if j = i then value else (items[j]?).getD .undefined := by
  unfold withElement
  split
  · next hlt =>
    rw [Array.getElem?_setIfInBounds]
    by_cases hj : j = i
    · simp [hj, hlt]
    · rw [if_neg (Ne.symm hj), if_neg hj]
  · next hge =>
    rw [Array.getElem?_push, Array.size_append, Array.size_replicate,
      show items.size + (i - items.size) = i by omega]
    by_cases hj : j = i
    · simp [hj]
    · rw [if_neg hj, if_neg hj, Array.getElem?_append]
      split
      · rfl
      · next hout =>
        have hnone : items[j]? = none := Array.getElem?_eq_none (by omega)
        rw [hnone, Array.getElem?_replicate]
        split <;> rfl

theorem size_withElement (i : Nat) (value : Value) (items : Array Value) :
    (withElement i value items).size = max items.size (i + 1) := by
  unfold withElement
  split
  · rw [Array.size_setIfInBounds]
    omega
  · rw [Array.size_push, Array.size_append, Array.size_replicate]
    omega

/-- Two names of one position are the same. -/
theorem eq_of_elementIndex? {name other : String} (h : elementIndex? name = some i)
    (hother : elementIndex? other = some i) : other = name := by
  rw [← String.toList_inj, (elementIndex?_eq_some_iff.mp h).2,
    (elementIndex?_eq_some_iff.mp hother).2]

theorem element_apply (made : ref.index < store.arrays.size) (i j : Nat) (value : Value) :
    (store.apply (.element ref i value)).element ref j =
      if j = i then value else store.element ref j := by
  show ((((store.modifyElements ref (withElement i value)).elements ref)[j]?).getD .undefined) = _
  rw [store.elements_modifyElements _ made, if_pos rfl, getD_withElement]
  rfl

/-- **Behind a write by key the text of the key names the value, and any other text what it named
before.** -/
theorem readProperty_apply (slotted : store.Slotted target) (isKey : key.IsKeyOf store target)
    (h : editIndexed store target key value = .ok edit) {name : String}
    (hname : ∀ {ref}, target = .array ref → name ≠ "length") :
    readProperty (store.apply edit) target name =
      if name = key.display store then .ok value else readProperty store target name := by
  cases slotted with
  | object made =>
    cases h
    show Except.ok ((((store.modifyProperties _ _).properties _).get? name).getD .undefined) = _
    rw [store.properties_modifyProperties _ made, if_pos rfl, Table.get?_put]
    split <;> rfl
  | array made short =>
    obtain ⟨i, -, hkey, rfl⟩ := (editIndexed_array isKey).mp h
    rw [readProperty_array (hname rfl), readProperty_array (hname rfl)]
    unfold Store.elementNamed
    by_cases heq : name = key.display store
    · rw [if_pos heq, heq, hkey]
      exact congrArg _ ((element_apply made i i value).trans (if_pos rfl))
    · rw [if_neg heq]
      cases hother : elementIndex? name with
      | none => rfl
      | some j =>
        refine congrArg _ ((element_apply made i j value).trans (if_neg ?_))
        rintro rfl
        exact heq (eq_of_elementIndex? hkey hother)

/-- A write to a key of an array makes it as long as it takes. -/
theorem size_apply (isKey : key.IsKeyOf store (.array ref)) (made : ref.index < store.arrays.size)
    (h : editIndexed store (.array ref) key value = .ok edit) :
    ∃ i < maxArrayLength, elementIndex? (key.display store) = some i ∧
      ((store.apply edit).elements ref).size = max (store.elements ref).size (i + 1) := by
  obtain ⟨i, hi, hkey, rfl⟩ := (editIndexed_array isKey).mp h
  refine ⟨i, hi, hkey, ?_⟩
  show ((store.modifyElements ref (withElement i value)).elements ref).size = _
  rw [store.elements_modifyElements _ made, if_pos rfl, size_withElement]

/-- A write keeps a container one whose slots are read by key. -/
theorem slotted_apply (slotted : store.Slotted target) (isKey : key.IsKeyOf store target)
    (h : editIndexed store target key value = .ok edit) : (store.apply edit).Slotted target := by
  have grows := store.grows_apply edit
  cases slotted with
  | object made => exact .object (Nat.lt_of_lt_of_le made grows.objects)
  | array made short =>
    have hlimit : maxArrayLength < 2 ^ 53 := by decide
    obtain ⟨i, hi, -, hsize⟩ := size_apply isKey made h
    exact .array (Nat.lt_of_lt_of_le made grows.arrays) (by omega)

/-- Whether two stores have the same in them, but for one container. -/
structure Store.SameBut (store later : Store) (target : Value) : Prop where
  elements : ∀ ref, target ≠ .array ref → later.elements ref = store.elements ref
  properties : ∀ ref, target ≠ .object ref → later.properties ref = store.properties ref
  arrays : later.arrays.size = store.arrays.size
  objects : later.objects.size = store.objects.size
  functions : later.functions = store.functions
  frames : later.frames = store.frames

/-- **A write by key changes one container at most.** -/
theorem sameBut_apply (slotted : store.Slotted target) (isKey : key.IsKeyOf store target)
    (h : editIndexed store target key value = .ok edit) :
    store.SameBut (store.apply edit) target := by
  cases slotted with
  | @object own made =>
    cases h
    refine ⟨fun _ _ => rfl, fun ref hne => ?_, rfl, Array.size_modify .., rfl, rfl⟩
    have hindex : own.index ≠ ref.index := fun h =>
      hne (congrArg (fun index => Value.object ⟨index⟩) h)
    show ((store.objects.modify own.index _)[ref.index]?).getD .empty = _
    rw [Array.getElem?_modify, if_neg hindex]
    rfl
  | @array own made short =>
    obtain ⟨i, -, -, rfl⟩ := (editIndexed_array isKey).mp h
    refine ⟨fun ref hne => ?_, fun _ _ => rfl, Array.size_modify .., rfl, rfl, rfl⟩
    have hindex : own.index ≠ ref.index := fun h =>
      hne (congrArg (fun index => Value.array ⟨index⟩) h)
    show ((store.arrays.modify own.index _)[ref.index]?).getD #[] = _
    rw [Array.getElem?_modify, if_neg hindex]
    rfl

end Writing

/-! ## Runs -/

namespace Run

variable {machine later : Machine} {frame : FrameRef} {target key value : Value}
  {result : Except TypeFault Edit}

theorem applyEdit_eq_ok : (ofFault result >>= applyEdit) machine = .ok () later ↔
    ∃ edit, result = .ok edit ∧ later = { machine with store := machine.store.apply edit } := by
  cases result with
  | error fault =>
    constructor
    · rintro ⟨⟩
    · rintro ⟨_, ⟨⟩, -⟩
  | ok edit =>
    constructor
    · rintro ⟨⟩
      exact ⟨edit, rfl, rfl⟩
    · rintro ⟨_, ⟨⟩, rfl⟩
      rfl

theorem applyEdit_eq_error {halt : Halt}
    (h : (ofFault result >>= applyEdit) machine = .error halt later) : later = machine := by
  cases result with
  | error fault =>
    cases h
    rfl
  | ok edit => cases h

theorem display_of_isPrimitive (h : key.isPrimitive = true) (store other : Store) :
    key.display store = key.display other := by
  cases key with
  | array => cases h
  | object => cases h
  | function => cases h
  | _ => rfl

theorem isKeyOf_of_store {store other : Store} (isKey : key.IsKeyOf store target) :
    key.IsKeyOf other target := by
  refine ⟨isKey.primitive, fun h => ?_⟩
  rw [display_of_isPrimitive isKey.primitive other store]
  exact isKey.element h

/-- A container has one value that refers to it. -/
theorem eq_of_container? {store : Store} {same : Value} (slotted : store.Slotted target)
    (h : same.container? = target.container?) : same = target := by
  cases slotted with
  | object =>
    cases same with
    | object =>
      cases h
      rfl
    | _ => cases h
  | array =>
    cases same with
    | array =>
      cases h
      rfl
    | _ => cases h

/-- **A write by key changes one slot.** When it succeeds, every key with the same text reads the
value, through any reference to the container, and every other key reads what it did; an array is as
long as the written position takes; and nothing else changes. When it fails nothing changes at all.
Keys and names reach the same slots: a key reads what its text names, and is written to as its text
is. -/
theorem writePlace_index (machine : Machine) (frame : FrameRef) {target key : Value} (value : Value)
    (slotted : machine.store.Slotted target) (isKey : key.IsKeyOf machine.store target) :
    (∀ later, writePlace frame value (.index target key) machine = .ok () later →
      (∀ same other, same.container? = target.container? → other.IsKeyOf machine.store target →
        readIndexed later.store same other =
          if other.display machine.store = key.display machine.store then .ok value
          else readIndexed machine.store same other) ∧
      (∀ ref, target = .array ref → ∃ i, elementIndex? (key.display machine.store) = some i ∧
        (later.store.elements ref).size = max (machine.store.elements ref).size (i + 1)) ∧
      machine.store.SameBut later.store target ∧ later = { machine with store := later.store }) ∧
    (∀ halt later, writePlace frame value (.index target key) machine = .error halt later →
      later = machine) ∧
    readIndexed machine.store target key =
      readProperty machine.store target (key.display machine.store) ∧
    ∀ later, writePlace frame value (.index target key) machine = .ok () later ↔
      writePlace frame value (.property target (key.display machine.store)) machine =
        .ok () later := by
  refine ⟨fun later h => ?_, fun halt later h => ?_, readIndexed_eq slotted isKey, fun later => ?_⟩
  · obtain ⟨edit, hedit, rfl⟩ := applyEdit_eq_ok.mp h
    refine ⟨fun same other hsame hother => ?_, ?_, sameBut_apply slotted isKey hedit, rfl⟩
    · rw [eq_of_container? slotted hsame, readIndexed_eq slotted hother,
        readIndexed_eq (slotted_apply slotted isKey hedit) (isKeyOf_of_store hother),
        display_of_isPrimitive hother.primitive _ machine.store]
      exact readProperty_apply slotted isKey hedit hother.element
    · rintro ref rfl
      cases slotted with
      | array made =>
        obtain ⟨i, -, hkey, hsize⟩ := size_apply isKey made hedit
        exact ⟨i, hkey, hsize⟩
  · exact applyEdit_eq_error h
  · refine applyEdit_eq_ok.trans (Iff.trans ?_ applyEdit_eq_ok.symm)
    simp only [editIndexed_iff isKey]

/-- A machine with an array of one element. -/
def singleton : Machine := ⟨⟨#[#[.null]], #[], #[], #[]⟩, #[], 0, 0⟩

/-- A write behind the end of an array by a number, read again by a string. -/
theorem writePlace_index_singleton :
    singleton.store.Slotted (.array ⟨0⟩) ∧
      (Value.number 3).IsKeyOf singleton.store (.array ⟨0⟩) ∧
      ∃ later,
        writePlace ⟨0⟩ (.boolean true) (.index (.array ⟨0⟩) (.number 3)) singleton = .ok () later ∧
        readIndexed later.store (.array ⟨0⟩) (.string "3") = .ok (.boolean true) ∧
        (later.store.elements ⟨0⟩).size = 4 := by
  have hdisplay : (Value.number 3).display singleton.store = "3" := by decide +kernel
  have slotted : singleton.store.Slotted (.array ⟨0⟩) := .array (by decide) (by decide)
  have isKey : (Value.number 3).IsKeyOf singleton.store (.array ⟨0⟩) :=
    ⟨rfl, fun _ => by rw [hdisplay]; decide⟩
  have isKey' : (Value.string "3").IsKeyOf singleton.store (.array ⟨0⟩) :=
    ⟨rfl, fun _ => by decide⟩
  have hindex : elementIndex? "3" = some 3 := by decide
  have hedit : editIndexed singleton.store (.array ⟨0⟩) (.number 3) (.boolean true) =
      .ok (.element ⟨0⟩ 3 (.boolean true)) :=
    (editIndexed_array isKey).mpr ⟨3, by decide, by rw [hdisplay, hindex], rfl⟩
  have hwrite : writePlace ⟨0⟩ (.boolean true) (.index (.array ⟨0⟩) (.number 3)) singleton =
      .ok () { singleton with store := singleton.store.apply (.element ⟨0⟩ 3 (.boolean true)) } :=
    applyEdit_eq_ok.mpr ⟨_, hedit, rfl⟩
  have written := writePlace_index singleton ⟨0⟩ (.boolean true) slotted isKey
  obtain ⟨hread, hsize, -⟩ := written.1 _ hwrite
  refine ⟨slotted, isKey, _, hwrite, ?_, ?_⟩
  · rw [hread _ _ rfl isKey', hdisplay]
    exact if_pos rfl
  · obtain ⟨i, hi, hsize⟩ := hsize _ rfl
    rw [hdisplay, hindex] at hi
    cases hi
    exact hsize

end Run

end Formulary
