import Formulary.Proofs.Value.Linked
import Formulary.Script.Global
import Formulary.Script.Operator

/-!
# Operations do not tell linked values apart

* `ResultsLinked` : results that have failed alike or whose answers are related;
* `Store.Linked.readProperty`, `Store.Linked.editProperty` : properties of linked values;
* `Store.Linked.unary`, `Store.Linked.binary` : operators on linked operands;
* `Method.Linked` : methods found on linked values, and what their arguments denote.
-/

namespace Formulary

/-- Results that have failed alike, or whose answers are related. -/
inductive ResultsLinked {ε α β : Type} (r : α → β → Prop) : Except ε α → Except ε β → Prop where
  | ok {a : α} {b : β} (h : r a b) : ResultsLinked r (.ok a) (.ok b)
  | error (e : ε) : ResultsLinked r (.error e) (.error e)

theorem ResultsLinked.imp {ε α β : Type} {r s : α → β → Prop} {result : Except ε α}
    {result' : Except ε β} (h : ResultsLinked r result result') (himp : ∀ a b, r a b → s a b) :
    ResultsLinked s result result' := by
  cases h with
  | ok h => exact .ok (himp _ _ h)
  | error e => exact .error e

theorem ResultsLinked.mapError {ε δ α β : Type} {r : α → β → Prop} {result : Except ε α}
    {result' : Except ε β} (h : ResultsLinked r result result') (f : ε → δ) :
    ResultsLinked r (result.mapError f) (result'.mapError f) := by
  cases h with
  | ok h => exact .ok h
  | error e => exact .error (f e)

theorem resultsLinked_of_eq {ε α : Type} {result result' : Except ε α} (h : result = result') :
    ResultsLinked Eq result result' := by
  cases h
  cases result with
  | ok a => exact .ok rfl
  | error e => exact .error e

theorem Value.linked_boolean {links : Links} {b b' : Bool} (h : b = b') :
    (boolean b).Linked links (boolean b') := h ▸ .boolean b

theorem Value.linked_number {links : Links} {x x' : Float} (h : x = x') :
    (number x).Linked links (number x') := h ▸ .number x

theorem Value.linked_string {links : Links} {s s' : String} (h : s = s') :
    (string s).Linked links (string s') := h ▸ .string s

theorem Value.linked_ofFind {links : Links} {index index' : Option Nat} (h : index = index') :
    (ofFind index).Linked links (ofFind index') := by
  cases h
  cases index <;> exact .number _

theorem Value.Linked.position? {links : Links} {value value' : Value}
    (h : value.Linked links value') : value.position? = value'.position? := by
  cases h <;> rfl

theorem characterAt_linked (links : Links) (text : String) (index : Nat) :
    (characterAt text index).Linked links (characterAt text index) := by
  unfold characterAt
  split
  · exact .string _
  · exact .undefined

/-- Writes of linked values to linked places. -/
inductive Edit.Linked (links : Links) : Edit → Edit → Prop where
  | property {ref ref' : ObjectRef} (name : String) {value value' : Value}
      (href : links.object ref ref') (hvalue : value.Linked links value') :
      Linked links (.property ref name value) (.property ref' name value')
  | element {ref ref' : ArrayRef} (index : Nat) {value value' : Value}
      (href : links.array ref ref') (hvalue : value.Linked links value') :
      Linked links (.element ref index value) (.element ref' index value')
  | length {ref ref' : ArrayRef} (length : Nat) (href : links.array ref ref') :
      Linked links (.length ref length) (.length ref' length)
  | nothing : Linked links .nothing .nothing

theorem argumentAt_linked {links : Links} {arguments arguments' : List Value}
    (h : ValuesLinked links arguments arguments') (index : Nat) :
    (argumentAt arguments index).Linked links (argumentAt arguments' index) :=
  rel_getD (rel_getElem? h index) .undefined

namespace Store.Linked

variable {links : Links} {store other : Store}
  {value value' key key' left left' right right' : Value} {arguments arguments' : List Value}

/-! ## Properties -/

theorem element (linked : store.Linked links other) {ref ref' : ArrayRef}
    (href : links.array ref ref') (index : Nat) :
    (store.element ref index).Linked links (other.element ref' index) := by
  unfold Store.element
  rw [← Array.getElem?_toList, ← Array.getElem?_toList]
  exact rel_getD (rel_getElem? (linked.elements href) index) .undefined

theorem readProperty (linked : store.Linked links other) (h : value.Linked links value')
    (name : String) :
    ResultsLinked (Value.Linked links) (Formulary.readProperty store value name)
      (Formulary.readProperty other value' name) := by
  cases h with
  | undefined => exact .error _
  | null => exact .error _
  | boolean b => exact .ok .undefined
  | number x => exact .ok .undefined
  | string text =>
    simp only [Formulary.readProperty]
    split
    · exact .ok (.number _)
    · split
      · exact .ok (characterAt_linked links text _)
      · exact .ok .undefined
  | object href => exact .ok (rel_getD ((linked.properties href).get? name) .undefined)
  | array href =>
    simp only [Formulary.readProperty]
    rw [← Array.length_toList, ← Array.length_toList, (linked.elements href).length_eq]
    split
    · exact .ok (.number _)
    · split
      · exact .ok (linked.element href _)
      · exact .ok .undefined
  | function href =>
    simp only [Formulary.readProperty]
    rw [(linked.callable href).name]
    split
    · exact .ok (.string _)
    · exact .ok .undefined

theorem readIndexed (linked : store.Linked links other) (h : value.Linked links value')
    (hkey : key.Linked links key') :
    ResultsLinked (Value.Linked links) (Formulary.readIndexed store value key)
      (Formulary.readIndexed other value' key') := by
  have hproperty := linked.readProperty h (key.display store)
  rw [linked.display hkey] at hproperty
  unfold Formulary.readIndexed
  rw [hkey.position?, linked.display hkey]
  cases h with
  | array href =>
    cases key'.position? with
    | some index => exact .ok (linked.element href index)
    | none => exact hproperty
  | _ => exact hproperty

theorem editElement_linked {ref ref' : ArrayRef} (href : links.array ref ref') (index : Nat)
    (h : value.Linked links value') :
    ResultsLinked (Edit.Linked links) (editElement ref index value)
      (editElement ref' index value') := by
  unfold editElement
  split
  · exact .ok (.element index href h)
  · exact .error _

theorem editProperty_linked {target target' : Value} (htarget : target.Linked links target')
    (name : String) (h : value.Linked links value') :
    ResultsLinked (Edit.Linked links) (editProperty target name value)
      (editProperty target' name value') := by
  cases htarget with
  | undefined => exact .error _
  | null => exact .error _
  | object href => exact .ok (.property name href h)
  | array href =>
    simp only [editProperty]
    split
    · exact editElement_linked href _ h
    · split
      · rw [h.position?]
        split
        · split
          · exact .ok (.length _ href)
          · exact .error _
        · exact .error _
      · exact .error _
  | _ => exact .ok .nothing

theorem editIndexed (linked : store.Linked links other) {target target' : Value}
    (htarget : target.Linked links target') (hkey : key.Linked links key')
    (h : value.Linked links value') :
    ResultsLinked (Edit.Linked links) (Formulary.editIndexed store target key value)
      (Formulary.editIndexed other target' key' value') := by
  have hproperty := editProperty_linked htarget (key.display store) h
  rw [linked.display hkey] at hproperty
  unfold Formulary.editIndexed
  rw [hkey.position?, linked.display hkey]
  cases htarget with
  | array href =>
    cases key'.position? with
    | some index => exact editElement_linked href index h
    | none => exact hproperty
  | _ => exact hproperty

/-! ## Operators -/

theorem unary (linked : store.Linked links other) (op : UnaryOp) (h : value.Linked links value') :
    (op.apply store value).Linked links (op.apply other value') := by
  cases op with
  | not => exact Value.linked_boolean (congrArg not h.truth)
  | minus => exact Value.linked_number (congrArg Neg.neg (linked.toNumber h))
  | plus => exact Value.linked_number (linked.toNumber h)
  | typeOf => exact Value.linked_string h.typeName

/-- The text of a value that has been replaced by its text does not need the store. -/
theorem display_toPrimitive (store other : Store) (value : Value) :
    (value.toPrimitive store).display store = (value.toPrimitive store).display other := by
  unfold Value.toPrimitive
  split
  · next h => cases value <;> first | (cases h; done) | rfl
  · rfl

theorem add (linked : store.Linked links other) (hleft : left.Linked links left')
    (hright : right.Linked links right') :
    (Formulary.add store left right).Linked links (Formulary.add other left' right') := by
  unfold Formulary.add
  dsimp only
  rw [← linked.toPrimitive hleft, ← linked.toPrimitive hright]
  split
  · rw [display_toPrimitive store other left, display_toPrimitive store other right]
    exact .string _
  · rw [toNumber_toPrimitive store other left, toNumber_toPrimitive store other right]
    exact .number _

/-- **Operators do not tell linked operands apart.** -/
theorem binary (linked : store.Linked links other) (op : BinaryOp)
    (hleft : left.Linked links left') (hright : right.Linked links right') :
    (op.apply store left right).Linked links (op.apply other left' right') := by
  cases op with
  | add => exact linked.add hleft hright
  | equal => exact Value.linked_boolean (linked.looseEqual hleft hright)
  | notEqual => exact Value.linked_boolean (congrArg not (linked.looseEqual hleft hright))
  | strictEqual => exact Value.linked_boolean (linked.strictEqual hleft hright)
  | strictNotEqual => exact Value.linked_boolean (congrArg not (linked.strictEqual hleft hright))
  | less => exact Value.linked_boolean (linked.before true hleft hright)
  | lessEqual => exact Value.linked_boolean (linked.before false hleft hright)
  | greater => exact Value.linked_boolean (linked.before true hright hleft)
  | greaterEqual => exact Value.linked_boolean (linked.before false hright hleft)
  | _ =>
    simp only [BinaryOp.apply]
    rw [linked.toNumber hleft, linked.toNumber hright]
    exact .number _

theorem settles_linked (op : LogicalOp) (h : left.Linked links left') :
    op.settles left = op.settles left' := by
  cases op <;> simp only [LogicalOp.settles, h.truth]

/-! ## What arguments denote -/

theorem slicePosition (linked : store.Linked links other) (length default : Nat)
    (h : value.Linked links value') :
    Formulary.slicePosition store length default value =
      Formulary.slicePosition other length default value' := by
  have hnumber := linked.toNumber h
  cases h <;> simp only [Formulary.slicePosition, hnumber]

theorem cutPosition (linked : store.Linked links other) (length default : Nat)
    (h : value.Linked links value') :
    Formulary.cutPosition store length default value =
      Formulary.cutPosition other length default value' := by
  have hnumber := linked.toNumber h
  cases h <;> simp only [Formulary.cutPosition, hnumber]

theorem joinItems (linked : store.Linked links other) {items items' : List Value}
    (hitems : ValuesLinked links items items') (h : value.Linked links value') :
    Formulary.joinItems store items value = Formulary.joinItems other items' value' := by
  have htexts : items.map (Value.displayItem store) = items'.map (Value.displayItem other) :=
    map_eq_of_forall₂ hitems fun _ _ => linked.displayItem
  have hseparator := linked.display h
  cases h <;> simp only [Formulary.joinItems, htexts, hseparator]

theorem isIncluded (linked : store.Linked links other) (hleft : left.Linked links left')
    (hright : right.Linked links right') :
    Formulary.isIncluded left right = Formulary.isIncluded left' right' := by
  unfold Formulary.isIncluded
  rw [linked.strictEqual hleft hright, hleft.isNaN, hright.isNaN]

theorem sliceItems (linked : store.Linked links other) {items items' : List Value}
    (hitems : ValuesLinked links items items') (hleft : left.Linked links left')
    (hright : right.Linked links right') :
    ValuesLinked links (Formulary.sliceItems store items left right)
      (Formulary.sliceItems other items' left' right') := by
  unfold Formulary.sliceItems between
  rw [hitems.length_eq, linked.slicePosition _ _ hleft, linked.slicePosition _ _ hright]
  exact List.forall₂_take _ (List.forall₂_drop _ hitems)

theorem substringOf (linked : store.Linked links other) (text : List Char)
    (hleft : left.Linked links left') (hright : right.Linked links right') :
    Formulary.substringOf store text left right =
      Formulary.substringOf other text left' right' := by
  unfold Formulary.substringOf
  rw [linked.cutPosition _ _ hleft, linked.cutPosition _ _ hright]

theorem pieces (linked : store.Linked links other) (text : String)
    (h : value.Linked links value') :
    Formulary.pieces store text value = Formulary.pieces other text value' := by
  have hseparator := linked.display h
  cases h <;> simp only [Formulary.pieces, hseparator]

theorem fixedPlaces (linked : store.Linked links other) (h : value.Linked links value') :
    Formulary.fixedPlaces store value = Formulary.fixedPlaces other value' := by
  have hinteger := linked.toInteger h
  cases h <;> simp only [Formulary.fixedPlaces, hinteger]

theorem stringify (linked : store.Linked links other) (h : value.Linked links value') :
    Formulary.stringify store value = Formulary.stringify other value' := by
  unfold Formulary.stringify
  rw [linked.toContentsLinked.toJson h]

theorem parseInteger (linked : store.Linked links other)
    (h : ValuesLinked links arguments arguments') :
    Formulary.parseInteger store arguments = Formulary.parseInteger other arguments' := by
  unfold Formulary.parseInteger
  rw [linked.display (argumentAt_linked h 0)]
  cases h with
  | nil => rfl
  | cons hfirst hrest =>
    cases hrest with
    | nil => rfl
    | cons hbase _ =>
      dsimp only
      rw [linked.toInteger hbase]

theorem numbers (linked : store.Linked links other)
    (h : ValuesLinked links arguments arguments') :
    arguments.map (Value.toNumber store) = arguments'.map (Value.toNumber other) :=
  map_eq_of_forall₂ h fun _ _ => linked.toNumber

end Store.Linked

/-! ## Methods -/

/-- The same method of linked values. -/
inductive Method.Linked (links : Links) : Method → Method → Prop where
  | array {ref ref' : ArrayRef} (href : links.array ref ref') (method : ArrayMethod) :
      Linked links (.array ref method) (.array ref' method)
  | string (text : String) (method : StringMethod) :
      Linked links (.string text method) (.string text method)
  | number (x : Float) (method : NumberMethod) : Linked links (.number x method) (.number x method)

theorem Method.find?_linked {links : Links} {receiver receiver' : Value}
    (h : receiver.Linked links receiver') (name : String) :
    Option.Rel (Method.Linked links) (Method.find? receiver name)
      (Method.find? receiver' name) := by
  cases h with
  | array href =>
    unfold Method.find?
    cases ArrayMethod.all.find? (·.name == name) with
    | none => exact .none
    | some method => exact .some (.array href method)
  | string text =>
    unfold Method.find?
    cases StringMethod.all.find? (·.name == name) with
    | none => exact .none
    | some method => exact .some (.string text method)
  | number x =>
    unfold Method.find?
    cases NumberMethod.all.find? (·.name == name) with
    | none => exact .none
    | some method => exact .some (.number x method)
  | _ => exact .none

end Formulary
