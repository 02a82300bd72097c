import Formulary.Script.Evaluation
import Formulary.Script.Global
import Mathlib.Data.List.Nodup
import Mathlib.Data.List.Perm.Subperm

/-!
# Arrays joined and displayed

* `Store.Meets` : the arrays that are met in a value when it is displayed, and those around them;
* `Store.Fits` : there is room for the arrays that are met, each of them once;
* `Store.JoinsEvenly` : arrays that are not met in themselves and have none inside 128 others;
* `Value.displayWithin_congr` : neither the room nor the arrays around a value matter as long as it
  fits and they are not met in it;
* `Run.join_texts` : the texts of an array from `join` and from a conversion, and when they agree.
-/

namespace Formulary

/-! ## Arrays that are met -/

namespace Store

/-- An array that is met in a value, inside the arrays of a path, the outermost first. -/
inductive Meets (store : Store) : Value → List ArrayRef → ArrayRef → Prop
  | self (ref : ArrayRef) : Meets store (.array ref) [] ref
  | inside {ref inner : ArrayRef} {item : Value} {path : List ArrayRef}
    (held : item ∈ (store.elements ref).toList) (deeper : Meets store item path inner) :
    Meets store (.array ref) (ref :: path) inner

/-- Whether there is room for every array that is met in a value by a way that passes none of them
twice, and none of those around the value. -/
def Fits (store : Store) (around : List ArrayRef) (room : Nat) (value : Value) : Prop :=
  ∀ ⦃path inner⦄, store.Meets value path inner → (path ++ [inner]).Nodup →
    List.Disjoint (path ++ [inner]) around → path.length < room

/-- Whether an array is not met in itself, and none is met in it inside 128 different ones. -/
structure JoinsEvenly (store : Store) (ref : ArrayRef) : Prop where
  fresh : ∀ {path}, store.Meets (.array ref) path ref → path = []
  shallow : ∀ {path inner}, store.Meets (.array ref) path inner → (path ++ [inner]).Nodup →
    path.length < 128

variable {store : Store} {around : List ArrayRef} {room : Nat} {value item : Value} {ref : ArrayRef}

theorem Fits.room_pos (fits : store.Fits around room (.array ref)) (new : ref ∉ around) :
    0 < room := by
  refine fits (.self ref) (List.nodup_singleton ref) ?_
  simpa using new

/-- What an array holds fits inside it. -/
theorem Fits.inside (fits : store.Fits around (room + 1) (.array ref)) (new : ref ∉ around)
    (held : item ∈ (store.elements ref).toList) : store.Fits (ref :: around) room item := by
  intro path inner meets nodup disjoint
  obtain ⟨hnew, hdisjoint⟩ := List.disjoint_cons_right.mp disjoint
  have hlength := fits (.inside held meets) (List.nodup_cons.mpr ⟨hnew, nodup⟩)
    (List.disjoint_cons_left.mpr ⟨new, hdisjoint⟩)
  simpa using hlength

/-- What is on the way to an array is met itself. -/
theorem Meets.on_path {path : List ArrayRef} {inner other : ArrayRef}
    (meets : store.Meets value path inner) (h : other ∈ path) :
    ∃ shorter, store.Meets value shorter other := by
  induction meets with
  | self => cases h
  | @inside ref inner item path held deeper ih =>
    rcases List.mem_cons.mp h with rfl | h
    · exact ⟨[], .self _⟩
    · obtain ⟨shorter, meets⟩ := ih h
      exact ⟨_, .inside held meets⟩

/-- An array on the way to another one holds something, so that it is one of the store. -/
theorem Meets.index_lt {path : List ArrayRef} {inner other : ArrayRef}
    (meets : store.Meets value path inner) (h : other ∈ path) :
    other.index < store.arrays.size := by
  induction meets with
  | self => cases h
  | @inside ref inner item path held deeper ih =>
    rcases List.mem_cons.mp h with rfl | h
    · by_contra hlt
      rw [elements, Array.getElem?_eq_none (Nat.le_of_not_lt hlt)] at held
      cases held
    · exact ih h

/-- In a store of fewer than 128 arrays none lies inside 128 different ones. -/
theorem shallow_of_size (small : store.arrays.size < 128) {path : List ArrayRef} {inner : ArrayRef}
    (meets : store.Meets value path inner) (nodup : (path ++ [inner]).Nodup) :
    path.length < 128 := by
  have hnodup : (path.map ArrayRef.index).Nodup :=
    nodup.of_append_left.map fun ⟨_⟩ ⟨_⟩ h => congrArg ArrayRef.mk h
  have hsub : path.map ArrayRef.index ⊆ List.range store.arrays.size := by
    intro index h
    obtain ⟨other, hother, rfl⟩ := List.mem_map.mp h
    exact List.mem_range.mpr (meets.index_lt hother)
  have hlength := (hnodup.subperm hsub).length_le
  rw [List.length_map, List.length_range] at hlength
  omega

namespace JoinsEvenly

variable (even : store.JoinsEvenly ref) (held : item ∈ (store.elements ref).toList)
include even held

theorem not_meets {path : List ArrayRef} : ¬ store.Meets item path ref := by
  intro meets
  cases even.fresh (.inside held meets)

/-- There is as much room for an item alone as inside its array. -/
theorem fits_inside : store.Fits [ref] 127 item := by
  intro path inner meets nodup disjoint
  obtain ⟨hnew, -⟩ := List.disjoint_cons_right.mp disjoint
  have hlength := even.shallow (.inside held meets) (List.nodup_cons.mpr ⟨hnew, nodup⟩)
  exact Nat.lt_of_succ_lt_succ hlength

theorem fits_alone : store.Fits [] 128 item := by
  intro path inner meets nodup _
  have hnew : ref ∉ path ++ [inner] := by
    intro h
    rcases List.mem_append.mp h with h | h
    · obtain ⟨shorter, again⟩ := meets.on_path h
      exact even.not_meets held again
    · obtain rfl := List.mem_singleton.mp h
      exact even.not_meets held meets
  have hlength := even.fits_inside held meets nodup
    (List.disjoint_cons_right.mpr ⟨hnew, List.disjoint_nil_right _⟩)
  omega

end JoinsEvenly

end Store

/-! ## Texts -/

namespace Value

variable {store : Store} {around around' : List ArrayRef} {room room' : Nat} {value item : Value}
  {ref : ArrayRef}

/-- The text of an item of an array, inside the arrays around it. -/
def itemWithin (store : Store) (room : Nat) (around : List ArrayRef) (item : Value) : String :=
  if item.isMissing then "" else displayWithin store room around item

theorem displayWithin_of_mem (h : ref ∈ around) :
    displayWithin store room around (array ref) = "" := by
  cases room with
  | zero => rw [displayWithin]
  | succ room => rw [displayWithin, if_pos (List.contains_iff_mem.mpr h)]

theorem displayWithin_array (h : ref ∉ around) :
    displayWithin store (room + 1) around (array ref) =
      String.intercalate ","
        ((store.elements ref).toList.map (itemWithin store room (ref :: around))) := by
  rw [displayWithin, if_neg (by simpa using h)]
  rfl

/-- **The text of a value depends neither on the room, where it fits, nor on the arrays around it,
apart from those that are met in it.** -/
theorem displayWithin_congr
    (same : ∀ {path inner}, store.Meets value path inner → (inner ∈ around ↔ inner ∈ around'))
    (fits : store.Fits around room value) (fits' : store.Fits around' room' value) :
    displayWithin store room around value = displayWithin store room' around' value := by
  induction room using Nat.strongRecOn generalizing room' around around' value with
  | ind room ih =>
    cases value with
    | array ref =>
      have hsame := same (.self ref)
      by_cases h : ref ∈ around
      · rw [displayWithin_of_mem h, displayWithin_of_mem (hsame.mp h)]
      · have h' : ref ∉ around' := fun hmem => h (hsame.mpr hmem)
        obtain ⟨less, rfl⟩ := Nat.exists_eq_add_one.mpr (fits.room_pos h)
        obtain ⟨less', rfl⟩ := Nat.exists_eq_add_one.mpr (fits'.room_pos h')
        rw [displayWithin_array h, displayWithin_array h']
        refine congrArg _ (List.map_congr_left fun item held => ?_)
        have hitem : displayWithin store less (ref :: around) item =
            displayWithin store less' (ref :: around') item := by
          refine ih less (Nat.lt_succ_self less) ?_ (fits.inside h held) (fits'.inside h' held)
          intro path inner meets
          rw [List.mem_cons, List.mem_cons, same (.inside held meets)]
        rw [itemWithin, itemWithin, hitem]
    | _ => simp only [displayWithin]

/-- An item of an array that joins evenly has the same text alone as inside the array. -/
theorem itemWithin_eq_displayItem (even : store.JoinsEvenly ref)
    (held : item ∈ (store.elements ref).toList) :
    itemWithin store 127 [ref] item = displayItem store item := by
  have hdisplay : displayWithin store 127 [ref] item = displayWithin store 128 [] item := by
    refine displayWithin_congr ?_ (even.fits_inside held) (even.fits_alone held)
    intro path inner meets
    have hne : inner ≠ ref := by
      rintro rfl
      exact even.not_meets held meets
    simp [hne]
  rw [itemWithin, hdisplay]
  rfl

theorem display_array (ref : ArrayRef) : (array ref).display store =
    String.intercalate "," ((store.elements ref).toList.map (itemWithin store 127 [ref])) :=
  displayWithin_array List.not_mem_nil

end Value

theorem add_empty (store : Store) (ref : ArrayRef) :
    add store (.string "") (.array ref) = .string ((Value.array ref).display store) :=
  congrArg Value.string String.empty_append

namespace Run

/-- **An array is joined, and converted to a text, without a failure and without an effect.** The
calls of `join` with no separator and with a comma put together the texts that the items have
alone; the conversions put together those that the items have inside the array. The texts are the
same where the array is not met in itself and no array inside 128 others. -/
theorem join_texts (invoke : FunctionRef → List Value → Run Value) (machine : Machine)
    (ref : ArrayRef) :
    let store := machine.store
    let items := (store.elements ref).toList
    let joined := String.intercalate "," (items.map (Value.displayItem store))
    let text := String.intercalate "," (items.map (Value.itemWithin store 127 [ref]))
    callMethod invoke (.array ref) "join" [] machine = .ok (.string joined) machine ∧
      callMethod invoke (.array ref) "join" [.string ","] machine = .ok (.string joined) machine ∧
      (Value.array ref).display store = text ∧
      add store (.string "") (.array ref) = .string text ∧
      Intrinsic.run [.array ref] .toText machine = .ok (.string text) machine ∧
      (store.JoinsEvenly ref → joined = text) := by
  intro store items joined text
  have htext : (Value.array ref).display store = text := Value.display_array ref
  refine ⟨rfl, rfl, htext, ?_, ?_, ?_⟩
  · rw [add_empty, htext]
  · rw [← htext]
    rfl
  · intro even
    have hmap : items.map (Value.displayItem store) =
        items.map (Value.itemWithin store 127 [ref]) :=
      List.map_congr_left fun item held => (Value.itemWithin_eq_displayItem even held).symm
    exact congrArg (String.intercalate ",") hmap

/-- A machine with an array that holds another one twice, which holds itself. -/
def sharing : Machine :=
  ⟨⟨#[#[.array ⟨1⟩, .undefined, .array ⟨1⟩], #[.boolean true, .array ⟨1⟩]], #[], #[], #[]⟩,
    #[], 0, 0⟩

theorem joinsEvenly_sharing : sharing.store.JoinsEvenly ⟨0⟩ := by
  have loop {value path inner} (meets : sharing.store.Meets value path inner) :
      value = .array ⟨1⟩ → inner = ⟨1⟩ := by
    induction meets with
    | self =>
      rintro ⟨⟩
      rfl
    | inside held deeper ih =>
      rintro ⟨⟩
      rcases List.mem_pair.mp held with rfl | rfl
      · cases deeper
      · exact ih rfl
  refine ⟨?_, fun meets nodup => Store.shallow_of_size (by decide) meets nodup⟩
  intro path meets
  cases meets with
  | self => rfl
  | inside held deeper =>
    rcases List.mem_cons.mp held with rfl | held
    · cases loop deeper rfl
    · rcases List.mem_pair.mp held with rfl | rfl
      · cases deeper
      · cases loop deeper rfl

/-- A shared array is displayed each time that it is met. -/
theorem join_texts_sharing :
    callMethod (invoke 0 0) (.array ⟨0⟩) "join" [] sharing = .ok (.string "true,,,true,") sharing ∧
      add sharing.store (.string "") (.array ⟨0⟩) = .string "true,,,true," := by
  obtain ⟨hjoin, -, -, hadd, -, hagree⟩ := join_texts (invoke 0 0) sharing ⟨0⟩
  have htext : String.intercalate "," ((sharing.store.elements ⟨0⟩).toList.map
      (Value.itemWithin sharing.store 127 [⟨0⟩])) = "true,,,true," := by
    decide +kernel
  rw [hjoin, hadd, hagree joinsEvenly_sharing, htext]
  exact ⟨rfl, rfl⟩

/-- A machine with an array that holds a number and itself. -/
def looped : Machine :=
  ⟨⟨#[#[.number 1, .array ⟨0⟩]], #[], #[], #[]⟩, #[], 0, 0⟩

/-- An array inside itself contributes its items once more when it is joined, and nothing when it is
converted. -/
theorem join_texts_looped :
    callMethod (invoke 0 0) (.array ⟨0⟩) "join" [] looped = .ok (.string "1,1,") looped ∧
      add looped.store (.string "") (.array ⟨0⟩) = .string "1," := by
  have hjoined : String.intercalate "," ((looped.store.elements ⟨0⟩).toList.map
      (Value.displayItem looped.store)) = "1,1," := by
    decide +kernel
  have htext : String.intercalate "," ((looped.store.elements ⟨0⟩).toList.map
      (Value.itemWithin looped.store 127 [⟨0⟩])) = "1," := by
    decide +kernel
  constructor
  · exact congrArg (fun text => EStateM.Result.ok (Value.string text) looped) hjoined
  · rw [add_empty, Value.display_array, htext]

end Run

end Formulary
