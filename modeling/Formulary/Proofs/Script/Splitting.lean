import Formulary.Proofs.Context.Settled
import Formulary.Proofs.Script.Joined
import Formulary.Proofs.Text.Search

/-!
# Texts split and joined

* `Store.Backs` : values in which no array is met that is not one of the store;
* `Value.display_newArray` : the text of such a value is the same when an array has been made;
* `intercalate_pieces`, `IsPiece` : the pieces of a text, put together again and one by one;
* `Run.join_split` : a text split at any separator and joined with it is the text again.
-/

namespace Formulary

/-! ## Values of a store -/

/-- Whether every array that is met in a value is one of the store. -/
def Store.Backs (store : Store) (value : Value) : Prop :=
  ∀ ⦃path inner⦄, store.Meets value path inner → inner.index < store.arrays.size

section Backed

variable {store : Store} {value item : Value} {ref : ArrayRef}

/-- **Every good reference of a settled machine is backed,** and with it every value of a name. -/
theorem Machine.Settled.backs {machine : Machine} (settled : machine.Settled)
    (h : value.Linked (Shifts.still.links machine.store) value) : machine.store.Backs value := by
  intro path inner meets
  induction meets with
  | self ref =>
    cases h with
    | array href => exact href.1
  | inside held deeper ih =>
    cases h with
    | array href =>
      exact ih (List.forall₂_same.mp (settled.linked.store.linked.elements href) _ held)

theorem Store.Backs.index_lt (backed : store.Backs (.array ref)) :
    ref.index < store.arrays.size :=
  backed (.self ref)

theorem Store.Backs.inside (backed : store.Backs (.array ref))
    (held : item ∈ (store.elements ref).toList) : store.Backs item :=
  fun _ _ meets => backed (.inside held meets)

theorem Value.displayWithin_newArray (items : Array Value) (room : Nat) (around : List ArrayRef)
    (backed : store.Backs value) :
    displayWithin (store.newArray items).2 room around value =
      displayWithin store room around value := by
  induction room generalizing around value with
  | zero => cases value <;> rfl
  | succ room ih =>
    cases value with
    | array ref =>
      have hsame : (store.newArray items).2.elements ref = store.elements ref := by
        rw [Store.elements_newArray, if_neg backed.index_lt.ne]
      by_cases h : ref ∈ around
      · rw [displayWithin_of_mem h, displayWithin_of_mem h]
      · rw [displayWithin_array h, displayWithin_array h, hsame]
        refine congrArg _ (List.map_congr_left fun item held => ?_)
        rw [itemWithin, itemWithin, ih _ (backed.inside held)]
    | _ => rfl

/-- **An array that is made does not change the text of a value.** -/
theorem Value.display_newArray (items : Array Value) (backed : store.Backs value) :
    value.display (store.newArray items).2 = value.display store :=
  displayWithin_newArray items maxNesting [] backed

end Backed

/-! ## Pieces -/

section Pieces

variable {store : Store} {s : String} {separator : Value}

theorem pieces_of_ne (h : separator ≠ .undefined) :
    pieces store s separator =
      if (separator.display store).toList = [] then s.toList.map fun c => String.ofList [c]
      else (Text.splitOn (separator.display store).toList s.toList).map String.ofList := by
  rw [pieces]
  · cases (separator.display store).toList <;> rfl
  · exact h

/-- The text between two pieces: a comma when the separator is undefined. -/
def joint (store : Store) : Value → String
  | .undefined => ","
  | separator => separator.display store

theorem joint_of_ne (h : separator ≠ .undefined) :
    joint store separator = separator.display store := by
  cases separator with
  | undefined => exact absurd rfl h
  | _ => rfl

theorem joint_newArray (items : Array Value) (backed : store.Backs separator) :
    joint (store.newArray items).2 separator = joint store separator := by
  cases separator with
  | undefined => rfl
  | _ => exact Value.display_newArray items backed

/-- Texts are joined as they are. -/
theorem joinItems_strings (store : Store) (texts : List String) (separator : Value) :
    joinItems store (texts.map Value.string) separator =
      String.intercalate (joint store separator) texts := by
  have htexts : (texts.map Value.string).map (Value.displayItem store) = texts := by
    rw [List.map_map]
    exact List.map_id texts
  have hjoin : joinItems store (texts.map Value.string) separator =
      String.intercalate (joint store separator)
        ((texts.map Value.string).map (Value.displayItem store)) := by
    cases separator <;> rfl
  rw [hjoin, htexts]

/-- **The pieces of a text with the separator between them are the text.** -/
theorem intercalate_pieces (store : Store) (s : String) (separator : Value) :
    String.intercalate (joint store separator) (pieces store s separator) = s := by
  by_cases h : separator = .undefined
  · rw [h]
    exact String.intercalate_singleton
  · rw [joint_of_ne h, pieces_of_ne h, ← String.toList_inj, String.toList_intercalate]
    split
    · next hempty =>
      rw [hempty, List.map_map, ← Text.joinWith_eq_intercalate]
      simp only [Function.comp_def, String.toList_ofList]
      exact Text.joinWith_singletons s.toList
    · next hempty =>
      rw [List.map_map, ← Text.joinWith_eq_intercalate]
      simp only [Function.comp_def, String.toList_ofList, List.map_id']
      exact Text.joinWith_splitOn hempty s.toList

/-- Whether a text is a piece that a separator leaves of another one: all of it when the separator
is undefined, one character when it is empty, and else something without it. -/
def IsPiece (store : Store) (s : String) (separator : Value) (piece : String) : Prop :=
  match separator with
  | .undefined => piece = s
  | separator =>
    if (separator.display store).toList = [] then piece.length = 1
    else ¬ (separator.display store).toList <:+: piece.toList

theorem isPiece_of_mem {piece : String} (h : piece ∈ pieces store s separator) :
    IsPiece store s separator piece := by
  by_cases hne : separator = .undefined
  · rw [hne] at h ⊢
    exact List.mem_singleton.mp h
  · rw [pieces_of_ne hne] at h
    have hpiece : IsPiece store s separator piece =
        if (separator.display store).toList = [] then piece.length = 1
        else ¬ (separator.display store).toList <:+: piece.toList := by
      cases separator with
      | undefined => exact absurd rfl hne
      | _ => rfl
    rw [hpiece]
    split at h
    · next hempty =>
      obtain ⟨c, -, rfl⟩ := List.mem_map.mp h
      rw [if_pos hempty, String.length_ofList]
      rfl
    · next hempty =>
      obtain ⟨part, hpart, rfl⟩ := List.mem_map.mp h
      rw [if_neg hempty, String.toList_ofList]
      exact Text.not_infix_of_mem_splitOn hempty hpart

end Pieces

/-! ## Runs -/

namespace Run

/-- **A text split at any separator and joined with the same separator is the text again.** The
split makes a new array of the pieces that the separator leaves, and the join changes nothing. -/
theorem join_split (invoke : FunctionRef → List Value → Run Value) (machine : Machine) (s : String)
    (arguments : List Value) (backed : machine.store.Backs (argumentAt arguments 0)) :
    let separator := argumentAt arguments 0
    let texts := pieces machine.store s separator
    let list := Value.array ⟨machine.store.arrays.size⟩
    let later := { machine with
      store := (machine.store.newArray (texts.map Value.string).toArray).2 }
    callMethod invoke (.string s) "split" arguments machine = .ok list later ∧
      callMethod invoke list "join" arguments later = .ok (.string s) later ∧
      ∀ text ∈ texts, IsPiece machine.store s separator text := by
  intro separator texts list later
  refine ⟨rfl, ?_, fun text => isPiece_of_mem⟩
  have hitems : (later.store.elements ⟨machine.store.arrays.size⟩).toList =
      texts.map Value.string := by
    rw [Store.elements_newArray, if_pos rfl]
  have hjoint : joint later.store separator = joint machine.store separator :=
    joint_newArray _ backed
  have hjoin : joinItems later.store (later.store.elements ⟨machine.store.arrays.size⟩).toList
      separator = s := by
    rw [hitems, joinItems_strings, hjoint]
    exact intercalate_pieces machine.store s separator
  exact congrArg (fun text => EStateM.Result.ok (Value.string text) later) hjoin

/-- A machine with an array that is displayed with a comma at its end. -/
def comma : Machine := ⟨⟨#[#[.string "a", .undefined]], #[], #[], #[]⟩, #[], 0, 0⟩

theorem backs_comma : comma.store.Backs (.array ⟨0⟩) := by
  intro path inner meets
  cases meets with
  | self => decide
  | inside held deeper =>
    rcases List.mem_pair.mp held with rfl | rfl <;> cases deeper

/-- An array as the separator, which occurs twice next to itself. -/
theorem join_split_array :
    pieces comma.store "xa,a,,y" (.array ⟨0⟩) = ["x", "", ",y"] ∧
      ∃ later, callMethod (invoke 0 0) (.string "xa,a,,y") "split" [.array ⟨0⟩] comma =
          .ok (.array ⟨1⟩) later ∧
        callMethod (invoke 0 0) (.array ⟨1⟩) "join" [.array ⟨0⟩] later =
          .ok (.string "xa,a,,y") later := by
  obtain ⟨hsplit, hjoin, -⟩ := join_split (invoke 0 0) comma "xa,a,,y" [.array ⟨0⟩] backs_comma
  exact ⟨by decide +kernel, _, hsplit, hjoin⟩

end Run

end Formulary
