import Formulary.Proofs.Number.Addition
import Formulary.Proofs.Number.Scientific
import Formulary.Proofs.Number.Truncation
import Formulary.Proofs.Script.Slots
import Formulary.Proofs.Text.Search

/-!
# Characters of texts by their positions

* `IsCount.position?`, `IsCount.index`, `IsCount.elementIndex?` : a natural number as a position, as
  an index and as a key;
* `substringOf_counts` : the part of a text between two positions;
* `Run.readIndexed_split` : the characters of a text as its pieces;
* `Run.character_positions` : the ways to a character agree, and a text is found at the least place
  where it can be cut out.
-/

namespace Formulary

/-! ## Positions -/

section Positions

open Number

variable {x y : Float} {i j : Nat} {store : Store}

theorem Number.IsCount.position? (h : IsCount x i) (hi : i < 2 ^ 53) :
    (Value.number x).position? = some i :=
  (Value.position?_number hi).mpr ⟨h.whole, h.eq⟩

/-- A natural number is not below zero and is its own index. -/
theorem Number.IsCount.index (h : IsCount x i) (hi : i < 2 ^ 53) : 0 ≤ x ∧ clampIndex x = i := by
  have hposition : (Value.number x).position? =
      if 0 ≤ x && isWhole x then some (clampIndex x) else none := rfl
  rw [h.position? hi, h.whole, Bool.and_true] at hposition
  split at hposition
  · next hnonneg => exact ⟨of_decide_eq_true hnonneg, (Option.some.inj hposition).symm⟩
  · cases hposition

theorem Number.IsCount.not_neg (h : IsCount x i) : ¬ x < 0 := by
  obtain ⟨hfinite, hfraction⟩ := isWhole_iff.mp h.whole
  have htruncate := h.eq
  rw [truncate_of_isFinite hfinite] at htruncate
  rw [lt_zero_iff hfinite, Binary.number_neg_iff]
  rintro ⟨hnegative, hsignificand⟩
  rw [if_pos hnegative] at htruncate
  exact hsignificand (Binary.significand_of_wholePart hfraction (by omega))

/-- The text of a natural number names its position. -/
theorem Number.IsCount.elementIndex? (h : IsCount x i) (hi : i < 2 ^ 53) :
    Formulary.elementIndex? (Number.text x) = some i := by
  have hgreatest : 2 ^ 53 ≤ uint64Greatest := by decide
  exact elementIndex?_eq_some_iff.mpr ⟨by omega, (text_eq_iff hi).mpr ⟨h.whole, h.eq⟩⟩

theorem cutPosition_count (h : IsCount x i) (hi : i < 2 ^ 53) (length default : Nat) :
    cutPosition store length default (.number x) = min i length := by
  show (if x < 0 then 0 else min (clampIndex x) length) = _
  rw [if_neg h.not_neg, (h.index hi).2]

/-- **The part of a text between two positions in their order.** -/
theorem substringOf_counts (hx : IsCount x i) (hy : IsCount y j) (hj : j < 2 ^ 53) (hij : i ≤ j)
    (store : Store) (text : List Char) :
    substringOf store text (.number x) (.number y) = (text.drop i).take (j - i) := by
  unfold substringOf
  dsimp only
  rw [cutPosition_count hx (by omega), cutPosition_count hy hj, between,
    min_eq_left (min_le_min_right _ hij), max_eq_right (min_le_min_right _ hij)]
  obtain hi | hi := le_or_gt i text.length
  · rw [min_eq_left hi, ← List.take_length (l := text.drop i), List.take_take, List.take_take,
      List.length_drop]
    congr 1
    omega
  · rw [min_eq_right hi.le, List.drop_eq_nil_of_le hi.le, List.drop_length]
    simp

end Positions

/-! ## Runs -/

namespace Run

open Number

variable {invoke : FunctionRef → List Value → Run Value} {machine : Machine} {store : Store}
  {s t : String} {x y : Float} {i j : Nat} {c : Char}

/-- A character as a value. -/
def single (c : Char) : Value :=
  .string (String.ofList [c])

theorem readIndexed_character (h : IsCount x i) (hi : i < 2 ^ 53) (hc : s.toList[i]? = some c) :
    readIndexed store (.string s) (.number x) = .ok (single c) := by
  have hindex := h.elementIndex? hi
  have hname : Number.text x ≠ "length" := by
    intro hname
    rw [hname, show elementIndex? "length" = none by decide] at hindex
    cases hindex
  show readProperty store (.string s) (Number.text x) = _
  rw [readProperty, if_neg hname, hindex]
  show Except.ok (characterAt s i) = _
  rw [characterAt, hc]
  rfl

theorem callMethod_charAt (h : IsCount x i) (hi : i < 2 ^ 53) (hc : s.toList[i]? = some c) :
    callMethod invoke (.string s) "charAt" [.number x] machine = .ok (single c) machine := by
  obtain ⟨hnonneg, hindex⟩ := h.index hi
  have hcharacters : charactersAt s.toList x = [c] := by
    rw [charactersAt, if_pos hnonneg, hindex, hc]
    rfl
  show EStateM.Result.ok (Value.string (String.ofList (charactersAt s.toList x))) machine = _
  rw [hcharacters]
  rfl

/-- A call of `substring` with two positions in their order. -/
theorem callMethod_substring (hx : IsCount x i) (hy : IsCount y j) (hj : j < 2 ^ 53) (hij : i ≤ j)
    (invoke : FunctionRef → List Value → Run Value) (machine : Machine) (s : String) :
    callMethod invoke (.string s) "substring" [.number x, .number y] machine =
      .ok (.string (String.ofList ((s.toList.drop i).take (j - i)))) machine := by
  rw [← substringOf_counts hx hy hj hij machine.store]
  rfl

/-- The pieces of a text at an empty separator are its characters, each found at its position. -/
theorem readIndexed_split (h : IsCount x i) (hi : i < 2 ^ 53) (hc : s.toList[i]? = some c)
    (invoke : FunctionRef → List Value → Run Value) (machine : Machine) :
    ∃ list later, callMethod invoke (.string s) "split" [.string ""] machine = .ok list later ∧
      readIndexed later.store list (.number x) = .ok (single c) := by
  let items := (s.toList.map single).toArray
  have hsplit : callMethod invoke (.string s) "split" [.string ""] machine =
      .ok (.array ⟨machine.store.arrays.size⟩)
        { machine with store := (machine.store.newArray items).2 } := by
    show newArray ((s.toList.map fun c => String.ofList [c]).map Value.string).toArray machine = _
    rw [List.map_map]
    rfl
  have hitem : (machine.store.newArray items).2.element ⟨machine.store.arrays.size⟩ i =
      single c := by
    rw [Store.element, Store.elements_newArray, if_pos rfl, List.getElem?_toArray,
      List.getElem?_map, hc]
    rfl
  refine ⟨_, _, hsplit, ?_⟩
  simp only [readIndexed, h.position? hi, hitem]

/-- Whether a text cut out of another one at a position, as long as a third one, is the third
one. -/
def CutsOut (invoke : FunctionRef → List Value → Run Value) (machine : Machine) (s t : String)
    (x : Float) : Prop :=
  ∃ piece, callMethod invoke (.string s) "substring"
      [.number x, add machine.store (.number x) (.ofCount t.length)] machine = .ok piece machine ∧
    piece.strictEqual (.string t) = true

/-- **A text can be cut out where it occurs,** and nowhere else. -/
theorem cutsOut_iff (h : IsCount x i) (hi : i + t.length < 2 ^ 53) :
    CutsOut invoke machine s t x ↔ t.toList <+: s.toList.drop i := by
  have hstop : IsCount (x + Float.ofNat t.length) (i + t.length) :=
    h.add (isCount_ofNat (by omega)) hi
  have hcall := callMethod_substring h hstop hi (Nat.le_add_right _ _) invoke machine s
  rw [Nat.add_sub_cancel_left, ← String.length_toList] at hcall
  have hcuts : CutsOut invoke machine s t x ↔
      String.ofList ((s.toList.drop i).take t.toList.length) = t := by
    constructor
    · rintro ⟨piece, hpiece, hequal⟩
      obtain rfl : .string _ = piece := (EStateM.Result.ok.inj (hcall.symm.trans hpiece)).1
      exact eq_of_beq hequal
    · intro hequal
      exact ⟨_, hcall, beq_iff_eq.mpr hequal⟩
  rw [hcuts, List.prefix_iff_eq_take, ← String.toList_inj, String.toList_ofList]
  exact eq_comm

theorem ofCount_ne (n : Nat) : Value.ofCount n ≠ .number (-1) := by
  intro h
  have heq : Float.ofNat n = -1 := Value.number.inj h
  cases rounds_ofNat n with
  | finite _ positive =>
    rw [heq] at positive
    exact absurd positive (by decide)
  | infinite _ hinfinite =>
    rw [heq] at hinfinite
    exact absurd (congrArg Float.isFinite hinfinite) (by decide)

/-- **The ways to the characters of a text agree.** Its length is their number. At each position
below it the key, `charAt`, `substring` up to the next position and the pieces at an empty separator
all give the character there. And `indexOf` answers the least place at which a text occurs, or minus
one when there is none; the places where it occurs are those where `substring` cuts it out. The
positions are those below `2 ^ 53`, up to which numbers count without gaps. -/
theorem character_positions (invoke : FunctionRef → List Value → Run Value) (machine : Machine)
    (s : String) :
    let store := machine.store
    let call (name : String) (arguments : List Value) :=
      callMethod invoke (.string s) name arguments machine
    readProperty store (.string s) "length" = .ok (.ofCount s.length) ∧
    (∀ x i, IsCount x i → i < s.length → i + 1 < 2 ^ 53 → ∃ c, s.toList[i]? = some c ∧
      readIndexed store (.string s) (.number x) = .ok (single c) ∧
      call "charAt" [.number x] = .ok (single c) machine ∧
      call "substring" [.number x, add store (.number x) (.number 1)] = .ok (single c) machine ∧
      ∃ list later, call "split" [.string ""] = .ok list later ∧
        readIndexed later.store list (.number x) = .ok (single c)) ∧
    ∀ t : String,
      let occurs (place : Nat) := t.toList <+: s.toList.drop place
      (∃ answer, call "indexOf" [.string t] = .ok answer machine ∧
        (t.toList <:+: s.toList → answer ≠ .number (-1) ∧
          ∃ place, answer = .ofCount place ∧ occurs place ∧
            ∀ earlier < place, ¬ occurs earlier) ∧
        (¬ t.toList <:+: s.toList → answer = .number (-1))) ∧
      ∀ x place, IsCount x place → place + t.length < 2 ^ 53 →
        (CutsOut invoke machine s t x ↔ occurs place) := by
  intro store call
  refine ⟨rfl, fun x i h hlt hi => ?_, fun t => ⟨⟨.ofFind (Text.indexOf? t.toList s.toList), rfl,
    fun hsome => ?_, fun hnone => ?_⟩, fun x place h hplace => cutsOut_iff h hplace⟩⟩
  · have hc : s.toList[i]? = some s.toList[i] :=
      List.getElem?_eq_getElem (by rwa [String.length_toList])
    have hone : IsCount (1 : Float) 1 := isCount_ofNat (by decide)
    have hcall := callMethod_substring h (h.add hone hi) hi (Nat.le_add_right _ _) invoke machine s
    rw [Nat.add_sub_cancel_left, List.take_one, List.head?_drop, hc] at hcall
    exact ⟨_, hc, readIndexed_character h (by omega) hc, callMethod_charAt h (by omega) hc, hcall,
      readIndexed_split h (by omega) hc invoke machine⟩
  · cases hplace : Text.indexOf? t.toList s.toList with
    | none => exact absurd hsome (Text.indexOf?_eq_none_iff.mp hplace)
    | some place =>
      obtain ⟨hoccurs, hleast⟩ := Text.indexOf?_eq_some_iff.mp hplace
      exact ⟨ofCount_ne place, place, rfl, hoccurs, hleast⟩
  · rw [Text.indexOf?_eq_none_iff.mpr hnone]
    rfl

/-- A machine with nothing in its store. -/
def bare : Machine := ⟨.empty, #[], 0, 0⟩

/-- Characters that take more than one byte count as one. -/
theorem character_positions_wide :
    callMethod (Run.invoke 0 0) (.string "é😀é") "charAt" [.number 2] bare =
        .ok (.string "é") bare ∧
      callMethod (Run.invoke 0 0) (.string "é😀é") "indexOf" [.string "😀é"] bare =
        .ok (.ofCount 1) bare ∧
      CutsOut (Run.invoke 0 0) bare "é😀é" "😀é" 1 ∧
      ¬ CutsOut (Run.invoke 0 0) bare "é😀é" "😀é" 0 := by
  obtain ⟨-, hcharacter, hfind⟩ := character_positions (Run.invoke 0 0) bare "é😀é"
  obtain ⟨c, hc, -, hcharAt, -⟩ :=
    hcharacter 2 2 ⟨by decide +kernel, by decide +kernel⟩ (by decide) (by decide)
  obtain rfl : 'é' = c := by simpa using hc
  obtain ⟨-, hcuts⟩ := hfind "😀é"
  refine ⟨hcharAt, rfl, ?_, ?_⟩
  · exact (hcuts 1 1 ⟨by decide +kernel, by decide +kernel⟩ (by decide)).mpr (by decide)
  · rw [hcuts 0 0 ⟨by decide +kernel, by decide +kernel⟩ (by decide)]
    decide

end Run

end Formulary
