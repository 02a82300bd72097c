import Formulary.Text.Search
import Mathlib.Data.List.Infix

/-!
# Occurrences of a text in another

* `indexOf?_eq_some_iff`, `indexOf?_eq_none_iff` : the place that is found is the least one at which
  the text occurs, and none is found when it occurs nowhere;
* `joinWith_splitOn` : the pieces of a text put together again;
* `not_infix_of_mem_splitOn` : no piece has the separator in it.
-/

namespace Formulary.Text

variable {needle separator text piece : List Char} {pieces : List (List Char)} {c : Char}
  {place skip : Nat}

/-! ## Finding -/

theorem indexOf?_eq_none_iff : indexOf? needle text = none ↔ ¬ needle <:+: text := by
  induction text with
  | nil => cases needle <;> simp [indexOf?]
  | cons c rest ih =>
    unfold indexOf?
    rw [List.infix_cons_iff, not_or, ← ih, ← List.isPrefixOf_iff_prefix]
    split <;> simp [*]

/-- **The place that is found is the least one at which the text occurs.** -/
theorem indexOf?_eq_some_iff : indexOf? needle text = some place ↔
    needle <+: text.drop place ∧ ∀ earlier < place, ¬ needle <+: text.drop earlier := by
  induction text generalizing place with
  | nil =>
    cases needle with
    | nil =>
      simp only [indexOf?, List.isEmpty_nil, if_true, Option.some.injEq, List.nil_prefix, true_and,
        not_true_eq_false, imp_false, not_lt]
      exact ⟨fun h earlier => h ▸ Nat.zero_le earlier, fun h => (Nat.le_zero.mp (h 0)).symm⟩
    | cons => simp [indexOf?]
  | cons c rest ih =>
    unfold indexOf?
    simp only [List.isPrefixOf_iff_prefix]
    split
    · next h =>
      rw [Option.some.injEq]
      constructor
      · rintro rfl
        exact ⟨h, fun earlier hlt => absurd hlt (Nat.not_lt_zero earlier)⟩
      · rintro ⟨-, least⟩
        by_contra hne
        exact least 0 (Nat.pos_of_ne_zero fun heq => hne heq.symm) h
    · next h =>
      cases place with
      | zero => simpa using h
      | succ place =>
        rw [Option.map_eq_some_iff]
        simp only [Nat.add_right_cancel_iff, exists_eq_right, List.drop_succ_cons, ih]
        refine and_congr_right fun _ => ⟨fun least earlier hlt => ?_, fun least earlier hlt => ?_⟩
        · cases earlier with
          | zero => exact h
          | succ earlier => exact least earlier (Nat.lt_of_succ_lt_succ hlt)
        · exact least (earlier + 1) (Nat.succ_lt_succ hlt)

/-! ## Cutting -/

theorem joinWith_eq_intercalate (separator : List Char) (pieces : List (List Char)) :
    joinWith separator pieces = separator.intercalate pieces := by
  induction pieces with
  | nil => rfl
  | cons piece pieces ih =>
    cases pieces with
    | nil => simp [joinWith]
    | cons next pieces => rw [joinWith, ih, List.intercalate_cons_cons]; simp

@[simp] theorem joinWith_consPiece (separator : List Char) (c : Char) (pieces : List (List Char)) :
    joinWith separator (consPiece c pieces) = c :: joinWith separator pieces := by
  cases pieces with
  | nil => rfl
  | cons piece pieces => cases pieces <;> rfl

theorem joinWith_nil_cons (separator : List Char) (h : pieces ≠ []) :
    joinWith separator ([] :: pieces) = separator ++ joinWith separator pieces := by
  cases pieces with
  | nil => exact absurd rfl h
  | cons => rfl

/-- Characters put together with nothing between them. -/
theorem joinWith_singletons (text : List Char) : joinWith [] (text.map fun c => [c]) = text := by
  induction text with
  | nil => rfl
  | cons c rest ih =>
    cases rest with
    | nil => rfl
    | cons next rest => exact congrArg (c :: ·) ih

/-- The pieces of what follows an occurrence are those of the rest of the text. -/
theorem joinWith_splitFrom (nonempty : separator ≠ []) (skip : Nat) (text : List Char) :
    joinWith separator (splitFrom separator skip text) = text.drop skip := by
  induction text generalizing skip with
  | nil => simp [splitFrom, joinWith]
  | cons c rest ih =>
    cases skip with
    | succ skip => exact ih skip
    | zero =>
      unfold splitFrom
      simp only [List.isPrefixOf_iff_prefix]
      split
      · next h =>
        obtain ⟨after, hafter⟩ := h
        rw [joinWith_nil_cons separator (splitFrom_ne_nil _ _ _), ih]
        obtain ⟨first, more, rfl⟩ := List.exists_cons_of_ne_nil nonempty
        obtain ⟨rfl, rfl⟩ := List.cons.inj hafter
        simp
      · rw [joinWith_consPiece, ih]
        rfl

/-- **The pieces with the separator between them are the text again.** -/
theorem joinWith_splitOn (nonempty : separator ≠ []) (text : List Char) :
    joinWith separator (splitOn separator text) = text :=
  joinWith_splitFrom nonempty 0 text

/-- The first piece stands at the head of what is put together. -/
theorem head_prefix_joinWith (separator piece : List Char) (pieces : List (List Char)) :
    piece <+: joinWith separator (piece :: pieces) := by
  cases pieces with
  | nil => exact List.prefix_rfl
  | cons next pieces =>
    show piece <+: piece ++ separator ++ joinWith separator (next :: pieces)
    rw [List.append_assoc]
    exact List.prefix_append _ _

/-- A piece goes on up to the next occurrence, so that none begins inside it. -/
theorem not_infix_of_mem_splitFrom (nonempty : separator ≠ []) (skip : Nat)
    (h : piece ∈ splitFrom separator skip text) : ¬ separator <:+: piece := by
  induction text generalizing skip piece with
  | nil =>
    obtain rfl := List.mem_singleton.mp h
    rwa [List.infix_nil]
  | cons c rest ih =>
    cases skip with
    | succ skip => exact ih skip h
    | zero =>
      unfold splitFrom at h
      simp only [List.isPrefixOf_iff_prefix] at h
      split at h
      · rcases List.mem_cons.mp h with rfl | h
        · rwa [List.infix_nil]
        · exact ih _ h
      · next hnot =>
        obtain ⟨first, others, hpieces⟩ :=
          List.exists_cons_of_ne_nil (splitFrom_ne_nil separator 0 rest)
        have hfirst : first <+: rest := by
          have hjoin := head_prefix_joinWith separator first others
          rwa [← hpieces, joinWith_splitFrom nonempty] at hjoin
        have hpiece (other) (hmem : other ∈ first :: others) := ih 0 (hpieces ▸ hmem)
        rw [hpieces, consPiece] at h
        rcases List.mem_cons.mp h with rfl | h
        · rw [List.infix_cons_iff, not_or]
          exact ⟨fun hstarts => hnot (hstarts.trans (List.cons_prefix_cons.mpr ⟨rfl, hfirst⟩)),
            hpiece first List.mem_cons_self⟩
        · exact hpiece piece (List.mem_cons_of_mem first h)

/-- **No piece has the separator in it.** -/
theorem not_infix_of_mem_splitOn (nonempty : separator ≠ [])
    (h : piece ∈ splitOn separator text) : ¬ separator <:+: piece :=
  not_infix_of_mem_splitFrom nonempty 0 h

end Formulary.Text
