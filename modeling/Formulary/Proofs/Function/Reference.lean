import Formulary.Function.Reference
import Mathlib.Data.List.Basic
import Mathlib.Data.List.Induction
import Mathlib.Data.List.TakeWhile
import Mathlib.Data.Nat.Find

/-!
# What a text refers to

* `IsReference`, `CalledAt` : names that references have, and where in a text one is called;
* `Matched` : the leftmost calls that do not overlap, one behind the other;
* `matched_iff` : the scan finds those, and `mem_referencesFrom` : they are all the calls there are;
* `references_calledAt` : the references of a text are the names called in it, in the order of their
  first calls.
-/

namespace Formulary

/-- Whether a name is a dollar sign and at least one character behind it, none of them a dollar
sign, a parenthesis or blank. -/
def IsReference (name : String) : Prop :=
  ∃ part, name.toList = '$' :: part ∧ part ≠ [] ∧
    ∀ c ∈ part, c ≠ '$' ∧ c ≠ '(' ∧ c ≠ ')' ∧ Text.isBlank c = false

/-- Whether a text has, behind its first `place` characters, the name of a reference and an opening
parenthesis. -/
def CalledAt (text : List Char) (place : Nat) (name : String) : Prop :=
  IsReference name ∧ name.toList ++ ['('] <+: text.drop place

/-- The leftmost calls of a text that do not overlap: each is sought behind the one before it. -/
inductive Matched : List Char → List String → Prop
  | none {text : List Char} (none : ∀ place name, ¬ CalledAt text place name) : Matched text []
  | next {text : List Char} {place : Nat} {name : String} {names : List String}
    (found : CalledAt text place name)
    (leftmost : ∀ earlier < place, ∀ other, ¬ CalledAt text earlier other)
    (more : Matched (text.drop (place + (name.toList ++ ['(']).length)) names) :
    Matched text (name :: names)

variable {text rest part : List Char} {place : Nat} {name : String} {c : Char}

/-! ## One call -/

theorem isNamePart_iff :
    isNamePart c = true ↔ c ≠ '$' ∧ c ≠ '(' ∧ c ≠ ')' ∧ Text.isBlank c = false := by
  simp [isNamePart, and_assoc]

/-- A name of the characters that names are made of is found before a parenthesis. -/
theorem referenceName?_append (nonempty : part ≠ []) (parts : ∀ c ∈ part, isNamePart c = true) :
    referenceName? (part ++ '(' :: rest) = some part := by
  unfold referenceName?
  have hparen : isNamePart '(' = false := by decide
  rw [List.takeWhile_append_of_pos parts, List.dropWhile_append_of_pos parts,
    List.takeWhile_cons_of_neg (by simp [hparen]), List.dropWhile_cons_of_neg (by simp [hparen]),
    List.append_nil]
  cases part with
  | nil => exact absurd rfl nonempty
  | cons c part => rfl

theorem referenceName?_eq_some_iff :
    referenceName? text = some part ↔
      part ≠ [] ∧ (∀ c ∈ part, isNamePart c = true) ∧ ∃ rest, text = part ++ '(' :: rest := by
  constructor
  · intro h
    have hsplit := List.takeWhile_append_dropWhile (p := isNamePart) (l := text)
    unfold referenceName? at h
    split at h
    · cases h
    · next rest hrest hnonempty =>
      cases h
      rw [hrest] at hsplit
      exact ⟨hnonempty, fun c hc => List.mem_takeWhile_imp hc, rest, hsplit.symm⟩
    · cases h
  · rintro ⟨nonempty, parts, rest, rfl⟩
    exact referenceName?_append nonempty parts

/-- What is called at the head of a text is what the scan reads behind a dollar sign. -/
theorem calledAt_zero :
    CalledAt (c :: rest) 0 name ↔
      c = '$' ∧ ∃ part, referenceName? rest = some part ∧ name = String.ofList ('$' :: part) := by
  simp only [CalledAt, IsReference, referenceName?_eq_some_iff, isNamePart_iff, List.drop_zero]
  constructor
  · rintro ⟨⟨part, hname, nonempty, parts⟩, after, htext⟩
    rw [hname] at htext
    obtain ⟨rfl, rfl⟩ := List.cons.inj htext
    refine ⟨rfl, part, ⟨nonempty, parts, after, by simp⟩, ?_⟩
    rw [← hname, String.ofList_toList]
  · rintro ⟨rfl, part, ⟨nonempty, parts, after, rfl⟩, rfl⟩
    exact ⟨⟨part, String.toList_ofList, nonempty, parts⟩, after, by simp⟩

theorem calledAt_succ : CalledAt (c :: rest) (place + 1) name ↔ CalledAt rest place name := by
  simp [CalledAt]

theorem CalledAt.ne_nil (h : CalledAt text place name) : text ≠ [] := by
  rintro rfl
  obtain ⟨-, after, hnil⟩ := h
  simp at hnil

/-- Only one name can be called at the head of a text. -/
theorem CalledAt.unique {other : String} (h : CalledAt (c :: rest) 0 name)
    (hother : CalledAt (c :: rest) 0 other) : name = other := by
  obtain ⟨-, part, hpart, rfl⟩ := calledAt_zero.mp h
  obtain ⟨-, part', hpart', rfl⟩ := calledAt_zero.mp hother
  rw [hpart] at hpart'
  cases hpart'
  rfl

/-! ## All calls -/

/-- The scan takes what is called at the head of a text, and then looks behind the first
character. -/
theorem referencesFrom_cons_of_calledAt (h : CalledAt (c :: rest) 0 name) :
    referencesFrom (c :: rest) = name :: referencesFrom rest := by
  obtain ⟨hdollar, part, hpart, rfl⟩ := calledAt_zero.mp h
  rw [referencesFrom, if_pos hdollar, hpart]

theorem referencesFrom_cons_of_not_calledAt (h : ∀ name, ¬ CalledAt (c :: rest) 0 name) :
    referencesFrom (c :: rest) = referencesFrom rest := by
  rw [referencesFrom]
  split
  · next hdollar =>
    split
    · next part hpart => exact absurd (calledAt_zero.mpr ⟨hdollar, part, hpart, rfl⟩) (h _)
    · rfl
  · rfl

/-- **The scan finds the names that are called anywhere,** in other calls too. -/
theorem mem_referencesFrom : name ∈ referencesFrom text ↔ ∃ place, CalledAt text place name := by
  induction text with
  | nil =>
    constructor
    · intro h
      cases h
    · rintro ⟨place, h⟩
      exact absurd rfl h.ne_nil
  | cons c rest ih =>
    have hsplit : (∃ place, CalledAt (c :: rest) place name) ↔
        CalledAt (c :: rest) 0 name ∨ ∃ place, CalledAt rest place name := by
      constructor
      · rintro ⟨_ | place, h⟩
        · exact .inl h
        · exact .inr ⟨place, calledAt_succ.mp h⟩
      · rintro (h | ⟨place, h⟩)
        · exact ⟨0, h⟩
        · exact ⟨place + 1, calledAt_succ.mpr h⟩
    rw [hsplit, ← ih]
    by_cases hcalled : ∃ other, CalledAt (c :: rest) 0 other
    · obtain ⟨other, hother⟩ := hcalled
      have hunique : CalledAt (c :: rest) 0 name ↔ name = other :=
        ⟨fun h => h.unique hother, fun h => h ▸ hother⟩
      rw [referencesFrom_cons_of_calledAt hother, List.mem_cons, hunique]
    · rw [referencesFrom_cons_of_not_calledAt (not_exists.mp hcalled)]
      exact ⟨.inr, fun h => h.resolve_left fun h => hcalled ⟨name, h⟩⟩

/-! ## Matches that do not overlap -/

/-- Nothing is called inside a call, since a name holds no dollar sign. -/
theorem referencesFrom_append (h : ∀ c ∈ part, c ≠ '$') :
    referencesFrom (part ++ rest) = referencesFrom rest := by
  induction part with
  | nil => rfl
  | cons c part ih =>
    rw [List.cons_append, referencesFrom, if_neg (h c List.mem_cons_self)]
    exact ih fun d hd => h d (List.mem_cons_of_mem _ hd)

/-- The scan goes on behind the leftmost call. -/
theorem referencesFrom_of_leftmost (found : CalledAt text place name)
    (leftmost : ∀ earlier < place, ∀ other, ¬ CalledAt text earlier other) :
    referencesFrom text =
      name :: referencesFrom (text.drop (place + (name.toList ++ ['(']).length)) := by
  induction place generalizing text with
  | zero =>
    obtain ⟨⟨part, hname, nonempty, parts⟩, after, htext⟩ := found
    have hplain : ∀ c ∈ part ++ ['('], c ≠ '$' := by
      intro c hc
      rcases List.mem_append.mp hc with hc | hc
      · exact (parts c hc).1
      · rw [List.mem_singleton.mp hc]
        decide
    have hhead : CalledAt ('$' :: (part ++ ['('] ++ after)) 0 name :=
      ⟨⟨part, hname, nonempty, parts⟩, after, by simp [hname]⟩
    rw [List.drop_zero] at htext
    subst htext
    rw [Nat.zero_add, List.drop_left, hname, List.cons_append, List.cons_append,
      referencesFrom_cons_of_calledAt hhead, referencesFrom_append hplain]
  | succ place ih =>
    cases text with
    | nil => exact absurd rfl found.ne_nil
    | cons c rest =>
      rw [referencesFrom_cons_of_not_calledAt (leftmost 0 (Nat.succ_pos place)),
        ih (calledAt_succ.mp found) fun earlier hlt other h =>
          leftmost (earlier + 1) (by omega) other (calledAt_succ.mpr h),
        Nat.succ_add, List.drop_succ_cons]

/-- The names matched in a text are those that the scan finds. -/
theorem Matched.eq {names : List String} (h : Matched text names) :
    names = referencesFrom text := by
  induction h with
  | none hnone =>
    refine (List.eq_nil_iff_forall_not_mem.mpr fun name hname => ?_).symm
    obtain ⟨place, hcalled⟩ := mem_referencesFrom.mp hname
    exact hnone place name hcalled
  | next found leftmost _ ih => rw [referencesFrom_of_leftmost found leftmost, ih]

/-- Every text has matches: the leftmost call, if there is any, and those behind it. -/
theorem exists_matched (text : List Char) : ∃ names, Matched text names := by
  classical
  induction hlength : text.length using Nat.strongRecOn generalizing text with
  | ind length ih =>
    by_cases hany : ∃ place name, CalledAt text place name
    · obtain ⟨name, hfound⟩ := Nat.find_spec hany
      have hpos : 0 < text.length := List.length_pos_of_ne_nil hfound.ne_nil
      obtain ⟨names, hmore⟩ := ih _ (by
        rw [List.length_drop, List.length_append, List.length_singleton]
        omega) (text.drop (Nat.find hany + (name.toList ++ ['(']).length)) rfl
      exact ⟨_, .next hfound (fun earlier hlt other h => Nat.find_min hany hlt ⟨other, h⟩) hmore⟩
    · exact ⟨[], .none fun place name h => hany ⟨place, name, h⟩⟩

/-- **The scan finds the leftmost calls that do not overlap.** -/
theorem matched_iff {names : List String} : Matched text names ↔ names = referencesFrom text := by
  refine ⟨Matched.eq, ?_⟩
  rintro rfl
  obtain ⟨names, hmatched⟩ := exists_matched text
  exact hmatched.eq ▸ hmatched

/-! ## First calls -/

/-- Whether the first call of a name comes before every call of another. -/
def CalledBefore (text : List Char) (name other : String) : Prop :=
  ∃ place, CalledAt text place name ∧ ∀ later, CalledAt text later other → place < later

/-- Without repetitions, elements stand in the order of their first places. -/
theorem pairwise_eraseDups (names : List String) :
    names.eraseDups.Pairwise fun a b => names.idxOf a < names.idxOf b := by
  induction names using List.reverseRecOn with
  | nil => exact List.Pairwise.nil
  | append_singleton names last ih =>
    rw [List.eraseDups_append]
    have hkept : names.eraseDups.Pairwise fun a b =>
        (names ++ [last]).idxOf a < (names ++ [last]).idxOf b := by
      refine ih.imp_of_mem fun {a b} ha hb hlt => ?_
      rw [List.mem_eraseDups] at ha hb
      rwa [List.idxOf_append_of_mem ha, List.idxOf_append_of_mem hb]
    by_cases hlast : last ∈ names
    · simpa [List.removeAll, hlast] using hkept
    · have hnew : ([last].removeAll names).eraseDups = [last] := by
        simp [List.removeAll, hlast, List.eraseDups_cons]
      rw [hnew]
      refine List.pairwise_append.mpr ⟨hkept, List.pairwise_singleton _ _, ?_⟩
      intro a ha b hb
      rw [List.mem_eraseDups] at ha
      obtain rfl := List.mem_singleton.mp hb
      rw [List.idxOf_append_of_mem ha, List.idxOf_append_of_notMem hlast]
      exact Nat.lt_add_right _ (List.idxOf_lt_length_of_mem ha)

/-- A call at the head of a text that is not one of the other name changes nothing. -/
theorem CalledBefore.cons {other : String} (h : CalledBefore rest name other)
    (elsewhere : ¬ CalledAt (c :: rest) 0 other) : CalledBefore (c :: rest) name other := by
  obtain ⟨place, hplace, hbefore⟩ := h
  refine ⟨place + 1, calledAt_succ.mpr hplace, ?_⟩
  rintro (_ | later) hlater
  · exact absurd hlater elsewhere
  · exact Nat.succ_lt_succ (hbefore later (calledAt_succ.mp hlater))

/-- Names are found in the order of their calls. -/
theorem calledBefore_of_idxOf {other : String}
    (h : (referencesFrom text).idxOf name < (referencesFrom text).idxOf other) :
    CalledBefore text name other := by
  induction text with
  | nil => simp [referencesFrom] at h
  | cons c rest ih =>
    by_cases hcalled : ∃ first, CalledAt (c :: rest) 0 first
    · obtain ⟨first, hfirst⟩ := hcalled
      rw [referencesFrom_cons_of_calledAt hfirst] at h
      have hother : other ≠ first := by
        rintro rfl
        simp at h
      have helsewhere : ¬ CalledAt (c :: rest) 0 other := fun hat => hother (hat.unique hfirst)
      by_cases hname : name = first
      · subst hname
        refine ⟨0, hfirst, fun later hlater => Nat.pos_of_ne_zero ?_⟩
        rintro rfl
        exact helsewhere hlater
      · rw [List.idxOf_cons_ne _ (Ne.symm hname), List.idxOf_cons_ne _ (Ne.symm hother)] at h
        exact (ih (Nat.lt_of_succ_lt_succ h)).cons helsewhere
    · rw [referencesFrom_cons_of_not_calledAt (not_exists.mp hcalled)] at h
      exact (ih h).cons fun hat => hcalled ⟨other, hat⟩

/-- **The references of a text are the names called in it, without repetitions and in the order of
their first calls.** They are what its leftmost matches that do not overlap name, so that no call is
hidden by another one. -/
theorem references_calledAt (text : String) :
    (∃ names, (∀ others, Matched text.toList others ↔ others = names) ∧
        references text = names.eraseDups) ∧
      (references text).Nodup ∧
      (∀ name, name ∈ references text ↔ ∃ place, CalledAt text.toList place name) ∧
      (references text).Pairwise (CalledBefore text.toList) := by
  have hordered := pairwise_eraseDups (referencesFrom text.toList)
  refine ⟨⟨_, fun others => matched_iff, rfl⟩, ?_, fun name => ?_, ?_⟩
  · exact hordered.imp fun hlt heq => absurd (heq ▸ hlt) (Nat.lt_irrefl _)
  · rw [references, List.mem_eraseDups, mem_referencesFrom]
  · exact hordered.imp calledBefore_of_idxOf

end Formulary
