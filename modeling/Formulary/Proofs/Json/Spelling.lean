import Formulary.Json.Reading
import Formulary.Json.Writing
import Mathlib.Data.List.DropRight
import Mathlib.Data.List.Forall2

/-!
# How values are spelled

* `readString_escaped` : what is escaped between quotes is read back;
* `Spells` : the texts that write a value without numbers, with any gaps between their parts;
* `readValue_of_spells`, `parse?_of_spells` : a value is read back from any of its spellings;
* `Textual.spells_compact`, `Textual.spells_prettyAt` : both ways of writing a value spell it.
-/

namespace Formulary.Json

/-! ## Strings -/

theorem codeUnit?_hexChar : ∀ n < 32,
    codeUnit? '0' '0' (hexChar (n / 16)) (hexChar (n % 16)) = some n := by
  decide

theorem readString_escapeChar (c : Char) (text : List Char) :
    readString (escapeChar c ++ text) =
      (readString text).map fun (body, rest) => (c :: body, rest) := by
  unfold escapeChar
  split_ifs with hquote hslash hline hreturn htab hback hfeed hcontrol
  · subst hquote
    rfl
  · subst hslash
    rfl
  · subst hline
    rfl
  · subst hreturn
    rfl
  · subst htab
    rfl
  · rw [← Char.ofNat_toNat c, hback]
    rfl
  · rw [← Char.ofNat_toNat c, hfeed]
    rfl
  · simp only [List.cons_append, List.nil_append]
    rw [readString, codeUnit?_hexChar _ hcontrol]
    dsimp only
    rw [if_pos (Or.inl (by omega)), Char.ofNat_toNat]
  · simp only [List.cons_append, List.nil_append]
    rw [readString, if_neg (by simp [hcontrol, hslash])]
    · exact hquote
    · exact fun _ _ _ _ _ h _ => hslash h
    · exact fun _ _ h _ => hslash h

/-- **What stands between the quotes of a string is read back.** -/
theorem readString_escaped (body rest : List Char) :
    readString (body.flatMap escapeChar ++ '"' :: rest) = some (body, rest) := by
  induction body with
  | nil => rfl
  | cons c body ih =>
    rw [List.flatMap_cons, List.append_assoc, readString_escapeChar, ih]
    rfl

theorem toList_quote (s : String) :
    (quote s).toList = '"' :: (s.toList.flatMap escapeChar ++ ['"']) :=
  String.toList_ofList

/-! ## Spellings -/

/-- Whether a text is made of gaps. -/
def IsGaps (gaps : List Char) : Prop :=
  ∀ c ∈ gaps, isGap c = true

theorem skipGaps_append {gaps : List Char} (h : IsGaps gaps) (text : List Char) :
    skipGaps (gaps ++ text) = skipGaps text :=
  List.dropWhile_append_of_pos h

mutual

/-- Whether a text writes a value without numbers, possibly behind gaps, with at most `nesting`
brackets open at once. -/
inductive Spells : Nat → Json → List Char → Prop where
  | gap {nesting json c text} (gap : isGap c = true) (spells : Spells nesting json text) :
      Spells nesting json (c :: text)
  | null (nesting : Nat) : Spells nesting .null ['n', 'u', 'l', 'l']
  | true (nesting : Nat) : Spells nesting (.boolean .true) ['t', 'r', 'u', 'e']
  | false (nesting : Nat) : Spells nesting (.boolean .false) ['f', 'a', 'l', 's', 'e']
  | string (nesting : Nat) (s : String) : Spells nesting (.string s) (quote s).toList
  | noItems {gaps} (nesting : Nat) (blank : IsGaps gaps) :
      Spells (nesting + 1) (.array []) ('[' :: (gaps ++ [']']))
  | array {nesting items text} (inside : SpellsItems nesting items text) :
      Spells (nesting + 1) (.array items) ('[' :: text)
  | noMembers {gaps} (nesting : Nat) (blank : IsGaps gaps) :
      Spells (nesting + 1) (.object []) ('\x7b' :: (gaps ++ ['\x7d']))
  | object {nesting members text} (inside : SpellsMembers nesting members text) :
      Spells (nesting + 1) (.object members) ('\x7b' :: text)

/-- Whether a text writes the items of an array that is open, and closes it. -/
inductive SpellsItems : Nat → List Json → List Char → Prop where
  | last {nesting item text gaps} (spells : Spells nesting item text) (blank : IsGaps gaps) :
      SpellsItems nesting [item] (text ++ (gaps ++ [']']))
  | more {nesting item text gaps items rest} (spells : Spells nesting item text)
      (blank : IsGaps gaps) (later : SpellsItems nesting items rest) :
      SpellsItems nesting (item :: items) (text ++ (gaps ++ ',' :: rest))

/-- Whether a text writes a key, the colon and the value behind it. -/
inductive SpellsMember : Nat → String × Json → List Char → Prop where
  | member {nesting key value gaps gaps' text} (before : IsGaps gaps) (behind : IsGaps gaps')
      (spells : Spells nesting value text) :
      SpellsMember nesting (key, value) (gaps ++ ((quote key).toList ++ (gaps' ++ ':' :: text)))

/-- Whether a text writes the members of an object that is open, and closes it. -/
inductive SpellsMembers : Nat → List (String × Json) → List Char → Prop where
  | last {nesting member text gaps} (spells : SpellsMember nesting member text)
      (blank : IsGaps gaps) :
      SpellsMembers nesting [member] (text ++ (gaps ++ ['\x7d']))
  | more {nesting member text gaps members rest} (spells : SpellsMember nesting member text)
      (blank : IsGaps gaps) (later : SpellsMembers nesting members rest) :
      SpellsMembers nesting (member :: members) (text ++ (gaps ++ ',' :: rest))

end

theorem readValue_gap {c : Char} (h : isGap c = true) (bound nesting : Nat) (text : List Char) :
    readValue .content bound nesting (c :: text) = readValue .content bound nesting text := by
  have hskip : skipGaps (c :: text) = skipGaps text := List.dropWhile_cons_of_pos h
  unfold readValue
  rw [hskip]

theorem readValue_skipGaps (bound nesting : Nat) (text : List Char) :
    readValue .content bound nesting (skipGaps text) = readValue .content bound nesting text := by
  have hskip : skipGaps (skipGaps text) = skipGaps text := List.dropWhile_idempotent _ _
  unfold readValue
  rw [hskip]

theorem Spells.head {nesting : Nat} {json : Json} {text : List Char} :
    Spells nesting json text → ∀ rest, ∃ c later, skipGaps (text ++ rest) = c :: later ∧ c ≠ ']'
  | .gap (c := c) h spells, rest => by
    obtain ⟨first, later, hskip, hfirst⟩ := spells.head rest
    exact ⟨first, later, (List.dropWhile_cons_of_pos h).trans hskip, hfirst⟩
  | .null _, _ => ⟨_, _, rfl, by decide⟩
  | .true _, _ => ⟨_, _, rfl, by decide⟩
  | .false _, _ => ⟨_, _, rfl, by decide⟩
  | .string _ s, rest => ⟨'"', _, by rw [toList_quote]; rfl, by decide⟩
  | .noItems _ _, _ => ⟨'[', _, rfl, by decide⟩
  | .array _, _ => ⟨'[', _, rfl, by decide⟩
  | .noMembers _ _, _ => ⟨'\x7b', _, rfl, by decide⟩
  | .object _, _ => ⟨'\x7b', _, rfl, by decide⟩

/-! ## Reading what is spelled -/

theorem skipGaps_of_not_gap {c : Char} (h : isGap c = false) (text : List Char) :
    skipGaps (c :: text) = c :: text :=
  List.dropWhile_cons_of_neg (by simp [h])

/-- Behind gaps, the reading of items goes on as without them. -/
theorem readItems_skipGaps (bound nesting count : Nat) (text : List Char) :
    readItems (readValue .content bound nesting) count (skipGaps text) =
      readItems (readValue .content bound nesting) count text := by
  cases count with
  | zero => rfl
  | succ count => rw [readItems, readItems, readValue_skipGaps]

theorem readMembers_skipGaps (value : String → List Char → Option (Json × List Char))
    (count : Nat) (text : List Char) :
    readMembers .content value count (skipGaps text) = readMembers .content value count text := by
  have hskip : skipGaps (skipGaps text) = skipGaps text := List.dropWhile_idempotent _ _
  cases count with
  | zero => rfl
  | succ count => rw [readMembers, readMembers, readKey, readKey, hskip]

theorem SpellsItems.length_le {nesting : Nat} {items : List Json} {text : List Char} :
    SpellsItems nesting items text → items.length ≤ text.length
  | .last _ _ => by simp; omega
  | .more _ _ later => by
    have hlater := later.length_le
    simp only [List.length_cons, List.length_append]
    omega

theorem SpellsMembers.length_le {nesting : Nat} {members : List (String × Json)}
    {text : List Char} : SpellsMembers nesting members text → members.length ≤ text.length
  | .last _ _ => by simp; omega
  | .more _ _ later => by
    have hlater := later.length_le
    simp only [List.length_cons, List.length_append]
    omega

theorem SpellsItems.head {nesting : Nat} {items : List Json} {text : List Char}
    (h : SpellsItems nesting items text) (rest : List Char) :
    ∃ c later, skipGaps (text ++ rest) = c :: later ∧ c ≠ ']' := by
  cases h with
  | last spells _ =>
    rw [List.append_assoc]
    exact spells.head _
  | more spells _ _ =>
    rw [List.append_assoc]
    exact spells.head _

theorem SpellsMember.head {nesting : Nat} {member : String × Json} {text : List Char}
    (h : SpellsMember nesting member text) (rest : List Char) :
    ∃ later, skipGaps (text ++ rest) = '"' :: later := by
  cases h with
  | member before _ _ =>
    rw [List.append_assoc, skipGaps_append before, toList_quote]
    exact ⟨_, rfl⟩

theorem SpellsMembers.head {nesting : Nat} {members : List (String × Json)} {text : List Char}
    (h : SpellsMembers nesting members text) (rest : List Char) :
    ∃ later, skipGaps (text ++ rest) = '"' :: later := by
  cases h with
  | last spells _ =>
    rw [List.append_assoc]
    exact spells.head _
  | more spells _ _ =>
    rw [List.append_assoc]
    exact spells.head _

theorem readKey_quote {gaps gaps' : List Char} (before : IsGaps gaps) (behind : IsGaps gaps')
    (key : String) (text : List Char) :
    readKey .content (gaps ++ ((quote key).toList ++ (gaps' ++ ':' :: text))) =
      some (key, text) := by
  rw [readKey, skipGaps_append before, toList_quote, List.cons_append, List.append_assoc,
    skipGaps_of_not_gap (by decide)]
  simp only [Scrutiny.string, List.singleton_append, readString_escaped]
  rw [skipGaps_append behind, skipGaps_of_not_gap (by decide)]
  simp only [String.ofList_toList]

mutual

/-- **A value is read back from any of its spellings.** -/
theorem readValue_of_spells {nesting : Nat} {json : Json} {text : List Char} (bound : Nat)
    (rest : List Char) : Spells nesting json text → text.length ≤ bound →
      readValue .content bound nesting (text ++ rest) = some (json, rest)
  | .gap h spells, enough => by
    rw [List.cons_append, readValue_gap h]
    exact readValue_of_spells bound rest spells (Nat.le_of_succ_le enough)
  | .null _, _ => by
    unfold readValue
    rfl
  | .true _, _ => by
    unfold readValue
    rfl
  | .false _, _ => by
    unfold readValue
    rfl
  | .string _ s, _ => by
    rw [toList_quote, List.cons_append, List.append_assoc]
    unfold readValue
    rw [skipGaps_of_not_gap (by decide)]
    simp only [Scrutiny.string, List.singleton_append, readString_escaped, Option.map_some,
      String.ofList_toList]
  | .noItems _ blank, _ => by
    rw [List.cons_append, List.append_assoc]
    unfold readValue
    rw [skipGaps_of_not_gap (by decide)]
    simp only [readArray, skipGaps_append blank]
    rfl
  | .array inside, enough => by
    obtain ⟨c, later, hskip, hc⟩ := inside.head rest
    have hitems := readItems_of_spells bound rest bound inside (Nat.le_of_succ_le enough)
      (Nat.le_trans inside.length_le (Nat.le_of_succ_le enough))
    rw [List.cons_append]
    unfold readValue
    rw [skipGaps_of_not_gap (by decide)]
    rw [← readItems_skipGaps, hskip] at hitems
    simp only [readArray, hskip]
    split
    · next heq => exact absurd (List.cons.inj heq).1 hc
    · rw [hitems]
      rfl
  | .noMembers _ blank, _ => by
    rw [List.cons_append, List.append_assoc]
    unfold readValue
    rw [skipGaps_of_not_gap (by decide)]
    simp only [readObject, skipGaps_append blank]
    rfl
  | .object inside, enough => by
    obtain ⟨later, hskip⟩ := inside.head rest
    have hmembers := readMembers_of_spells bound rest bound inside (Nat.le_of_succ_le enough)
      (Nat.le_trans inside.length_le (Nat.le_of_succ_le enough))
    rw [List.cons_append]
    unfold readValue
    rw [skipGaps_of_not_gap (by decide)]
    rw [← readMembers_skipGaps, hskip] at hmembers
    simp only [readObject, hskip]
    exact congrArg (Option.map fun (members, rest) => (Json.object members, rest)) hmembers

theorem readItems_of_spells {nesting : Nat} {items : List Json} {text : List Char} (bound : Nat)
    (rest : List Char) (count : Nat) : SpellsItems nesting items text → text.length ≤ bound →
      items.length ≤ count →
      readItems (readValue .content bound nesting) count (text ++ rest) = some (items, rest)
  | .last spells blank, enough, hcount => by
    cases count with
    | zero => exact absurd hcount (by simp)
    | succ count =>
      rw [List.length_append] at enough
      rw [readItems, List.append_assoc, List.append_assoc,
        readValue_of_spells bound _ spells (by omega)]
      simp only [skipGaps_append blank]
      rfl
  | .more spells blank later, enough, hcount => by
    cases count with
    | zero => exact absurd hcount (by simp)
    | succ count =>
      rw [List.length_append, List.length_append, List.length_cons] at enough
      have hlater := readItems_of_spells bound rest count later (by omega)
        (Nat.le_of_succ_le_succ hcount)
      rw [readItems, List.append_assoc, List.append_assoc,
        readValue_of_spells bound _ spells (by omega)]
      simp only [skipGaps_append blank, List.cons_append,
        skipGaps_of_not_gap (by decide : isGap ',' = false), hlater, Option.map_some]

theorem readMember_of_spells {nesting : Nat} {member : String × Json} {text : List Char}
    (bound : Nat) (rest : List Char) : SpellsMember nesting member text → text.length ≤ bound →
      ∃ later, readKey .content (text ++ rest) = some (member.1, later) ∧
        readValue .content bound nesting later = some (member.2, rest)
  | .member before behind spells, enough => by
    simp only [List.length_append, List.length_cons] at enough
    refine ⟨_, ?_, readValue_of_spells bound rest spells (by omega)⟩
    simp only [List.append_assoc, List.cons_append]
    exact readKey_quote before behind _ _

theorem readMembers_of_spells {nesting : Nat} {members : List (String × Json)} {text : List Char}
    (bound : Nat) (rest : List Char) (count : Nat) :
    SpellsMembers nesting members text → text.length ≤ bound → members.length ≤ count →
      readMembers .content (fun _ => readValue .content bound nesting) count (text ++ rest) =
        some (members, rest)
  | .last spells blank, enough, hcount => by
    cases count with
    | zero => exact absurd hcount (by simp)
    | succ count =>
      rw [List.length_append] at enough
      rw [List.append_assoc, List.append_assoc]
      obtain ⟨later, hkey, hvalue⟩ := readMember_of_spells bound _ spells (by omega)
      rw [readMembers, hkey]
      simp only [hvalue, skipGaps_append blank]
      rfl
  | .more spells blank later, enough, hcount => by
    cases count with
    | zero => exact absurd hcount (by simp)
    | succ count =>
      rw [List.length_append, List.length_append, List.length_cons] at enough
      have hlater := readMembers_of_spells bound rest count later (by omega)
        (Nat.le_of_succ_le_succ hcount)
      rw [List.append_assoc, List.append_assoc]
      obtain ⟨behind, hkey, hvalue⟩ := readMember_of_spells bound _ spells (by omega)
      rw [readMembers, hkey]
      simp only [hvalue, skipGaps_append blank, List.cons_append,
        skipGaps_of_not_gap (by decide : isGap ',' = false), hlater, Option.map_some]

end

/-- **A value is what any of its spellings writes.** -/
theorem parse?_of_spells {json : Json} {text : String} (h : Spells maxNesting json text.toList) :
    parse? text = some json := by
  have hvalue := readValue_of_spells text.toList.length [] h (Nat.le_refl _)
  rw [List.append_nil] at hvalue
  unfold parse?
  dsimp only
  rw [hvalue]
  rfl

/-! ## Writing -/

/-- Whether a value has no numbers in it, and at most `nesting` brackets open at once. -/
inductive Textual : Nat → Json → Prop where
  | null (nesting : Nat) : Textual nesting .null
  | boolean (nesting : Nat) (b : Bool) : Textual nesting (.boolean b)
  | string (nesting : Nat) (s : String) : Textual nesting (.string s)
  | array {nesting : Nat} {items : List Json} (inside : ∀ item ∈ items, Textual nesting item) :
      Textual (nesting + 1) (.array items)
  | object {nesting : Nat} {members : List (String × Json)}
      (inside : ∀ member ∈ members, Textual nesting member.2) :
      Textual (nesting + 1) (.object members)

theorem Textual.mono {nesting nesting' : Nat} {json : Json} (h : Textual nesting json)
    (hle : nesting ≤ nesting') : Textual nesting' json := by
  induction h generalizing nesting' with
  | null => exact .null _
  | boolean => exact .boolean _ _
  | string => exact .string _ _
  | array _ ih =>
    obtain ⟨deeper, rfl⟩ := Nat.exists_eq_add_of_le' (Nat.le_trans (Nat.le_add_left 1 _) hle)
    exact .array fun item hmem => ih item hmem (Nat.le_of_succ_le_succ hle)
  | object _ ih =>
    obtain ⟨deeper, rfl⟩ := Nat.exists_eq_add_of_le' (Nat.le_trans (Nat.le_add_left 1 _) hle)
    exact .object fun member hmem => ih member hmem (Nat.le_of_succ_le_succ hle)

theorem Spells.gaps {nesting : Nat} {json : Json} {gaps text : List Char} (blank : IsGaps gaps)
    (h : Spells nesting json text) : Spells nesting json (gaps ++ text) := by
  induction gaps with
  | nil => exact h
  | cons c gaps ih =>
    obtain ⟨hc, hgaps⟩ := List.forall_mem_cons.mp blank
    exact .gap hc (ih hgaps)

theorem isGaps_nil : IsGaps [] := fun _ h => nomatch h

theorem toList_intercalate_cons_cons (piece piece' : String) (pieces : List String) :
    (String.intercalate "," (piece :: piece' :: pieces)).toList =
      piece.toList ++ ',' :: (String.intercalate "," (piece' :: pieces)).toList := by
  rw [String.intercalate_cons_cons, String.toList_append, String.toList_append, List.append_assoc]
  rfl

/-- Spellings of items, joined by commas, are a spelling of the items. -/
theorem spellsItems_of_pieces {nesting : Nat} {items : List Json} {pieces : List String}
    (h : List.Forall₂ (fun item piece => Spells nesting item piece.toList) items pieces)
    (nonempty : items ≠ []) {gaps : List Char} (blank : IsGaps gaps) :
    SpellsItems nesting items ((String.intercalate "," pieces).toList ++ (gaps ++ [']'])) := by
  induction h with
  | nil => exact absurd rfl nonempty
  | cons hitem hitems ih =>
    cases hitems with
    | nil =>
      rw [String.intercalate_singleton]
      exact .last hitem blank
    | cons =>
      rw [toList_intercalate_cons_cons, List.append_assoc]
      exact .more hitem isGaps_nil (ih (by simp))

/-- Spellings of members, joined by commas, are a spelling of the members. -/
theorem spellsMembers_of_pieces {nesting : Nat} {members : List (String × Json)}
    {pieces : List String}
    (h : List.Forall₂ (fun member piece => SpellsMember nesting member piece.toList) members pieces)
    (nonempty : members ≠ []) {gaps : List Char} (blank : IsGaps gaps) :
    SpellsMembers nesting members
      ((String.intercalate "," pieces).toList ++ (gaps ++ ['\x7d'])) := by
  induction h with
  | nil => exact absurd rfl nonempty
  | cons hmember hmembers ih =>
    cases hmembers with
    | nil =>
      rw [String.intercalate_singleton]
      exact .last hmember blank
    | cons =>
      rw [toList_intercalate_cons_cons, List.append_assoc]
      exact .more hmember isGaps_nil (ih (by simp))

theorem compactItems_eq (items : List Json) : compactItems items = items.map compact := by
  induction items with
  | nil => rfl
  | cons item items ih => rw [compactItems, ih, List.map_cons]

theorem compactMembers_eq (members : List (String × Json)) :
    compactMembers members =
      members.map fun member => quote member.1 ++ ":" ++ member.2.compact := by
  induction members with
  | nil => rfl
  | cons member members ih => rw [compactMembers, ih, List.map_cons]

theorem prettyItems_eq (level : Nat) (items : List Json) :
    prettyItems level items = items.map fun item => lineBreak level ++ item.prettyAt level := by
  induction items with
  | nil => rfl
  | cons item items ih => rw [prettyItems, ih, List.map_cons]

theorem prettyMembers_eq (level : Nat) (members : List (String × Json)) :
    prettyMembers level members = members.map fun member =>
      lineBreak level ++ quote member.1 ++ ": " ++ member.2.prettyAt level := by
  induction members with
  | nil => rfl
  | cons member members ih => rw [prettyMembers, ih, List.map_cons]

theorem isGaps_lineBreak (level : Nat) : IsGaps (lineBreak level).toList := by
  intro c hc
  rw [lineBreak, String.toList_append, List.mem_append] at hc
  rcases hc with hline | hspace
  · rw [List.mem_singleton.mp hline]
    rfl
  · rw [String.toList_ofList] at hspace
    rw [List.eq_of_mem_replicate hspace]
    rfl

theorem toList_colon : ":".toList = [':'] := rfl

theorem toList_colonBlank : ": ".toList = [':', ' '] := rfl

theorem spellsMember_of_spells {nesting : Nat} {value : Json} {gaps text : List Char}
    (blank : IsGaps gaps) (key : String) (h : Spells nesting value text) :
    SpellsMember nesting (key, value) (gaps ++ ((quote key).toList ++ ':' :: text)) :=
  @SpellsMember.member nesting key value gaps [] text blank isGaps_nil h

theorem spellsMembers_map {nesting : Nat} {members : List (String × Json)}
    {piece : String × Json → String}
    (h : ∀ member ∈ members, SpellsMember nesting member (piece member).toList)
    (nonempty : members ≠ []) {gaps : List Char} (blank : IsGaps gaps) :
    SpellsMembers nesting members
      ((String.intercalate "," (members.map piece)).toList ++ (gaps ++ ['\x7d'])) :=
  spellsMembers_of_pieces (List.forall₂_map_right_iff.mpr (List.forall₂_same.mpr h)) nonempty blank

theorem spellsItems_map {nesting : Nat} {items : List Json} {piece : Json → String}
    (h : ∀ item ∈ items, Spells nesting item (piece item).toList) (nonempty : items ≠ [])
    {gaps : List Char} (blank : IsGaps gaps) :
    SpellsItems nesting items
      ((String.intercalate "," (items.map piece)).toList ++ (gaps ++ [']'])) :=
  spellsItems_of_pieces (List.forall₂_map_right_iff.mpr (List.forall₂_same.mpr h)) nonempty blank

/-- **On one line a value is spelled.** -/
theorem Textual.spells_compact {nesting : Nat} {json : Json} (h : Textual nesting json) :
    Spells nesting json json.compact.toList := by
  induction h with
  | null nesting => exact .null nesting
  | boolean nesting b =>
    cases b with
    | true => exact .true nesting
    | false => exact .false nesting
  | string nesting s => exact .string nesting s
  | @array nesting items _ ih =>
    rw [compact, String.toList_append, String.toList_append, List.append_assoc, compactItems_eq]
    cases items with
    | nil => exact .noItems nesting isGaps_nil
    | cons item items => exact .array (spellsItems_map ih (by simp) isGaps_nil)
  | @object nesting members _ ih =>
    rw [compact, String.toList_append, String.toList_append, List.append_assoc, compactMembers_eq]
    cases members with
    | nil => exact .noMembers nesting isGaps_nil
    | cons member members =>
      refine .object (spellsMembers_map (fun member hmem => ?_) (by simp) isGaps_nil)
      obtain ⟨key, value⟩ := member
      have hmember := spellsMember_of_spells isGaps_nil key (ih _ hmem)
      rw [List.nil_append] at hmember
      rw [String.toList_append, String.toList_append, List.append_assoc, toList_colon]
      exact hmember

theorem prettyAt_array {level : Nat} {items : List Json} (h : items ≠ []) :
    (array items).prettyAt level = "[" ++ String.intercalate "," (prettyItems (level + 1) items) ++
      lineBreak level ++ "]" := by
  cases items with
  | nil => exact absurd rfl h
  | cons item items => rw [prettyAt]

theorem prettyAt_object {level : Nat} {members : List (String × Json)} (h : members ≠ []) :
    (object members).prettyAt level = "\x7b" ++
      String.intercalate "," (prettyMembers (level + 1) members) ++ lineBreak level ++ "\x7d" := by
  cases members with
  | nil => exact absurd rfl h
  | cons member members => rw [prettyAt]

/-- **Over several lines a value is spelled.** -/
theorem Textual.spells_prettyAt {nesting : Nat} {json : Json} (h : Textual nesting json)
    (level : Nat) : Spells nesting json (json.prettyAt level).toList := by
  induction h generalizing level with
  | null nesting =>
    rw [prettyAt]
    exact .null nesting
  | boolean nesting b =>
    rw [prettyAt]
    cases b with
    | true => exact .true nesting
    | false => exact .false nesting
  | string nesting s =>
    rw [prettyAt]
    exact .string nesting s
  | @array nesting items _ ih =>
    rcases eq_or_ne items [] with rfl | hne
    · rw [prettyAt]
      exact .noItems nesting isGaps_nil
    · rw [prettyAt_array hne, String.toList_append, String.toList_append, String.toList_append,
        List.append_assoc, List.append_assoc, prettyItems_eq]
      refine .array (spellsItems_map (fun item hmem => ?_) hne (isGaps_lineBreak level))
      rw [String.toList_append]
      exact (ih item hmem (level + 1)).gaps (isGaps_lineBreak _)
  | @object nesting members _ ih =>
    rcases eq_or_ne members [] with rfl | hne
    · rw [prettyAt]
      exact .noMembers nesting isGaps_nil
    · rw [prettyAt_object hne, String.toList_append, String.toList_append, String.toList_append,
        List.append_assoc, List.append_assoc, prettyMembers_eq]
      refine .object (spellsMembers_map (fun member hmem => ?_) hne (isGaps_lineBreak level))
      -- the blank behind the colon stands in front of the value
      obtain ⟨key, value⟩ := member
      have hvalue := Spells.gap (c := ' ') rfl (ih _ hmem (level + 1))
      rw [String.toList_append, String.toList_append, String.toList_append, List.append_assoc,
        List.append_assoc, toList_colonBlank]
      exact spellsMember_of_spells (isGaps_lineBreak _) key hvalue

/-- **A value without numbers is read back from the texts that are written for it.** -/
theorem Textual.parse?_compact {json : Json} (h : Textual maxNesting json) :
    parse? json.compact = some json :=
  parse?_of_spells h.spells_compact

theorem Textual.parse?_pretty {json : Json} (h : Textual maxNesting json) :
    parse? json.pretty = some json :=
  parse?_of_spells (h.spells_prettyAt 0)

end Formulary.Json
