import Formulary.Json.Record
import Formulary.Proofs.Json.Members
import Formulary.Proofs.Json.Spelling
import Mathlib.Data.List.Perm.Basic

/-!
# Records as objects

* `sortMembers_perm` : members with different keys are only put in order;
* `Json.Named`, `Json.IsRecord` : objects that give the fields of a record, each under one of its
  names or not at all;
* `Json.recordValues?_of_isRecord` : the fields are read under all of their names, in any order;
* `Json.Given` : values that are written, or left out where they are the default;
* `Json.IsRecord.canonical`, `Json.Given.canonical` : canonical forms write the same.
-/

namespace Formulary

variable {α : Type}

/-! ## Members with different keys -/

theorem insertMember_perm {key : String} {value : α} {members : List (String × α)}
    (new : ∀ member ∈ members, member.1 ≠ key) :
    (insertMember key value members).Perm ((key, value) :: members) := by
  induction members with
  | nil => exact .refl _
  | cons first members ih =>
    obtain ⟨k, v⟩ := first
    obtain ⟨hfirst, hrest⟩ := List.forall_mem_cons.mp new
    unfold insertMember
    split
    · exact .refl _
    · rw [if_neg (Ne.symm hfirst)]
      exact ((ih hrest).cons _).trans (.swap _ _ _)

/-- **Members with different keys are only put in order.** -/
theorem sortMembers_perm {members : List (String × α)} (distinct : (members.map Prod.fst).Nodup) :
    (sortMembers members).Perm members := by
  induction members using List.reverseRecOn with
  | nil => exact .refl _
  | append_singleton members member ih =>
    rw [List.map_append, List.nodup_append] at distinct
    obtain ⟨hmembers, -, hne⟩ := distinct
    have hperm := ih hmembers
    rw [sortMembers_concat]
    refine (insertMember_perm fun other hmem => ?_).trans ((hperm.cons _).trans ?_)
    · exact hne _ (List.mem_map_of_mem (hperm.mem_iff.mp hmem)) _ (by simp)
    · exact (List.perm_append_singleton _ _).symm

namespace Json

theorem canonicalItems_eq (items : List Json) : canonicalItems items = items.map canonical := by
  induction items with
  | nil => rfl
  | cons item items ih => rw [canonicalItems, ih, List.map_cons]

theorem canonicalMembers_eq (members : List (String × Json)) :
    canonicalMembers members = members.map (Prod.map id canonical) := by
  induction members with
  | nil => rfl
  | cons member members ih => rw [canonicalMembers, ih, List.map_cons]; rfl

theorem mapM_of_forall₂ {β γ : Type} {f : β → Option γ} {xs : List β} {ys : List γ}
    (h : List.Forall₂ (fun x y => f x = some y) xs ys) : xs.mapM f = some ys := by
  induction h with
  | nil => rfl
  | cons hhead _ ih =>
    rw [List.mapM_cons, hhead, ih]
    rfl

/-! ## Fields of records -/

/-- Whether members give the fields of a record in order, each under one of its names. A field
without a value is left out. -/
inductive Named : List (List String) → List (Option Json) → List (String × Json) → Prop where
  | nil : Named [] [] []
  | leave {names fields given members} (rest : Named fields given members) :
      Named (names :: fields) (none :: given) members
  | put {name value names fields given members} (mem : name ∈ names)
      (rest : Named fields given members) :
      Named (names :: fields) (some value :: given) ((name, value) :: members)

/-- Whether an object gives the fields of a record, in any order. -/
inductive IsRecord (fields : List (List String)) (given : List (Option Json)) : Json → Prop where
  | object {members inOrder} (named : Named fields given inOrder) (perm : members.Perm inOrder) :
      IsRecord fields given (.object members)

variable {fields : List (List String)} {given : List (Option Json)}
  {members : List (String × Json)} {json : Json}

theorem Named.mem_flatten (h : Named fields given members) {member : String × Json}
    (mem : member ∈ members) : member.1 ∈ fields.flatten := by
  induction h with
  | nil => cases mem
  | leave _ ih => exact List.mem_append_right _ (ih mem)
  | put hname _ ih =>
    rcases List.mem_cons.mp mem with rfl | hmem
    · exact List.mem_append_left _ hname
    · exact List.mem_append_right _ (ih hmem)

theorem Named.mem_given (h : Named fields given members) {member : String × Json}
    (mem : member ∈ members) : some member.2 ∈ given := by
  induction h with
  | nil => cases mem
  | leave _ ih => exact List.mem_cons_of_mem _ (ih mem)
  | put _ _ ih =>
    rcases List.mem_cons.mp mem with rfl | hmem
    · exact List.mem_cons_self
    · exact List.mem_cons_of_mem _ (ih hmem)

theorem Named.nodup_keys (h : Named fields given members) (distinct : fields.flatten.Nodup) :
    (members.map Prod.fst).Nodup := by
  induction h with
  | nil => exact List.nodup_nil
  | leave _ ih => exact ih (List.nodup_append.mp distinct).2.1
  | put hname rest ih =>
    obtain ⟨-, hfields, hne⟩ := List.nodup_append.mp distinct
    refine List.nodup_cons.mpr ⟨fun hmem => ?_, ih hfields⟩
    obtain ⟨member, hmember, hkey⟩ := List.mem_map.mp hmem
    exact hne _ hname _ (rest.mem_flatten hmember) hkey.symm

/-- The order of members does not matter to a field. -/
theorem fieldValue?_of_perm {members' : List (String × Json)} (perm : members.Perm members')
    (names : List String) : fieldValue? names members = fieldValue? names members' := by
  have hfilter := perm.filter fun member => names.contains member.1
  unfold fieldValue?
  generalize members.filter (fun member => names.contains member.1) = found at hfilter
  generalize members'.filter (fun member => names.contains member.1) = found' at hfilter
  match found, found', hfilter.length_eq with
  | [], [], _ => rfl
  | [member], [member'], _ =>
    rw [List.perm_singleton.mp hfilter]
  | _ :: _ :: _, _ :: _ :: _, _ => rfl

theorem fieldValue?_append {names : List String} {front : List (String × Json)}
    (h : ∀ member ∈ front, member.1 ∉ names) :
    fieldValue? names (front ++ members) = fieldValue? names members := by
  have hfront : front.filter (fun member => names.contains member.1) = [] := by
    simpa [List.filter_eq_nil_iff] using h
  rw [fieldValue?, fieldValue?, List.filter_append, hfront, List.nil_append]

theorem fieldValue?_eq_none {names : List String} (h : ∀ member ∈ members, member.1 ∉ names) :
    fieldValue? names members = some none := by
  have hmembers : members.filter (fun member => names.contains member.1) = [] := by
    simpa [List.filter_eq_nil_iff] using h
  rw [fieldValue?, hmembers]

theorem fieldValue?_cons {names : List String} {name : String} (mem : name ∈ names) (value : Json)
    (h : ∀ member ∈ members, member.1 ∉ names) :
    fieldValue? names ((name, value) :: members) = some (some value) := by
  have hmembers : members.filter (fun member => names.contains member.1) = [] := by
    simpa [List.filter_eq_nil_iff] using h
  rw [fieldValue?, List.filter_cons_of_pos (by simpa using mem), hmembers]

/-- Behind members of other names, the fields are found. -/
theorem Named.mapM_fieldValue? (h : Named fields given members) (distinct : fields.flatten.Nodup)
    (front : List (String × Json)) (other : ∀ member ∈ front, member.1 ∉ fields.flatten) :
    (fields.mapM fun names => fieldValue? names (front ++ members)) = some given := by
  induction h generalizing front with
  | nil => rfl
  | @leave names fields given members rest ih =>
    obtain ⟨-, hfields, hne⟩ := List.nodup_append.mp distinct
    have hnone : fieldValue? names (front ++ members) = some none := by
      refine fieldValue?_eq_none fun member hmem hname => ?_
      rcases List.mem_append.mp hmem with hfront | hrest
      · exact other member hfront (List.mem_append_left _ hname)
      · exact hne _ hname _ (rest.mem_flatten hrest) rfl
    rw [List.mapM_cons, hnone,
      ih hfields front fun member hmem hin => other member hmem (List.mem_append_right _ hin)]
    rfl
  | @put name value names fields given members hname rest ih =>
    obtain ⟨-, hfields, hne⟩ := List.nodup_append.mp distinct
    have hvalue : fieldValue? names (front ++ (name, value) :: members) = some (some value) := by
      rw [fieldValue?_append fun member hmem hin => other member hmem (List.mem_append_left _ hin)]
      exact fieldValue?_cons hname value fun member hmem hin =>
        hne _ hin _ (rest.mem_flatten hmem) rfl
    have hrest := ih hfields (front ++ [(name, value)]) fun member hmem => by
      rcases List.mem_append.mp hmem with hfront | hlast
      · exact fun hin => other member hfront (List.mem_append_right _ hin)
      · rw [List.mem_singleton.mp hlast]
        exact fun hin => hne _ hname _ hin rfl
    rw [List.append_assoc, List.singleton_append] at hrest
    rw [List.mapM_cons, hvalue, hrest]
    rfl

/-- **The fields of a record are read under any of their names and in any order.** -/
theorem recordValues?_of_isRecord (distinct : fields.flatten.Nodup)
    (h : IsRecord fields given json) : json.recordValues? fields = some given := by
  cases h with
  | @object members named hnamed perm =>
    have hvalues := hnamed.mapM_fieldValue? distinct [] fun _ h => nomatch h
    rw [List.nil_append] at hvalues
    rw [recordValues?, ← hvalues]
    congr 1
    funext names
    exact fieldValue?_of_perm perm names

theorem Named.map (h : Named fields given members) (f : Json → Json) :
    Named fields (given.map (Option.map f)) (members.map (Prod.map id f)) := by
  induction h with
  | nil => exact .nil
  | leave _ ih => exact .leave ih
  | put hname _ ih => exact .put hname ih

/-- **The canonical form of a record is a record.** -/
theorem IsRecord.canonical (distinct : fields.flatten.Nodup) (h : IsRecord fields given json) :
    IsRecord fields (given.map (Option.map Json.canonical)) json.canonical := by
  cases h with
  | @object members named hnamed perm =>
    have hmap := perm.map (Prod.map id Json.canonical)
    have hnodup := (hnamed.map Json.canonical).nodup_keys distinct
    rw [Json.canonical, canonicalMembers_eq]
    refine .object (hnamed.map Json.canonical) ((sortMembers_perm ?_).trans hmap)
    exact ((hmap.map Prod.fst).nodup_iff).mpr hnodup

theorem IsRecord.textual {nesting : Nat} (h : IsRecord fields given json)
    (inside : ∀ value, some value ∈ given → Textual nesting value) :
    Textual (nesting + 1) json := by
  cases h with
  | @object members named hnamed perm =>
    refine .object fun member hmem => ?_
    have hmember := perm.mem_iff.mp hmem
    exact inside member.2 (hnamed.mem_given hmember)

/-! ## Values of fields -/

/-- Whether a field has a value: it is written in the given way, or left out where the value is the
default. -/
inductive Given (writes : α → Json → Prop) (fallback : α) : α → Option Json → Prop where
  | put {a json} (written : writes a json) : Given writes fallback a (some json)
  | leave : Given writes fallback fallback none

theorem Given.read {writes : α → Json → Prop} {fallback a : α} {read : Json → Option α}
    {value : Option Json} (h : Given writes fallback a value)
    (reads : ∀ json, writes a json → read json = some a) :
    orDefault? fallback read value = some a := by
  cases h with
  | put hwrites => exact reads _ hwrites
  | leave => rfl

theorem Given.canonical {writes : α → Json → Prop} {fallback a : α} {value : Option Json}
    (h : Given writes fallback a value)
    (closed : ∀ json, writes a json → writes a json.canonical) :
    Given writes fallback a (value.map Json.canonical) := by
  cases h with
  | put hwrites => exact .put (closed _ hwrites)
  | leave => exact .leave

theorem Given.textual {nesting : Nat} {writes : α → Json → Prop} {fallback a : α} {json : Json}
    (h : Given writes fallback a (some json))
    (textual : ∀ json, writes a json → Textual nesting json) : Textual nesting json := by
  cases h with
  | put hwrites => exact textual _ hwrites

/-! ## Maps of texts, and lists -/

theorem texts?_ofTexts (texts : List (String × String)) : texts? (ofTexts texts) = some texts := by
  refine mapM_of_forall₂ ?_
  rw [List.forall₂_map_left_iff, List.forall₂_same]
  exact fun _ _ => rfl

/-- Texts in order are written as they are in canonical form. -/
theorem canonical_ofTexts {texts : List (String × String)} (inOrder : Formulary.InOrder texts) :
    (ofTexts texts).canonical = ofTexts texts := by
  have hmap : Formulary.InOrder (texts.map fun entry => (entry.1, string entry.2)) :=
    List.pairwise_map.mpr inOrder
  rw [ofTexts, Json.canonical, canonicalMembers_eq, List.map_map]
  exact congrArg object hmap.sortMembers_eq

theorem textual_ofTexts (nesting : Nat) (texts : List (String × String)) :
    Textual (nesting + 1) (ofTexts texts) := by
  refine .object fun member hmem => ?_
  obtain ⟨entry, -, rfl⟩ := List.mem_map.mp hmem
  exact .string nesting entry.2

/-- Whether an array writes entries in order. -/
inductive WritesList (writes : α → Json → Prop) : List α → Json → Prop where
  | array {entries items} (each : List.Forall₂ writes entries items) :
      WritesList writes entries (.array items)

namespace WritesList

variable {writes : α → Json → Prop} {entries : List α}

theorem read {read : Json → Option α} (h : WritesList writes entries json)
    (reads : ∀ entry json, writes entry json → read json = some entry) :
    list? read json = some entries := by
  cases h with
  | array each => exact mapM_of_forall₂ (each.flip.imp fun item entry => reads entry item)

theorem canonical (h : WritesList writes entries json)
    (closed : ∀ entry ∈ entries, ∀ json, writes entry json → writes entry json.canonical) :
    WritesList writes entries json.canonical := by
  cases h with
  | array each =>
    rw [Json.canonical, canonicalItems_eq]
    refine .array (List.forall₂_map_right_iff.mpr ?_)
    induction each with
    | nil => exact .nil
    | cons hfirst _ ih =>
      obtain ⟨hclosed, hrest⟩ := List.forall_mem_cons.mp closed
      exact .cons (hclosed _ hfirst) (ih hrest)

theorem textual {nesting : Nat} (h : WritesList writes entries json)
    (textual : ∀ entry json, writes entry json → Textual nesting json) :
    Textual (nesting + 1) json := by
  cases h with
  | array each =>
    refine .array fun item hmem => ?_
    induction each with
    | nil => cases hmem
    | cons hfirst _ ih =>
      rcases List.mem_cons.mp hmem with rfl | hrest
      · exact textual _ _ hfirst
      · exact ih hrest

end WritesList

end Json

end Formulary
