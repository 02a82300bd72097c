import Formulary.Json.Basic
import Mathlib.Data.List.Induction
import Mathlib.Data.String.Basic

/-!
# Members in order

* `InOrder` : members with keys that increase from one to the next;
* `inOrder_sortMembers`, `lookup_sortMembers` : members are sorted, and of equal keys the last is
  kept;
* `InOrder.eq_of_lookup` : that leaves one way to sort them;
* `Json.InOrder`, `Json.inOrder_canonical` : JSON values with members in order throughout.
-/

namespace Formulary

variable {α : Type} {key other : String} {value : α} {members members' : List (String × α)}

/-- Whether the keys of members increase from one to the next. -/
def InOrder (members : List (String × α)) : Prop :=
  members.Pairwise fun earlier later => earlier.1 < later.1

/-! ## One member -/

theorem lookup_insertMember (key other : String) (value : α) (members : List (String × α)) :
    (insertMember key value members).lookup other =
      if other = key then some value else members.lookup other := by
  induction members with
  | nil =>
    by_cases h : other = key
    · simp [insertMember, h]
    · have hb : (other == key) = false := by simpa using h
      simp [insertMember, List.lookup_cons, hb, h]
  | cons member members ih =>
    obtain ⟨k, v⟩ := member
    unfold insertMember
    by_cases h : other = key
    · subst h
      rw [if_pos rfl] at ih ⊢
      split
      · simp
      · split
        · simp
        · next hne =>
          have hb : (other == k) = false := by simpa using hne
          rw [List.lookup_cons, hb]
          exact ih
    · have hb : (other == key) = false := by simpa using h
      rw [if_neg h] at ih ⊢
      split
      · rw [List.lookup_cons, hb]
      · split
        · next heq =>
          subst heq
          rw [List.lookup_cons, List.lookup_cons, hb]
        · rw [List.lookup_cons, List.lookup_cons, ih]

theorem mem_insertMember {member : String × α} (h : member ∈ insertMember key value members) :
    member = (key, value) ∨ member ∈ members := by
  induction members with
  | nil => exact .inl (List.mem_singleton.mp h)
  | cons first members ih =>
    obtain ⟨k, v⟩ := first
    unfold insertMember at h
    split at h
    · exact List.mem_cons.mp h
    · split at h
      · exact (List.mem_cons.mp h).imp_right (List.mem_cons_of_mem _)
      · rcases List.mem_cons.mp h with heq | hrest
        · exact .inr (List.mem_cons.mpr (.inl heq))
        · exact (ih hrest).imp_right (List.mem_cons_of_mem _)

theorem InOrder.insertMember (h : InOrder members) (key : String) (value : α) :
    InOrder (insertMember key value members) := by
  induction members with
  | nil => exact List.pairwise_singleton _ _
  | cons first members ih =>
    obtain ⟨k, v⟩ := first
    obtain ⟨hfirst, hrest⟩ := List.pairwise_cons.mp h
    unfold Formulary.insertMember
    split
    · next hlt =>
      refine List.pairwise_cons.mpr ⟨fun member hmem => ?_, h⟩
      rcases List.mem_cons.mp hmem with rfl | hmem
      · exact hlt
      · exact hlt.trans (hfirst member hmem)
    · split
      · next heq =>
        subst heq
        exact List.pairwise_cons.mpr ⟨hfirst, hrest⟩
      · next hnlt hne =>
        refine List.pairwise_cons.mpr ⟨fun member hmem => ?_, ih hrest⟩
        rcases mem_insertMember hmem with rfl | hmem
        · exact lt_of_le_of_ne (not_lt.mp hnlt) (Ne.symm hne)
        · exact hfirst member hmem

/-- A key beyond all others is put at the end. -/
theorem insertMember_of_lt (h : ∀ member ∈ members, member.1 < key) :
    insertMember key value members = members ++ [(key, value)] := by
  induction members with
  | nil => rfl
  | cons first members ih =>
    obtain ⟨k, v⟩ := first
    obtain ⟨hfirst, hrest⟩ := List.forall_mem_cons.mp h
    rw [insertMember, if_neg hfirst.not_gt, if_neg hfirst.ne', ih hrest, List.cons_append]

/-! ## All members -/

theorem sortMembers_concat (members : List (String × α)) (member : String × α) :
    sortMembers (members ++ [member]) = insertMember member.1 member.2 (sortMembers members) := by
  rw [sortMembers, List.foldl_append]
  rfl

theorem inOrder_sortMembers (members : List (String × α)) : InOrder (sortMembers members) := by
  induction members using List.reverseRecOn with
  | nil => exact List.Pairwise.nil
  | append_singleton members member ih =>
    rw [sortMembers_concat]
    exact ih.insertMember _ _

/-- Of members with the same key the last counts. -/
theorem lookup_sortMembers (members : List (String × α)) (key : String) :
    (sortMembers members).lookup key = members.reverse.lookup key := by
  induction members using List.reverseRecOn with
  | nil => rfl
  | append_singleton members member ih =>
    obtain ⟨k, v⟩ := member
    rw [sortMembers_concat, lookup_insertMember, List.reverse_concat, List.lookup_cons, ih]
    by_cases h : key = k
    · simp [h]
    · have hb : (key == k) = false := by simpa using h
      simp [h, hb]

theorem mem_sortMembers {member : String × α} (h : member ∈ sortMembers members) :
    member ∈ members := by
  induction members using List.reverseRecOn with
  | nil => exact h
  | append_singleton members last ih =>
    rw [sortMembers_concat] at h
    rw [List.mem_append, List.mem_singleton]
    rcases mem_insertMember h with rfl | hmem
    · exact .inr rfl
    · exact .inl (ih hmem)

/-- Members in order stay as they are. -/
theorem InOrder.sortMembers_eq (h : InOrder members) : sortMembers members = members := by
  induction members using List.reverseRecOn with
  | nil => rfl
  | append_singleton members last ih =>
    obtain ⟨hmembers, -, hlast⟩ := List.pairwise_append.mp h
    rw [sortMembers_concat, ih hmembers, insertMember_of_lt]
    intro member hmem
    exact hlast member hmem last List.mem_cons_self

theorem lookup_eq_none_of_lt (h : ∀ member ∈ members, key < member.1) :
    members.lookup key = none := by
  rw [List.lookup_eq_none_iff]
  intro member hmem
  simpa using (h member hmem).ne

/-- A key before all others leads to something only where it is the first one. -/
theorem lookup_head_ne (h : ∀ member ∈ members', key < member.1) :
    ((key, value) :: members).lookup key ≠ members'.lookup key := by
  rw [lookup_eq_none_of_lt h]
  simp

/-- **Members in order are given by what their keys lead to.** -/
theorem InOrder.eq_of_lookup (h : InOrder members) (h' : InOrder members')
    (heq : ∀ key, members.lookup key = members'.lookup key) : members = members' := by
  induction members generalizing members' with
  | nil =>
    cases members' with
    | nil => rfl
    | cons first members' => exact absurd (heq first.1).symm (lookup_head_ne (by simp))
  | cons first members ih =>
    cases members' with
    | nil => exact absurd (heq first.1) (lookup_head_ne (by simp))
    | cons first' members' =>
      obtain ⟨k, v⟩ := first
      obtain ⟨k', v'⟩ := first'
      obtain ⟨hfirst, hrest⟩ := List.pairwise_cons.mp h
      obtain ⟨hfirst', hrest'⟩ := List.pairwise_cons.mp h'
      -- The smaller of two first keys would have a member on one side only.
      have hkey : k = k' := by
        rcases lt_trichotomy k k' with hlt | hkey | hlt
        · exact absurd (heq k) (lookup_head_ne (List.forall_mem_cons.mpr
            ⟨hlt, fun member hmem => hlt.trans (hfirst' member hmem)⟩))
        · exact hkey
        · exact absurd (heq k').symm (lookup_head_ne (List.forall_mem_cons.mpr
            ⟨hlt, fun member hmem => hlt.trans (hfirst member hmem)⟩))
      subst hkey
      have hvalue := heq k
      simp only [List.lookup_cons, beq_self_eq_true, Option.some.injEq] at hvalue
      subst hvalue
      congr 1
      refine ih hrest hrest' fun key => ?_
      by_cases hk : key = k
      · rw [hk, lookup_eq_none_of_lt hfirst, lookup_eq_none_of_lt hfirst']
      · have hb : (key == k) = false := by simpa using hk
        have htail := heq key
        rwa [List.lookup_cons, List.lookup_cons, hb] at htail

/-- **Sorting is what brings members in order and keeps the last of equal keys.** -/
theorem sortMembers_eq_iff : sortMembers members = members' ↔
    InOrder members' ∧ ∀ key, members'.lookup key = members.reverse.lookup key := by
  constructor
  · rintro rfl
    exact ⟨inOrder_sortMembers _, lookup_sortMembers _⟩
  · rintro ⟨horder, hlookup⟩
    refine (inOrder_sortMembers _).eq_of_lookup horder fun key => ?_
    rw [lookup_sortMembers, hlookup]

/-! ## JSON values -/

namespace Json

/-- Whether the members of every object in a JSON value are in order. -/
inductive InOrder : Json → Prop
  | null : InOrder .null
  | boolean (b : Bool) : InOrder (.boolean b)
  | number (n : JsonNumber) : InOrder (.number n)
  | string (s : String) : InOrder (.string s)
  | array {items : List Json} (inside : ∀ item ∈ items, InOrder item) : InOrder (.array items)
  | object {members : List (String × Json)} (keys : Formulary.InOrder members)
    (inside : ∀ member ∈ members, InOrder member.2) : InOrder (.object members)

mutual

/-- **Canonical values have their members in order.** -/
theorem inOrder_canonical (json : Json) : json.canonical.InOrder := by
  cases json with
  | null => exact .null
  | boolean b => exact .boolean b
  | number n => exact .number n
  | string s => exact .string s
  | array items => exact .array (inOrder_canonicalItems items)
  | object members =>
    exact .object (inOrder_sortMembers _) fun member hmem =>
      inOrder_canonicalMembers members member (mem_sortMembers hmem)

theorem inOrder_canonicalItems (items : List Json) :
    ∀ item ∈ canonicalItems items, item.InOrder := by
  cases items with
  | nil => exact fun _ h => nomatch h
  | cons item items =>
    exact List.forall_mem_cons.mpr ⟨inOrder_canonical item, inOrder_canonicalItems items⟩

theorem inOrder_canonicalMembers (members : List (String × Json)) :
    ∀ member ∈ canonicalMembers members, member.2.InOrder := by
  cases members with
  | nil => exact fun _ h => nomatch h
  | cons member members =>
    exact List.forall_mem_cons.mpr
      ⟨inOrder_canonical member.2, inOrder_canonicalMembers members⟩

end

end Json

end Formulary
