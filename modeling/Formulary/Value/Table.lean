/-!
# Tables

* `Table` : values under names, in the order in which the names were first put;
* `get?`, `contains`, `put` : reading and writing; writing an old name keeps its place.
-/

namespace Formulary

/-- Values under names, in the order in which the names were first put. -/
structure Table (α : Type) where
  entries : List (String × α)

namespace Table

variable {α : Type}

/-- The table without entries. -/
def empty : Table α := ⟨[]⟩

instance : Inhabited (Table α) := ⟨empty⟩

/-- The value under a name. -/
def get? (table : Table α) (name : String) : Option α :=
  table.entries.lookup name

/-- Whether there is a value under a name. -/
def contains (table : Table α) (name : String) : Bool :=
  (table.get? name).isSome

/-- Entries with the value under a name replaced, or added at the end. -/
def putEntry (name : String) (value : α) : List (String × α) → List (String × α)
  | [] => [(name, value)]
  | (n, v) :: rest => if n = name then (n, value) :: rest else (n, v) :: putEntry name value rest

/-- Puts a value under a name. -/
def put (table : Table α) (name : String) (value : α) : Table α :=
  ⟨putEntry name value table.entries⟩

/-- The table of a list of entries; a later one overwrites an earlier one of the same name. -/
def ofList (entries : List (String × α)) : Table α :=
  entries.foldl (fun table entry => table.put entry.1 entry.2) empty

/-- The names in order. -/
def names (table : Table α) : List String :=
  table.entries.map Prod.fst

@[simp] theorem get?_empty (name : String) : (empty : Table α).get? name = none := rfl

theorem lookup_putEntry (name other : String) (value : α) (entries : List (String × α)) :
    (putEntry name value entries).lookup other
      = if other = name then some value else entries.lookup other := by
  induction entries with
  | nil =>
    by_cases h : other = name
    · simp [putEntry, h]
    · have hb : (other == name) = false := by simpa using h
      simp [putEntry, List.lookup_cons, hb, h]
  | cons entry rest ih =>
    obtain ⟨n, v⟩ := entry
    by_cases hn : n = name
    · by_cases ho : other = name
      · simp [putEntry, hn, ho]
      · have hb : (other == name) = false := by simpa using ho
        simp [putEntry, hn, ho, List.lookup_cons, hb]
    · by_cases ho : other = n
      · have hne : ¬other = name := fun h => hn (ho ▸ h)
        simp [putEntry, ho, hn]
      · have hb : (other == n) = false := by simpa using ho
        simp [putEntry, hn, List.lookup_cons, hb, ih]

/-- After a write the name has the new value and every other name what it had. -/
theorem get?_put (table : Table α) (name other : String) (value : α) :
    (table.put name value).get? other = if other = name then some value else table.get? other :=
  lookup_putEntry name other value table.entries

theorem mem_of_get? {table : Table α} {name : String} {value : α}
    (h : table.get? name = some value) : (name, value) ∈ table.entries := by
  obtain ⟨before, after, heq, -⟩ := List.lookup_eq_some_iff.mp h
  rw [heq]
  exact List.mem_append_right before List.mem_cons_self

/-- A write puts in nothing but what is written. -/
theorem mem_put {table : Table α} {name : String} {value : α} {entry : String × α}
    (h : entry ∈ (table.put name value).entries) :
    entry = (name, value) ∨ entry ∈ table.entries := by
  obtain ⟨entries⟩ := table
  change entry ∈ putEntry name value entries at h
  show _ ∨ entry ∈ entries
  induction entries with
  | nil => exact .inl (List.mem_singleton.mp h)
  | cons first rest ih =>
    obtain ⟨n, v⟩ := first
    unfold putEntry at h
    split at h
    · next hn =>
      rcases List.mem_cons.mp h with heq | hrest
      · exact .inl (heq.trans (by rw [hn]))
      · exact .inr (List.mem_cons_of_mem _ hrest)
    · rcases List.mem_cons.mp h with heq | hrest
      · exact .inr (List.mem_cons.mpr (.inl heq))
      · exact (ih hrest).imp_right (List.mem_cons_of_mem _)

/-- A write adds one entry at most. -/
theorem length_put_le (table : Table α) (name : String) (value : α) :
    (table.put name value).entries.length ≤ table.entries.length + 1 := by
  obtain ⟨entries⟩ := table
  show (putEntry name value entries).length ≤ entries.length + 1
  induction entries with
  | nil => exact Nat.le_refl _
  | cons first rest ih =>
    obtain ⟨n, v⟩ := first
    unfold putEntry
    split
    · exact Nat.le_succ _
    · rw [List.length_cons, List.length_cons]
      omega

end Table

end Formulary
