import Formulary.Proofs.Loading.Recursion
import Mathlib.Data.List.Basic
import Mathlib.Data.List.Induction

/-!
# What a name resolves to

* `Registry.resolve?` : what a name resolves to, and `Formula.injectWithin_resolved` : a function
  that is new is loaded as that;
* `Assembly` : a registry among stores that are written through it and beside it;
* `addedProviders`, `addedStores`, `writings`, `LastBody` : what a history of changes has added and
  written;
* `Assembly.Follows` : a registry holds what its history says, which every change preserves;
* `Assembly.resolves` : the law of resolution over all histories, and what further changes leave as
  it is.
-/

namespace Formulary

/-! ## Resolution -/

/-- What a name resolves to. -/
inductive Resolution where
  | builtin (builtin : Builtin)
  | body (text : String)

/-- What a name resolves to: a text only where no provider has the name. -/
def Registry.resolve? (registry : Registry) (name : String) : Option Resolution :=
  match registry.builtin? name with
  | some builtin => some (.builtin builtin)
  | none => (registry.body? name).map .body

namespace Registry

variable {registry : Registry} {name : String}

theorem resolve?_eq_builtin {builtin : Builtin} :
    registry.resolve? name = some (.builtin builtin) ↔ registry.builtin? name = some builtin := by
  unfold resolve?
  cases registry.builtin? name with
  | some other => simp
  | none => simp

theorem resolve?_eq_body {text : String} :
    registry.resolve? name = some (.body text) ↔
      registry.builtin? name = none ∧ registry.body? name = some text := by
  unfold resolve?
  cases registry.builtin? name with
  | some other => simp
  | none => simp

theorem resolve?_eq_none :
    registry.resolve? name = none ↔
      registry.builtin? name = none ∧ registry.body? name = none := by
  unfold resolve?
  cases registry.builtin? name with
  | some other => simp
  | none => simp

/-- Registering a text is writing it into the first store, where no other store has its identity. -/
theorem register_eq_write {store : BodyStore} {rest : List BodyStore} (text : String)
    (hstores : registry.stores = store :: rest) (hrest : ∀ other ∈ rest, other.id ≠ store.id) :
    registry.register name text =
      (store.bodies.contains name, registry.write store.id name text) := by
  have hkept : (rest.map fun other =>
      if other.id == store.id then other.write name text else other) = rest := by
    apply List.map_congr_left _ |>.trans (List.map_id rest)
    intro other hother
    rw [if_neg (by simpa using hrest other hother), id]
  simp only [register, write, hstores, List.map_cons, hkept, beq_self_eq_true, if_true]

/-- The text that a store of the registry holds for a name, empty ones included. -/
def held? (registry : Registry) (id : Nat) (name : String) : Option String :=
  (registry.stores.find? fun store => store.id == id).bind fun store => store.bodies.get? name

end Registry

namespace Formula

/-- Loads a function as what its name resolves to. -/
def loadResolved (formula : Formula) (fuel depth : Nat) (name : String) :
    Option Resolution → Work Unit
  | some (.builtin builtin) => loadBuiltin name builtin
  | some (.body text) =>
    loadBody (Work.run (formula.limits fuel)) (formula.injectWithin fuel depth) name text
  | none => missing formula.config.unresolved name

/-- A function that is new is loaded as what its name resolves to. -/
theorem injectWithin_resolved {formula : Formula} {context : Context} {name : String}
    (new : context.ledger.state name = .notLoaded) (fuel depth : Nat) :
    formula.injectWithin fuel (depth + 1) name context =
      formula.loadResolved fuel depth name (formula.registry.resolve? name) context := by
  rw [injectWithin_of_new fuel depth (not_not_intro new), target, Registry.resolve?]
  cases formula.registry.builtin? name with
  | some builtin => rfl
  | none => cases formula.registry.body? name <;> rfl

end Formula

/-! ## Lists without repetitions -/

section Lists

variable {α : Type} (ids : List Nat)

theorem eraseDups_concat (id : Nat) :
    (ids ++ [id]).eraseDups = if id ∈ ids then ids.eraseDups else ids.eraseDups ++ [id] := by
  rw [List.eraseDups_append]
  split
  · next h => simp [List.removeAll, h]
  · next h => simp [List.removeAll, h, List.eraseDups_cons]

/-- Repetitions do not matter for what is found first. -/
theorem findSome?_eraseDups (f : Nat → Option α) : ids.eraseDups.findSome? f = ids.findSome? f := by
  induction ids using List.reverseRecOn with
  | nil => rfl
  | append_singleton ids id ih =>
    rw [eraseDups_concat, List.findSome?_append]
    split
    · next h =>
      rw [ih]
      cases hfound : ids.findSome? f with
      | some a => rfl
      | none =>
        rw [List.findSome?_eq_none_iff] at hfound
        simp [hfound id h]
    · rw [List.findSome?_append, ih]

end Lists

/-! ## Changes -/

/-- A change to a registry or to a store. Providers and stores are named by their identities. -/
inductive Change where
  /-- A provider is added to the registry. -/
  | addProvider (id : Nat)
  /-- A store is added to the registry. -/
  | addStore (id : Nat)
  /-- A text is written into a store, whether or not it is in the registry. -/
  | write (id : Nat) (name text : String)
  /-- A text is registered as a custom function. -/
  | register (name text : String)

/-- A registry, and what each store holds. -/
structure Assembly where
  registry : Registry
  bodies : Nat → Table String

namespace Assembly

/-- Nothing has been added or written. -/
def empty : Assembly :=
  ⟨.empty, fun _ => .empty⟩

/-- What stores hold after a write into one of them. -/
def written (bodies : Nat → Table String) (id : Nat) (name text : String) : Nat → Table String :=
  fun other => if other = id then (bodies other).put name text else bodies other

/-- Makes a change, where `functions` is what each provider serves. -/
def perform (functions : Nat → Table Builtin) (assembly : Assembly) : Change → Assembly
  | .addProvider id =>
    { assembly with registry := assembly.registry.addProvider ⟨id, functions id⟩ }
  | .addStore id =>
    { assembly with registry := assembly.registry.addStore ⟨id, assembly.bodies id⟩ }
  | .write id name text =>
    ⟨assembly.registry.write id name text, written assembly.bodies id name text⟩
  | .register name text =>
    ⟨(assembly.registry.register name text).2,
      match assembly.registry.stores with
      | [] => assembly.bodies
      | primary :: _ => written assembly.bodies primary.id name text⟩

/-- What a history of changes comes to. -/
def after (functions : Nat → Table Builtin) (history : List Change) : Assembly :=
  history.foldl (perform functions) empty

theorem after_concat (functions : Nat → Table Builtin) (history : List Change) (change : Change) :
    after functions (history ++ [change]) = (after functions history).perform functions change := by
  rw [after, List.foldl_append]
  rfl

end Assembly

/-! ## What a history says -/

/-- The providers that a history adds, in order and with repetitions. -/
def addedProviders (history : List Change) : List Nat :=
  history.filterMap fun change => match change with
    | .addProvider id => some id
    | _ => none

/-- The stores that a history adds, in order and with repetitions. -/
def addedStores (history : List Change) : List Nat :=
  history.filterMap fun change => match change with
    | .addStore id => some id
    | _ => none

/-- A text written for a name: the store, the name and the text. -/
abbrev Writing := Nat × String × String

/-- What a change writes, given the store that has been added first. -/
def Change.writing? (primary : Option Nat) : Change → Option Writing
  | .write id name text => some (id, name, text)
  | .register name text => primary.map fun id => (id, name, text)
  | _ => none

/-- The texts that a history writes, in order, given the store that has been added first before
it. A text that is registered goes into that store, and nowhere without one. -/
def writingsFrom (primary : Option Nat) : List Change → List Writing
  | [] => []
  | change :: rest =>
    (change.writing? primary).toList ++
      writingsFrom (primary.or (addedStores [change]).head?) rest

/-- The texts that a history writes, in order. -/
def writings (history : List Change) : List Writing :=
  writingsFrom none history

/-- Whether a text is the last one written for a name into a store. -/
def LastBody (writings : List Writing) (id : Nat) (name text : String) : Prop :=
  ∃ earlier later, writings = earlier ++ (id, name, text) :: later ∧
    ∀ other, (id, name, other) ∉ later

section History

variable (history : List Change)

theorem addedStores_append (history' : List Change) :
    addedStores (history ++ history') = addedStores history ++ addedStores history' :=
  List.filterMap_append

theorem writingsFrom_concat (primary : Option Nat) (change : Change) :
    writingsFrom primary (history ++ [change]) = writingsFrom primary history ++
      (change.writing? (primary.or (addedStores history).head?)).toList := by
  induction history generalizing primary with
  | nil => simp [writingsFrom, addedStores]
  | cons first rest ih =>
    have hstores : (addedStores (first :: rest)).head? =
        (addedStores [first]).head?.or (addedStores rest).head? := by
      rw [← List.singleton_append, addedStores_append, List.head?_append]
    rw [List.cons_append, writingsFrom, writingsFrom, ih, List.append_assoc, hstores, Option.or_assoc]

theorem writings_concat (change : Change) :
    writings (history ++ [change]) =
      writings history ++ (change.writing? (addedStores history).head?).toList :=
  writingsFrom_concat history none change

end History

section LastBody

variable {ws : List Writing} {id id' : Nat} {name name' text text' : String}

theorem not_lastBody_nil : ¬LastBody [] id name text := by
  rintro ⟨earlier, later, h, -⟩
  simp at h

/-- A further text is the last one for its name in its store, and leaves the others. -/
theorem lastBody_concat :
    LastBody (ws ++ [(id', name', text')]) id name text ↔
      if id = id' ∧ name = name' then text = text' else LastBody ws id name text := by
  constructor
  · rintro ⟨earlier, later, heq, hlast⟩
    rcases List.eq_nil_or_concat' later with rfl | ⟨later, w, rfl⟩
    · obtain ⟨rfl, hw⟩ := List.append_inj' heq rfl
      cases hw
      rw [if_pos ⟨rfl, rfl⟩]
    · rw [← List.cons_append, ← List.append_assoc] at heq
      obtain ⟨rfl, hw⟩ := List.append_inj' heq rfl
      cases hw
      rw [if_neg]
      · exact ⟨earlier, later, rfl, fun other hmem => hlast other (List.mem_append_left _ hmem)⟩
      · rintro ⟨rfl, rfl⟩
        exact hlast text' (by simp)
  · intro h
    split at h
    · next hsame =>
      obtain ⟨rfl, rfl⟩ := hsame
      exact ⟨ws, [], by rw [h], by simp⟩
    · next hother =>
      obtain ⟨earlier, later, rfl, hlast⟩ := h
      refine ⟨earlier, later ++ [(id', name', text')], by simp, fun other hmem => ?_⟩
      rcases List.mem_append.mp hmem with hlater | hw
      · exact hlast other hlater
      · simp only [List.mem_singleton, Prod.mk.injEq] at hw
        exact hother ⟨hw.1, hw.2.1⟩

theorem exists_lastBody : (∃ text, LastBody ws id name text) ↔ ∃ text, (id, name, text) ∈ ws := by
  induction ws using List.reverseRecOn with
  | nil => simp [not_lastBody_nil]
  | append_singleton ws w ih =>
    obtain ⟨id', name', text'⟩ := w
    simp only [lastBody_concat, List.mem_append, List.mem_singleton, Prod.mk.injEq]
    split
    · next hsame => simp [hsame]
    · next hother =>
      rw [ih]
      constructor
      · rintro ⟨text, hmem⟩
        exact ⟨text, .inl hmem⟩
      · rintro ⟨text, hmem | ⟨hid, hname, -⟩⟩
        · exact ⟨text, hmem⟩
        · exact absurd ⟨hid, hname⟩ hother

end LastBody

/-! ## A registry follows its history -/

section Following

variable {functions : Nat → Table Builtin} {history : List Change} {assembly : Assembly}

/-- Whether an assembly holds what a history of changes says: the providers and the stores that were
added, each once and in the order of the first additions, and in every store the last texts. -/
structure Assembly.Follows (functions : Nat → Table Builtin) (history : List Change)
    (assembly : Assembly) : Prop where
  providers : assembly.registry.providers =
    (addedProviders history).eraseDups.map fun id => ⟨id, functions id⟩
  stores : assembly.registry.stores =
    (addedStores history).eraseDups.map fun id => ⟨id, assembly.bodies id⟩
  bodies : ∀ id name text,
    (assembly.bodies id).get? name = some text ↔ LastBody (writings history) id name text

namespace Assembly.Follows

theorem empty : Follows functions [] Assembly.empty where
  providers := rfl
  stores := rfl
  bodies id name text := iff_of_false (by simp [Assembly.empty]) not_lastBody_nil

/-- Only what a history adds and writes matters. -/
theorem congr {history' : List Change} (follows : Follows functions history assembly)
    (providers : addedProviders history' = addedProviders history)
    (stores : addedStores history' = addedStores history)
    (same : writings history' = writings history) : Follows functions history' assembly where
  providers := by
    rw [providers]
    exact follows.providers
  stores := by
    rw [stores]
    exact follows.stores
  bodies := by
    rw [same]
    exact follows.bodies

/-- A provider is there already when it has been added before. -/
theorem any_provider (follows : Follows functions history assembly) (id : Nat) :
    (assembly.registry.providers.any fun known => known.id == id) =
      decide (id ∈ addedProviders history) := by
  rw [follows.providers, Bool.eq_iff_iff]
  simp

/-- A store is there already when it has been added before. -/
theorem any_store (follows : Follows functions history assembly) (id : Nat) :
    (assembly.registry.stores.any fun known => known.id == id) =
      decide (id ∈ addedStores history) := by
  rw [follows.stores, Bool.eq_iff_iff]
  simp

/-- The first store is the one that was added first. -/
theorem primary? (follows : Follows functions history assembly) :
    assembly.registry.stores.head?.map BodyStore.id = (addedStores history).head? := by
  rw [follows.stores, List.head?_map, Option.map_map]
  cases addedStores history with
  | nil => rfl
  | cons id rest => rw [List.eraseDups_cons]; rfl

theorem addProvider (follows : Follows functions history assembly) (id : Nat) :
    Follows functions (history ++ [.addProvider id])
      (assembly.perform functions (.addProvider id)) where
  providers := by
    have hadded : addedProviders (history ++ [.addProvider id]) = addedProviders history ++ [id] :=
      List.filterMap_append
    show (Registry.addProvider _ _).providers = _
    rw [Registry.addProvider, follows.any_provider, hadded, eraseDups_concat]
    by_cases hmem : id ∈ addedProviders history
    · simp [hmem, follows.providers]
    · simp [hmem, follows.providers]
  stores := by
    have hadded : addedStores (history ++ [.addProvider id]) = addedStores history := by
      simp [addedStores]
    rw [hadded]
    show (Registry.addProvider _ _).stores = _
    rw [Registry.addProvider]
    split
    · exact follows.stores
    · exact follows.stores
  bodies id name text := by
    rw [writings_concat]
    exact (follows.bodies id name text).trans (by simp [Change.writing?])

theorem addStore (follows : Follows functions history assembly) (id : Nat) :
    Follows functions (history ++ [.addStore id]) (assembly.perform functions (.addStore id)) where
  providers := by
    have hadded : addedProviders (history ++ [.addStore id]) = addedProviders history := by
      simp [addedProviders]
    rw [hadded]
    show (Registry.addStore _ _).providers = _
    rw [Registry.addStore]
    split
    · exact follows.providers
    · exact follows.providers
  stores := by
    have hadded : addedStores (history ++ [.addStore id]) = addedStores history ++ [id] :=
      addedStores_append history _
    show (Registry.addStore _ _).stores = _
    rw [Registry.addStore, follows.any_store, hadded, eraseDups_concat]
    by_cases hmem : id ∈ addedStores history
    · simp [hmem, follows.stores, perform]
    · simp [hmem, follows.stores, perform]
  bodies id name text := by
    rw [writings_concat]
    exact (follows.bodies id name text).trans (by simp [Change.writing?])

theorem write (follows : Follows functions history assembly) (id : Nat) (name text : String) :
    Follows functions (history ++ [.write id name text])
      (assembly.perform functions (.write id name text)) where
  providers := by
    have hadded : addedProviders (history ++ [.write id name text]) = addedProviders history := by
      simp [addedProviders]
    rw [hadded]
    exact follows.providers
  stores := by
    have hadded : addedStores (history ++ [.write id name text]) = addedStores history := by
      simp [addedStores]
    rw [hadded]
    show (Registry.write _ _ _ _).stores = _
    rw [Registry.write, follows.stores, List.map_map]
    apply List.map_congr_left
    intro other _
    by_cases hid : other = id
    · simp [hid, perform, written, BodyStore.write]
    · simp [hid, perform, written]
  bodies other name' text' := by
    rw [writings_concat]
    show (written assembly.bodies id name text other).get? name' = some text' ↔
      LastBody (writings history ++ [(id, name, text)]) other name' text'
    rw [lastBody_concat, written]
    by_cases hid : other = id
    · by_cases hname : name' = name
      · rw [if_pos hid, if_pos ⟨hid, hname⟩, Table.get?_put, if_pos hname, Option.some.injEq, eq_comm]
      · rw [if_pos hid, if_neg (fun h => hname h.2), Table.get?_put, if_neg hname]
        exact follows.bodies other name' text'
    · rw [if_neg hid, if_neg (fun h => hid h.1)]
      exact follows.bodies other name' text'

/-- Once a store has been added, registering a text is writing it into the first one; the answer is
whether that one has a text. -/
theorem register_eq (follows : Follows functions history assembly) {primary : Nat}
    {rest : List Nat} (hstores : addedStores history = primary :: rest) (name text : String) :
    assembly.registry.register name text =
      ((assembly.bodies primary).contains name, assembly.registry.write primary name text) := by
  have hfollows := follows.stores
  rw [hstores, List.eraseDups_cons, List.map_cons] at hfollows
  apply Registry.register_eq_write text hfollows
  intro other hother
  obtain ⟨id, hid, rfl⟩ := List.mem_map.mp hother
  rw [List.mem_eraseDups, List.mem_filter] at hid
  simpa using hid.2

theorem register (follows : Follows functions history assembly) (name text : String) :
    Follows functions (history ++ [.register name text])
      (assembly.perform functions (.register name text)) := by
  cases hadded : addedStores history with
  | nil =>
    have hstores : assembly.registry.stores = [] := by rw [follows.stores, hadded]; rfl
    have hsame : assembly.perform functions (.register name text) = assembly := by
      simp only [perform, Registry.register, hstores]
    rw [hsame]
    apply follows.congr
    · simp [addedProviders]
    · simp [addedStores]
    · rw [writings_concat, hadded]
      exact List.append_nil _
  | cons primary rest =>
    have hwrite : assembly.perform functions (.register name text) =
        assembly.perform functions (.write primary name text) := by
      have hprimary := follows.primary?
      rw [hadded] at hprimary
      cases hstores : assembly.registry.stores with
      | nil => simp [hstores] at hprimary
      | cons store others =>
        have hid : store.id = primary := by simpa [hstores] using hprimary
        simp only [perform, follows.register_eq hadded, hstores, hid]
    rw [hwrite]
    apply (follows.write primary name text).congr
    · simp [addedProviders]
    · simp [addedStores]
    · rw [writings_concat, writings_concat, hadded]
      rfl

theorem perform (follows : Follows functions history assembly) (change : Change) :
    Follows functions (history ++ [change]) (assembly.perform functions change) := by
  cases change with
  | addProvider id => exact follows.addProvider id
  | addStore id => exact follows.addStore id
  | write id name text => exact follows.write id name text
  | register name text => exact follows.register name text

end Assembly.Follows

/-- What a history comes to holds what the history says. -/
theorem Assembly.follows_after (functions : Nat → Table Builtin) (history : List Change) :
    Assembly.Follows functions history (Assembly.after functions history) := by
  induction history using List.reverseRecOn with
  | nil => exact .empty
  | append_singleton history change ih =>
    rw [Assembly.after_concat]
    exact ih.perform change

end Following

/-! ## Resolution from the history -/

/-- Whether the earliest added provider that has a name serves this function for it. -/
def ServedFirst (functions : Nat → Table Builtin) (history : List Change) (name : String)
    (builtin : Builtin) : Prop :=
  ∃ before id later, addedProviders history = before ++ id :: later ∧
    (functions id).get? name = some builtin ∧
    ∀ earlier ∈ before, (functions earlier).get? name = none

/-- Whether this text is the last one for a name in the earliest added store whose last text for it
is not empty. -/
def WrittenFirst (history : List Change) (name text : String) : Prop :=
  ∃ before id later, addedStores history = before ++ id :: later ∧
    LastBody (writings history) id name text ∧ text ≠ "" ∧
    ∀ earlier ∈ before, ∀ other, LastBody (writings history) earlier name other → other = ""

/-- Whether no provider has been added that has a name. -/
def Unserved (functions : Nat → Table Builtin) (history : List Change) (name : String) : Prop :=
  ∀ id ∈ addedProviders history, (functions id).get? name = none

/-- Whether the last texts for a name are empty in all the stores that have been added. -/
def Unwritten (history : List Change) (name : String) : Prop :=
  ∀ id ∈ addedStores history, ∀ text, LastBody (writings history) id name text → text = ""

section Store

variable {store : BodyStore} {name : String}

theorem BodyStore.body?_eq_some {text : String} :
    store.body? name = some text ↔ store.bodies.get? name = some text ∧ text ≠ "" := by
  rw [body?, Option.filter_eq_some_iff, Bool.not_eq_true', String.isEmpty_eq_false_iff]

theorem BodyStore.body?_eq_none :
    store.body? name = none ↔ ∀ text, store.bodies.get? name = some text → text = "" := by
  rw [body?, Option.filter_eq_none_iff]
  simp

end Store

namespace Assembly.Follows

variable {functions : Nat → Table Builtin} {history : List Change} {assembly : Assembly}
  {name : String}

theorem builtin?_eq (follows : Follows functions history assembly) :
    assembly.registry.builtin? name =
      (addedProviders history).findSome? fun id => (functions id).get? name := by
  rw [Registry.builtin?, follows.providers, List.findSome?_map, findSome?_eraseDups]
  rfl

theorem body?_eq (follows : Follows functions history assembly) :
    assembly.registry.body? name =
      (addedStores history).findSome? fun id =>
        (⟨id, assembly.bodies id⟩ : BodyStore).body? name := by
  rw [Registry.body?, follows.stores, List.findSome?_map, findSome?_eraseDups]
  rfl

theorem builtin?_eq_some (follows : Follows functions history assembly) {builtin : Builtin} :
    assembly.registry.builtin? name = some builtin ↔
      ServedFirst functions history name builtin := by
  rw [follows.builtin?_eq, List.findSome?_eq_some_iff]
  rfl

theorem builtin?_eq_none (follows : Follows functions history assembly) :
    assembly.registry.builtin? name = none ↔ Unserved functions history name := by
  rw [follows.builtin?_eq, List.findSome?_eq_none_iff]
  rfl

theorem body?_eq_some (follows : Follows functions history assembly) {text : String} :
    assembly.registry.body? name = some text ↔ WrittenFirst history name text := by
  rw [follows.body?_eq, List.findSome?_eq_some_iff]
  simp only [BodyStore.body?_eq_some, BodyStore.body?_eq_none, follows.bodies, and_assoc]
  rfl

theorem body?_eq_none (follows : Follows functions history assembly) :
    assembly.registry.body? name = none ↔ Unwritten history name := by
  rw [follows.body?_eq, List.findSome?_eq_none_iff]
  simp only [BodyStore.body?_eq_none, follows.bodies]
  rfl

theorem held?_eq (follows : Follows functions history assembly) {id : Nat} :
    assembly.registry.held? id name =
      if id ∈ addedStores history then (assembly.bodies id).get? name else none := by
  rw [Registry.held?, follows.stores, List.find?_map]
  show ((List.find? (fun known => known == id) _).map _).bind _ = _
  cases hfound : (addedStores history).eraseDups.find? fun known => known == id with
  | some known =>
    have hmem := List.mem_eraseDups.mp (List.mem_of_find?_eq_some hfound)
    obtain rfl : known = id := by simpa using List.find?_some hfound
    rw [if_pos hmem]
    rfl
  | none =>
    have hmem : id ∉ addedStores history := fun h =>
      List.find?_eq_none.mp hfound id (List.mem_eraseDups.mpr h) (beq_self_eq_true id)
    rw [if_neg hmem]
    rfl

end Assembly.Follows

section Growth

variable {functions : Nat → Table Builtin} {history : List Change} {name : String}

/-- A provider that is added later serves no name first that is served already. -/
theorem ServedFirst.concat {builtin : Builtin} (served : ServedFirst functions history name builtin)
    (change : Change) : ServedFirst functions (history ++ [change]) name builtin := by
  obtain ⟨before, id, later, hsplit, hserved⟩ := served
  refine ⟨before, id, later ++ addedProviders [change], ?_, hserved⟩
  rw [addedProviders, List.filterMap_append, ← addedProviders, ← addedProviders, hsplit,
    List.append_assoc, List.cons_append]

/-- A store that is added later has no name first that an earlier one has. -/
theorem WrittenFirst.concat_addStore {text : String} (written : WrittenFirst history name text)
    (id : Nat) : WrittenFirst (history ++ [.addStore id]) name text := by
  obtain ⟨before, first, later, hsplit, hwritten⟩ := written
  have hwritings : writings (history ++ [.addStore id]) = writings history :=
    (writings_concat history _).trans (List.append_nil _)
  refine ⟨before, first, later ++ [id], ?_, by rwa [hwritings]⟩
  rw [addedStores_append, hsplit, List.append_assoc, List.cons_append]
  rfl

/-- No provider is added with a store. -/
theorem Unserved.concat_addStore (unserved : Unserved functions history name) (id : Nat) :
    Unserved functions (history ++ [.addStore id]) name := by
  simpa [Unserved, addedProviders] using unserved

end Growth

namespace Assembly

variable (functions : Nat → Table Builtin) (history : List Change) (name : String)

/-- A name resolves to the earliest provider's function, else to the earliest store's last text that
is not empty, else to nothing. -/
theorem resolve?_after :
    (∀ builtin, (after functions history).registry.resolve? name = some (.builtin builtin) ↔
      ServedFirst functions history name builtin) ∧
    (∀ text, (after functions history).registry.resolve? name = some (.body text) ↔
      Unserved functions history name ∧ WrittenFirst history name text) ∧
    ((after functions history).registry.resolve? name = none ↔
      Unserved functions history name ∧ Unwritten history name) := by
  have follows := follows_after functions history
  refine ⟨fun builtin => ?_, fun text => ?_, ?_⟩
  · rw [Registry.resolve?_eq_builtin, follows.builtin?_eq_some]
  · rw [Registry.resolve?_eq_body, follows.builtin?_eq_none, follows.body?_eq_some]
  · rw [Registry.resolve?_eq_none, follows.builtin?_eq_none, follows.body?_eq_none]

/-- Adding what has been added before changes nothing. -/
theorem after_added (id : Nat) :
    (id ∈ addedProviders history →
      after functions (history ++ [.addProvider id]) = after functions history) ∧
    (id ∈ addedStores history →
      after functions (history ++ [.addStore id]) = after functions history) := by
  have follows := follows_after functions history
  rw [after_concat, after_concat]
  constructor
  · intro hadded
    have hany := follows.any_provider id
    rw [decide_eq_true hadded] at hany
    simp only [perform, Registry.addProvider, hany, if_true]
  · intro hadded
    have hany := follows.any_store id
    rw [decide_eq_true hadded] at hany
    simp only [perform, Registry.addStore, hany, if_true]

/-- A name that resolves keeps its resolution when a chain that ranks no higher grows. -/
theorem resolve?_kept (id : Nat) :
    (∀ builtin, (after functions history).registry.resolve? name = some (.builtin builtin) →
      (after functions (history ++ [.addProvider id])).registry.resolve? name =
        some (.builtin builtin)) ∧
    (∀ found, (after functions history).registry.resolve? name = some found →
      (after functions (history ++ [.addStore id])).registry.resolve? name = some found) := by
  obtain ⟨hbuiltin, hbody, -⟩ := resolve?_after functions history name
  constructor
  · intro builtin hfound
    rw [(resolve?_after functions _ name).1]
    exact ((hbuiltin builtin).mp hfound).concat _
  · intro found hfound
    cases found with
    | builtin builtin =>
      rw [(resolve?_after functions _ name).1]
      exact ((hbuiltin builtin).mp hfound).concat _
    | body text =>
      rw [(resolve?_after functions _ name).2.1]
      obtain ⟨unserved, written⟩ := (hbody text).mp hfound
      exact ⟨unserved.concat_addStore id, written.concat_addStore id⟩

/-- Without a store a text that is registered goes nowhere. -/
theorem register_of_no_store (text : String) (hnone : addedStores history = []) :
    (after functions history).registry.register name text =
      (false, (after functions history).registry) := by
  have hstores : (after functions history).registry.stores = [] := by
    rw [(follows_after functions history).stores, hnone]
    rfl
  rw [Registry.register, hstores]

/-- A text that is registered goes into the store added first; the answer is whether that one has
been written for the name, and all else is kept. -/
theorem register_of_primary (text : String) {primary : Nat} {rest : List Nat}
    (hstores : addedStores history = primary :: rest) :
    (((after functions history).registry.register name text).1 = true ↔
      ∃ earlier, (primary, name, earlier) ∈ writings history) ∧
    ((after functions history).registry.register name text).2.providers =
      (after functions history).registry.providers ∧
    ((after functions history).registry.register name text).2.stores.map BodyStore.id =
      (after functions history).registry.stores.map BodyStore.id ∧
    ∀ id other, ((after functions history).registry.register name text).2.held? id other =
      if id = primary ∧ other = name then some text
      else (after functions history).registry.held? id other := by
  have follows := follows_after functions history
  -- the registry after the change is the one of the longer history
  have follows' := follows.write primary name text
  rw [follows.register_eq hstores]
  have hadded : addedStores (history ++ [.write primary name text]) = addedStores history :=
    (addedStores_append history _).trans (List.append_nil _)
  refine ⟨?_, rfl, ?_, fun id other => ?_⟩
  · simp only [Table.contains, Option.isSome_iff_exists, follows.bodies, exists_lastBody]
  · refine (congrArg (List.map BodyStore.id) follows'.stores).trans ?_
    rw [hadded, follows.stores, List.map_map, List.map_map]
    rfl
  · refine follows'.held?_eq.trans ?_
    rw [hadded, follows.held?_eq]
    show (if id ∈ addedStores history then
      (written (after functions history).bodies primary name text id).get? other else none) = _
    rw [written]
    by_cases hid : id = primary
    · have hmem : id ∈ addedStores history := by simp [hstores, hid]
      rw [if_pos hmem, if_pos hmem, if_pos hid, Table.get?_put]
      simp only [hid, true_and]
    · have hother : ¬(id = primary ∧ other = name) := fun h => hid h.1
      rw [if_neg hid, if_neg hother]

/-- The law of resolution. After every history of changes a new function is loaded as what its name
resolves to: the function of the earliest added provider that has the name, else the last text for
it in the earliest added store where that is not empty, else nothing. Adding what is there changes
nothing, and what is added to a chain that ranks no higher leaves a resolved name alone. A text that
is registered changes its name in the store added first and nothing else; the answer is whether that
store has been written for the name. -/
theorem resolves :
    (∀ formula : Formula, formula.registry = (after functions history).registry →
      ∀ context, context.ledger.state name = .notLoaded → ∀ fuel depth,
        formula.injectWithin fuel (depth + 1) name context =
          formula.loadResolved fuel depth name
            ((after functions history).registry.resolve? name) context) ∧
    ((∀ builtin, (after functions history).registry.resolve? name = some (.builtin builtin) ↔
        ServedFirst functions history name builtin) ∧
      (∀ text, (after functions history).registry.resolve? name = some (.body text) ↔
        Unserved functions history name ∧ WrittenFirst history name text) ∧
      ((after functions history).registry.resolve? name = none ↔
        Unserved functions history name ∧ Unwritten history name)) ∧
    (∀ id,
      (id ∈ addedProviders history →
        after functions (history ++ [.addProvider id]) = after functions history) ∧
      (id ∈ addedStores history →
        after functions (history ++ [.addStore id]) = after functions history)) ∧
    (∀ id,
      (∀ builtin, (after functions history).registry.resolve? name = some (.builtin builtin) →
        (after functions (history ++ [.addProvider id])).registry.resolve? name =
          some (.builtin builtin)) ∧
      (∀ found, (after functions history).registry.resolve? name = some found →
        (after functions (history ++ [.addStore id])).registry.resolve? name = some found)) ∧
    (∀ text, addedStores history = [] →
      (after functions history).registry.register name text =
        (false, (after functions history).registry)) ∧
    (∀ text primary rest, addedStores history = primary :: rest →
      (((after functions history).registry.register name text).1 = true ↔
        ∃ earlier, (primary, name, earlier) ∈ writings history) ∧
      ((after functions history).registry.register name text).2.providers =
        (after functions history).registry.providers ∧
      ((after functions history).registry.register name text).2.stores.map BodyStore.id =
        (after functions history).registry.stores.map BodyStore.id ∧
      ∀ id other, ((after functions history).registry.register name text).2.held? id other =
        if id = primary ∧ other = name then some text
        else (after functions history).registry.held? id other) := by
  refine ⟨fun formula hregistry context new fuel depth => ?_,
    resolve?_after functions history name, after_added functions history,
    resolve?_kept functions history name, register_of_no_store functions history name,
    fun text primary rest => register_of_primary functions history name text⟩
  rw [← hregistry]
  exact Formula.injectWithin_resolved new fuel depth

/-- An empty text of the first store lets the second one through, and counts as written. -/
theorem resolves_past_empty :
    (after (fun _ => .empty)
      [.addStore 1, .register "$F" "", .addStore 2, .write 2 "$F" "1"]).registry.resolve? "$F" =
        some (.body "1") ∧
    ((after (fun _ => .empty)
      [.addStore 1, .register "$F" "", .addStore 2, .write 2 "$F" "1"]).registry.register
        "$F" "2").1 = true := by
  obtain ⟨-, ⟨-, hbody, -⟩, -, -, -, hregister⟩ := resolves (fun _ => .empty)
    [.addStore 1, .register "$F" "", .addStore 2, .write 2 "$F" "1"] "$F"
  constructor
  · refine (hbody "1").mpr ⟨fun id hid => ?_, [1], 2, [], rfl, ?_, by decide, ?_⟩
    · simp [addedProviders] at hid
    · exact ⟨[(1, "$F", "")], [], rfl, by simp⟩
    · rintro earlier hearlier other ⟨before, later, hsplit, -⟩
      rw [List.mem_singleton] at hearlier
      have hmem : (earlier, "$F", other) ∈ [(1, "$F", ""), (2, "$F", "1")] :=
        (show _ = [(1, "$F", ""), (2, "$F", "1")] from hsplit.symm) ▸ by simp
      simpa [hearlier] using hmem
  · exact (hregister "2" 1 [2] rfl).1.mpr ⟨"", List.mem_cons_self⟩

end Assembly

end Formulary
