import Formulary.Proofs.Json.Members
import Formulary.Proofs.Number.Whole
import Formulary.Value.Exchange
import Mathlib.Data.List.Forall2

/-!
# The exported form of a value

* `Value.NumberForm` : a number in JSON;
* `Store.StandsIn` : what stands in a value, each time it does, and the containers around it;
* `Store.Exportable` : values without functions, without a container inside itself and without one
  inside 128 others;
* `Value.Unfolds` : a JSON value that is a value written out, shared containers each time anew;
* `Value.toJson_iff` : a value is exported when it is exportable, and as what it unfolds to.
-/

namespace Formulary

/-! ## Numbers -/

namespace Value

/-- How a number stands in JSON: as an integer where it equals one below `2 ^ 53` in magnitude, as
null where it is not finite. -/
inductive NumberForm (x : Float) : Json → Prop
  | null (notFinite : x.isFinite = false) : NumberForm x .null
  | integer {n : Int} (small : n.natAbs < 2 ^ 53) (equal : (Number.ofInt n == x) = true) :
    NumberForm x (.number (.integer n))
  | real (finite : x.isFinite = true)
    (equal : ∀ n : Int, n.natAbs < 2 ^ 53 → (Number.ofInt n == x) = false) :
    NumberForm x (.number (.real x))

theorem numberToJson_eq_iff {x : Float} {json : Json} :
    numberToJson x = json ↔ NumberForm x json := by
  constructor
  · rintro rfl
    unfold numberToJson
    split
    · next h => exact .null (by simpa using h)
    · next hfinite =>
      have hfinite : x.isFinite = true := by simpa using hfinite
      split
      · next h =>
        obtain ⟨hwhole, hsmall⟩ := Bool.and_eq_true_iff.mp h
        have hsmall : (Number.truncate x).natAbs < 2 ^ 53 := of_decide_eq_true hsmall
        exact .integer hsmall ((Number.beq_ofInt_iff hsmall).mpr ⟨hwhole, rfl⟩)
      · next h =>
        refine .real hfinite fun n hn => ?_
        rw [Bool.eq_false_iff]
        intro heq
        obtain ⟨hwhole, rfl⟩ := (Number.beq_ofInt_iff hn).mp heq
        exact h (Bool.and_eq_true_iff.mpr ⟨hwhole, decide_eq_true hn⟩)
  · rintro (h | ⟨hsmall, hequal⟩ | ⟨hfinite, hother⟩)
    · simp [numberToJson, h]
    · obtain ⟨hwhole, rfl⟩ := (Number.beq_ofInt_iff hsmall).mp hequal
      have hfinite : x.isFinite = true := (Bool.and_eq_true_iff.mp hwhole).1
      have hsmall : (Number.truncate x).natAbs < wholeLimit := hsmall
      simp [numberToJson, hfinite, hwhole, hsmall]
    · have hnot : ¬ ((Number.isWhole x && (Number.truncate x).natAbs < wholeLimit) = true) := by
        intro h
        obtain ⟨hwhole, hsmall⟩ := Bool.and_eq_true_iff.mp h
        have hsmall : (Number.truncate x).natAbs < 2 ^ 53 := of_decide_eq_true hsmall
        have hbeq := (Number.beq_ofInt_iff hsmall).mpr ⟨hwhole, rfl⟩
        rw [hother _ hsmall] at hbeq
        cases hbeq
      unfold numberToJson
      rw [if_neg (by simp [hfinite]), if_neg hnot]

end Value

/-! ## Positions -/

namespace Store

/-- What a container holds, in order. -/
def contents (store : Store) : Container → List Value
  | .array ref => (store.elements ref).toList
  | .object ref => (store.properties ref).entries.map Prod.snd

/-- What stands in a value, inside the containers of a path, the outermost first. A container that
is shared, or that lies inside itself, stands in more than one place. -/
inductive StandsIn (store : Store) : Value → List Container → Value → Prop
  | self (value : Value) : StandsIn store value [] value
  | inside {value item inner : Value} {container : Container} {path : List Container}
    (outer : value.container? = some container) (held : item ∈ store.contents container)
    (deeper : StandsIn store item path inner) :
    StandsIn store value (container :: path) inner

/-- Whether a value has an exported form: no function stands in it, no container inside itself, and
none inside 128 others. -/
structure Exportable (store : Store) (value : Value) : Prop where
  noFunction : ∀ {path ref}, ¬ store.StandsIn value path (.function ref)
  acyclic : ∀ {path inner container}, store.StandsIn value path inner →
    inner.container? = some container → container ∉ path
  shallow : ∀ {path inner container}, store.StandsIn value path inner →
    inner.container? = some container → path.length < 128

/-- Whether what stands in a value can be exported inside the containers `around` it. -/
structure Admitted (around path : List Container) (inner : Value) : Prop where
  noFunction : ∀ {ref}, inner ≠ .function ref
  acyclic : ∀ {container}, inner.container? = some container → container ∉ around ++ path
  shallow : ∀ {container}, inner.container? = some container → around.length + path.length < 128

/-- Whether a value can be exported inside the containers `around` it. -/
def ExportableIn (store : Store) (around : List Container) (value : Value) : Prop :=
  ∀ path inner, store.StandsIn value path inner → Admitted around path inner

variable {store : Store} {around path : List Container} {value inner : Value}
  {container : Container}

theorem exportable_iff : store.Exportable value ↔ store.ExportableIn [] value := by
  constructor
  · intro h path inner standsIn
    refine ⟨fun heq => h.noFunction (heq ▸ standsIn), ?_, fun hcontainer => ?_⟩
    · exact fun hcontainer => h.acyclic standsIn hcontainer
    · simpa using h.shallow standsIn hcontainer
  · intro h
    refine ⟨fun standsIn => (h _ _ standsIn).noFunction rfl, ?_, fun standsIn hcontainer => ?_⟩
    · exact fun standsIn hcontainer => (h _ _ standsIn).acyclic hcontainer
    · simpa using (h _ _ standsIn).shallow hcontainer

/-- A container counts alike on the path and around it. -/
theorem admitted_cons :
    Admitted around (container :: path) inner ↔ Admitted (container :: around) path inner := by
  have hmem : ∀ c, c ∈ around ++ container :: path ↔ c ∈ container :: around ++ path := by
    intro c
    simp only [List.mem_append, List.mem_cons]
    tauto
  have hlength : around.length + (container :: path).length =
      (container :: around).length + path.length := by
    rw [List.length_cons, List.length_cons]
    omega
  constructor
  · intro h
    refine ⟨h.noFunction, fun hc => ?_, fun hc => ?_⟩
    · rw [← hmem]
      exact h.acyclic hc
    · rw [← hlength]
      exact h.shallow hc
  · intro h
    refine ⟨h.noFunction, fun hc => ?_, fun hc => ?_⟩
    · rw [hmem]
      exact h.acyclic hc
    · rw [hlength]
      exact h.shallow hc

theorem container?_of_isPrimitive (h : value.isPrimitive = true) : value.container? = none := by
  cases value with
  | array => cases h
  | object => cases h
  | _ => rfl

theorem exportableIn_of_isPrimitive (h : value.isPrimitive = true) :
    store.ExportableIn around value := by
  have hnone := container?_of_isPrimitive h
  intro path inner standsIn
  cases standsIn with
  | self =>
    refine ⟨?_, ?_, ?_⟩
    · rintro ref rfl
      cases h
    · rw [hnone]
      nofun
    · rw [hnone]
      nofun
  | inside outer =>
    rw [hnone] at outer
    cases outer

theorem not_exportableIn_function (ref : FunctionRef) :
    ¬ store.ExportableIn around (.function ref) := by
  intro h
  exact (h _ _ (.self _)).noFunction rfl

/-- **A container is exported inside others when it is none of them, there are not too many of them,
and all that it holds is exported inside it.** -/
theorem exportableIn_iff (h : value.container? = some container) :
    store.ExportableIn around value ↔ container ∉ around ∧ around.length < 128 ∧
      ∀ item ∈ store.contents container, store.ExportableIn (container :: around) item := by
  constructor
  · intro exportable
    have hself := exportable _ _ (.self _)
    refine ⟨by simpa using hself.acyclic h, by simpa using hself.shallow h, ?_⟩
    intro item held path inner deeper
    exact admitted_cons.mp (exportable _ _ (.inside h held deeper))
  · rintro ⟨hnew, hroom, hitems⟩ path inner standsIn
    cases standsIn with
    | self =>
      refine ⟨?_, ?_, ?_⟩
      · rintro ref rfl
        cases h
      · rintro other hother
        obtain rfl := Option.some.inj (h.symm.trans hother)
        simpa using hnew
      · intro other _
        simpa using hroom
    | inside outer held deeper =>
      obtain rfl := Option.some.inj (h.symm.trans outer)
      exact admitted_cons.mpr (hitems _ held _ _ deeper)

end Store

/-! ## Written out -/

/-- What a value is when it is written out as JSON: missing values as null, shared containers each
time anew, and the members of an object in order, of equal names the last one. -/
inductive Value.Unfolds (store : Store) : Value → Json → Prop
  | undefined : Unfolds store .undefined .null
  | null : Unfolds store .null .null
  | boolean (b : Bool) : Unfolds store (.boolean b) (.boolean b)
  | number {x : Float} {json : Json} (form : Value.NumberForm x json) :
    Unfolds store (.number x) json
  | string (s : String) : Unfolds store (.string s) (.string s)
  | array {ref : ArrayRef} {items : List Json}
    (inside : List.Forall₂ (Unfolds store) (store.elements ref).toList items) :
    Unfolds store (.array ref) (.array items)
  | object {ref : ObjectRef} {values : List Json} {members : List (String × Json)}
    (inside : List.Forall₂ (Unfolds store) ((store.properties ref).entries.map Prod.snd) values)
    (keys : InOrder members)
    (named : ∀ key, members.lookup key =
      ((store.properties ref).names.zip values).reverse.lookup key) :
    Unfolds store (.object ref) (.object members)

section Exporting

variable {ε α β : Type}

theorem except_bind_eq_ok {first : Except ε α} {next : α → Except ε β} {b : β} :
    first >>= next = .ok b ↔ ∃ a, first = .ok a ∧ next a = .ok b := by
  cases first with
  | error e =>
    constructor
    · rintro ⟨⟩
    · rintro ⟨a, ⟨⟩, -⟩
  | ok a =>
    constructor
    · intro h
      exact ⟨a, rfl, h⟩
    · rintro ⟨_, ⟨⟩, h⟩
      exact h

theorem map_eq_ok {result : Except ε α} {f : α → β} {b : β} :
    result.map f = .ok b ↔ ∃ a, result = .ok a ∧ f a = b := by
  cases result with
  | error e =>
    constructor
    · rintro ⟨⟩
    · rintro ⟨a, ⟨⟩, -⟩
  | ok a =>
    constructor
    · rintro ⟨⟩
      exact ⟨a, rfl, rfl⟩
    · rintro ⟨_, ⟨⟩, rfl⟩
      rfl

/-- Steps that fail one by one succeed together when each of them does. -/
theorem mapM_eq_ok {step : α → Except ε β} {items : List α} {results : List β} :
    items.mapM step = .ok results ↔
      List.Forall₂ (fun item result => step item = .ok result) items results := by
  induction items generalizing results with
  | nil =>
    rw [List.mapM_nil, List.forall₂_nil_left_iff]
    exact ⟨fun h => by cases h; rfl, fun h => by rw [h]; rfl⟩
  | cons item items ih =>
    rw [List.mapM_cons, List.forall₂_cons_left_iff, except_bind_eq_ok]
    constructor
    · rintro ⟨result, hitem, h⟩
      obtain ⟨rest, hrest, h⟩ := except_bind_eq_ok.mp h
      exact ⟨result, rest, hitem, ih.mp hrest, (Except.ok.inj h).symm⟩
    · rintro ⟨result, rest, hitem, hrest, rfl⟩
      exact ⟨result, hitem, except_bind_eq_ok.mpr ⟨rest, ih.mpr hrest, rfl⟩⟩

/-- Every item has a result when there are results for all of them. -/
theorem exists_forall₂ {r : α → β → Prop} {items : List α} :
    (∃ results, List.Forall₂ r items results) ↔ ∀ item ∈ items, ∃ result, r item result := by
  induction items with
  | nil => simp
  | cons item items ih =>
    rw [List.forall_mem_cons, ← ih]
    simp only [List.forall₂_cons_left_iff]
    constructor
    · rintro ⟨_, result, rest, hitem, hrest, rfl⟩
      exact ⟨⟨result, hitem⟩, rest, hrest⟩
    · rintro ⟨⟨result, hitem⟩, rest, hrest⟩
      exact ⟨_, result, rest, hitem, hrest, rfl⟩

/-- Steps on values under names give the results under the names. -/
theorem mapM_entries (step : α → Except ε β) (entries : List (String × α)) :
    (entries.mapM fun entry => do return (entry.1, ← step entry.2)) =
      ((entries.map Prod.snd).mapM step).map ((entries.map Prod.fst).zip ·) := by
  induction entries with
  | nil => rfl
  | cons entry entries ih =>
    rw [List.mapM_cons, ih, List.map_cons, List.map_cons, List.mapM_cons]
    cases hentry : step entry.2 with
    | error e => rfl
    | ok result =>
      cases hentries : (entries.map Prod.snd).mapM step with
      | error e => rfl
      | ok results => rfl

end Exporting

namespace Value

variable {store : Store} {room : Nat} {path : List Container} {container : Container}
  {value : Value} {json : Json}

/-- A value that is no reference is exported as what it unfolds to. -/
theorem toJsonWithin_primitive (h : value.isPrimitive = true) :
    toJsonWithin store room path value = .ok json ↔
      store.ExportableIn path value ∧ value.Unfolds store json := by
  rw [and_iff_right (Store.exportableIn_of_isPrimitive h)]
  cases value with
  | undefined =>
    rw [toJsonWithin]
    exact ⟨fun h => by cases h; exact .undefined, fun h => by cases h; rfl⟩
  | null =>
    rw [toJsonWithin]
    exact ⟨fun h => by cases h; exact .null, fun h => by cases h; rfl⟩
  | boolean b =>
    rw [toJsonWithin]
    exact ⟨fun h => by cases h; exact .boolean b, fun h => by cases h; rfl⟩
  | number x =>
    rw [toJsonWithin, Except.ok.injEq, numberToJson_eq_iff]
    exact ⟨fun h => .number h, fun h => by cases h; assumption⟩
  | string s =>
    rw [toJsonWithin]
    exact ⟨fun h => by cases h; exact .string s, fun h => by cases h; rfl⟩
  | array => cases h
  | object => cases h
  | function => cases h

theorem exists_toJsonWithin_primitive (h : value.isPrimitive = true) :
    ∃ json, toJsonWithin store room path value = .ok json := by
  cases value with
  | array => cases h
  | object => cases h
  | function => cases h
  | _ => exact ⟨_, by rw [toJsonWithin]⟩

/-- The JSON value of a container, from those of what it holds. -/
def written (store : Store) : Container → List Json → Json
  | .array _, items => .array items
  | .object ref, values => .object (sortMembers ((store.properties ref).names.zip values))

theorem unfolds_iff (h : value.container? = some container) :
    value.Unfolds store json ↔ ∃ values,
      List.Forall₂ (Unfolds store) (store.contents container) values ∧
        written store container values = json := by
  cases value with
  | array ref =>
    cases h
    constructor
    · rintro (_ | _ | _ | _ | _ | unfolds)
      exact ⟨_, unfolds, rfl⟩
    · rintro ⟨values, unfolds, rfl⟩
      exact .array unfolds
  | object ref =>
    cases h
    constructor
    · rintro (_ | _ | _ | _ | _ | _ | ⟨unfolds, keys, named⟩)
      exact ⟨_, unfolds, congrArg _ (sortMembers_eq_iff.mpr ⟨keys, named⟩)⟩
    · rintro ⟨values, unfolds, rfl⟩
      exact .object unfolds (inOrder_sortMembers _) (lookup_sortMembers _)
  | _ => cases h

theorem toJsonWithin_container (h : value.container? = some container) :
    toJsonWithin store (room + 1) path value =
      if container ∈ path then .error .circular
      else ((store.contents container).mapM (toJsonWithin store room (container :: path))).map
        (written store container) := by
  cases value with
  | array ref =>
    cases h
    rw [toJsonWithin]
    simp only [List.contains_iff_mem]
    rfl
  | object ref =>
    cases h
    rw [toJsonWithin, mapM_entries (toJsonWithin store room (.object ref :: path))]
    simp only [List.contains_iff_mem]
    refine congrArg (ite _ _) ?_
    dsimp only [Store.contents]
    cases ((store.properties ref).entries.map Prod.snd).mapM
      (toJsonWithin store room (.object ref :: path)) <;> rfl
  | _ => cases h

/-- Without room no container is exported. -/
theorem toJsonWithin_zero (h : value.container? = some container) :
    toJsonWithin store 0 path value =
      .error (if container ∈ path then .circular else .deeplyNested) := by
  cases value with
  | array ref =>
    cases h
    rw [toJsonWithin]
    simp only [List.contains_iff_mem]
    split <;> rfl
  | object ref =>
    cases h
    rw [toJsonWithin]
    simp only [List.contains_iff_mem]
    split <;> rfl
  | _ => cases h

/-- A container is exported when there is room for one more, which it is new to, and with what it
holds inside it. -/
theorem toJsonWithin_container_eq_ok (h : value.container? = some container) :
    toJsonWithin store room path value = .ok json ↔
      container ∉ path ∧ ∃ less values, room = less + 1 ∧
        List.Forall₂ (fun item json => toJsonWithin store less (container :: path) item = .ok json)
          (store.contents container) values ∧
        written store container values = json := by
  cases room with
  | zero =>
    rw [toJsonWithin_zero h]
    simp
  | succ less =>
    rw [toJsonWithin_container h]
    by_cases hpath : container ∈ path
    · simp [hpath]
    · rw [if_neg hpath, map_eq_ok]
      simp only [mapM_eq_ok]
      constructor
      · rintro ⟨values, hvalues, hjson⟩
        exact ⟨hpath, less, values, rfl, hvalues, hjson⟩
      · rintro ⟨-, _, values, ⟨⟩, hvalues, hjson⟩
        exact ⟨values, hvalues, hjson⟩

theorem toJsonWithin_function (ref : FunctionRef) :
    toJsonWithin store room path (.function ref) = .error .function := by
  rw [toJsonWithin]

/-- A value is one of the simple ones, a function or a container. -/
theorem cases_kind (value : Value) : value.isPrimitive = true ∨ (∃ ref, value = .function ref) ∨
    ∃ container, value.container? = some container := by
  cases value with
  | array ref => exact .inr (.inr ⟨_, rfl⟩)
  | object ref => exact .inr (.inr ⟨_, rfl⟩)
  | function ref => exact .inr (.inl ⟨ref, rfl⟩)
  | _ => exact .inl rfl

/-- A value is exported inside others when it can be, and as what it unfolds to. -/
theorem toJsonWithin_iff (fits : path.length + room = 128) :
    toJsonWithin store room path value = .ok json ↔
      store.ExportableIn path value ∧ value.Unfolds store json := by
  induction room using Nat.strongRecOn generalizing path value json with
  | ind room ih =>
    rcases cases_kind value with h | ⟨ref, rfl⟩ | ⟨container, h⟩
    · exact toJsonWithin_primitive h
    · rw [toJsonWithin_function]
      exact ⟨nofun, fun h => absurd h.1 (Store.not_exportableIn_function ref)⟩
    · have inside (less : Nat) (hroom : room = less + 1) (item : Value) (json : Json) :
          toJsonWithin store less (container :: path) item = .ok json ↔
            store.ExportableIn (container :: path) item ∧ item.Unfolds store json :=
        ih less (by omega) (by rw [List.length_cons]; omega)
      rw [toJsonWithin_container_eq_ok h, Store.exportableIn_iff h, unfolds_iff h]
      constructor
      · rintro ⟨hpath, less, values, hroom, hvalues, hjson⟩
        simp only [inside less hroom, List.forall₂_and_left] at hvalues
        exact ⟨⟨hpath, by omega, hvalues.1⟩, values, hvalues.2, hjson⟩
      · rintro ⟨⟨hpath, hlt, hitems⟩, values, hvalues, hjson⟩
        obtain ⟨less, hroom⟩ := Nat.exists_eq_add_one_of_ne_zero (show room ≠ 0 by omega)
        refine ⟨hpath, less, values, hroom, ?_, hjson⟩
        simp only [inside less hroom, List.forall₂_and_left]
        exact ⟨hitems, hvalues⟩

/-- What can be exported is. -/
theorem exists_toJsonWithin (fits : path.length + room = 128)
    (exportable : store.ExportableIn path value) :
    ∃ json, toJsonWithin store room path value = .ok json := by
  induction room using Nat.strongRecOn generalizing path value with
  | ind room ih =>
    rcases cases_kind value with h | ⟨ref, rfl⟩ | ⟨container, h⟩
    · exact exists_toJsonWithin_primitive h
    · exact absurd exportable (Store.not_exportableIn_function ref)
    · obtain ⟨hpath, hlt, hitems⟩ := (Store.exportableIn_iff h).mp exportable
      obtain ⟨less, rfl⟩ := Nat.exists_eq_add_one_of_ne_zero (show room ≠ 0 by omega)
      obtain ⟨values, hvalues⟩ := exists_forall₂.mpr fun item held =>
        ih less (by omega) (by rw [List.length_cons]; omega) (hitems item held)
      exact ⟨_, (toJsonWithin_container_eq_ok h).mpr ⟨hpath, less, values, rfl, hvalues, rfl⟩⟩

theorem toJson_eq_ok : value.toJson store = .ok json ↔
    toJsonWithin store maxNesting [] value = .ok json := by
  unfold toJson
  split
  · next h => rw [h, Except.ok.injEq, Except.ok.injEq]
  · next h => simp [h]

/-- **Export is writing out, where that ends.** A value is exported exactly when no function stands
in it, no container inside itself and none inside 128 others; the outcome is what it unfolds to. -/
theorem toJson_iff (value : Value) (store : Store) :
    ((∃ json, value.toJson store = .ok json) ↔ store.Exportable value) ∧
      ∀ json, value.toJson store = .ok json ↔
        store.Exportable value ∧ value.Unfolds store json := by
  have fits : ([] : List Container).length + maxNesting = 128 := rfl
  have outcome (json : Json) :
      value.toJson store = .ok json ↔ store.Exportable value ∧ value.Unfolds store json := by
    rw [toJson_eq_ok, toJsonWithin_iff fits, Store.exportable_iff]
  refine ⟨?_, outcome⟩
  constructor
  · rintro ⟨json, h⟩
    exact ((outcome json).mp h).1
  · intro exportable
    obtain ⟨json, h⟩ := exists_toJsonWithin fits (Store.exportable_iff.mp exportable)
    exact ⟨json, toJson_eq_ok.mpr h⟩

end Value

end Formulary
