import Formulary.Proofs.Value.Kept
import Formulary.Proofs.Value.Unfolding

/-!
# Import and export

* `Json.depth` : how deep containers nest in a JSON value;
* `Json.Rounds`, `Json.rounded` : a JSON value with doubles for its numbers;
* `Value.toJsonWithin_ofJson` : what an imported value is exported as;
* `Json.Settled`, `Value.settled_of_toJsonWithin` : what has been exported stays as it is;
* `Value.toJson_ofJson` : export undoes import up to the numbers, and import undoes export.
-/

namespace Formulary

/-! ## Depth and numbers -/

namespace Json

mutual

/-- How many containers lie inside each other at most. -/
def depth : Json → Nat
  | null => 0
  | boolean _ => 0
  | number _ => 0
  | string _ => 0
  | array items => depthItems items + 1
  | object members => depthMembers members + 1

/-- The depth of the deepest item. -/
def depthItems : List Json → Nat
  | [] => 0
  | item :: items => max item.depth (depthItems items)

/-- The depth of the deepest member. -/
def depthMembers : List (String × Json) → Nat
  | [] => 0
  | (_, value) :: members => max value.depth (depthMembers members)

end

/-- A JSON value with the nearest double for each of its numbers, in the form that numbers have. -/
inductive Rounds : Json → Json → Prop
  | null : Rounds .null .null
  | boolean (b : Bool) : Rounds (.boolean b) (.boolean b)
  | number {n : JsonNumber} {json : Json} (form : Value.NumberForm n.toFloat json) :
    Rounds (.number n) json
  | string (s : String) : Rounds (.string s) (.string s)
  | array {items items' : List Json} (inside : List.Forall₂ Rounds items items') :
    Rounds (.array items) (.array items')
  | object {members members' : List (String × Json)}
    (keys : members.map Prod.fst = members'.map Prod.fst)
    (inside : List.Forall₂ Rounds (members.map Prod.snd) (members'.map Prod.snd)) :
    Rounds (.object members) (.object members')

mutual

/-- The JSON value that another one rounds to. -/
def rounded : Json → Json
  | null => null
  | boolean b => boolean b
  | number n => Value.numberToJson n.toFloat
  | string s => string s
  | array items => array (roundedItems items)
  | object members => object (roundedMembers members)

/-- The items of an array, rounded. -/
def roundedItems : List Json → List Json
  | [] => []
  | item :: items => item.rounded :: roundedItems items

/-- The members of an object, rounded. -/
def roundedMembers : List (String × Json) → List (String × Json)
  | [] => []
  | (key, value) :: members => (key, value.rounded) :: roundedMembers members

end

/-- Whether a JSON value is as an exported one: its members are in order, it is not too deep, and
its numbers stay as they are when it is imported. -/
structure Settled (json : Json) (room : Nat) : Prop where
  ordered : json.InOrder
  depth_le : json.depth ≤ room
  rounded_eq : json.rounded = json

variable {items : List Json} {members : List (String × Json)} {bound : Nat}

theorem depthItems_le_iff : depthItems items ≤ bound ↔ ∀ item ∈ items, item.depth ≤ bound := by
  induction items with
  | nil => simp [depthItems]
  | cons item items ih => rw [depthItems, max_le_iff, ih, List.forall_mem_cons]

theorem depthMembers_le_iff :
    depthMembers members ≤ bound ↔ ∀ member ∈ members, member.2.depth ≤ bound := by
  induction members with
  | nil => simp [depthMembers]
  | cons member members ih => rw [depthMembers, max_le_iff, ih, List.forall_mem_cons]

theorem roundedItems_eq_self (h : ∀ item ∈ items, item.rounded = item) :
    roundedItems items = items := by
  induction items with
  | nil => rfl
  | cons item items ih =>
    obtain ⟨hitem, hitems⟩ := List.forall_mem_cons.mp h
    rw [roundedItems, hitem, ih hitems]

theorem roundedMembers_eq_self (h : ∀ member ∈ members, member.2.rounded = member.2) :
    roundedMembers members = members := by
  induction members with
  | nil => rfl
  | cons member members ih =>
    obtain ⟨hmember, hmembers⟩ := List.forall_mem_cons.mp h
    rw [roundedMembers, hmember, ih hmembers]

theorem map_fst_roundedMembers (members : List (String × Json)) :
    (roundedMembers members).map Prod.fst = members.map Prod.fst := by
  induction members with
  | nil => rfl
  | cons member members ih => rw [roundedMembers, List.map_cons, List.map_cons, ih]

mutual

theorem rounds_rounded (json : Json) : json.Rounds json.rounded := by
  cases json with
  | null => exact .null
  | boolean b => exact .boolean b
  | number n => exact .number (Value.numberToJson_eq_iff.mp rfl)
  | string s => exact .string s
  | array items => exact .array (rounds_roundedItems items)
  | object members =>
    exact .object (map_fst_roundedMembers members).symm (rounds_roundedMembers members)

theorem rounds_roundedItems (items : List Json) :
    List.Forall₂ Rounds items (roundedItems items) := by
  cases items with
  | nil => exact .nil
  | cons item items => exact .cons (rounds_rounded item) (rounds_roundedItems items)

theorem rounds_roundedMembers (members : List (String × Json)) :
    List.Forall₂ Rounds (members.map Prod.snd) ((roundedMembers members).map Prod.snd) := by
  cases members with
  | nil => exact .nil
  | cons member members => exact .cons (rounds_rounded member.2) (rounds_roundedMembers members)

end

end Json

/-! ## Tables and stores -/

namespace Table

variable {α : Type} {name : String} {value : α} {entries : List (String × α)}

/-- A new name is put at the end. -/
theorem putEntry_of_notMem (h : ∀ entry ∈ entries, entry.1 ≠ name) :
    putEntry name value entries = entries ++ [(name, value)] := by
  induction entries with
  | nil => rfl
  | cons entry entries ih =>
    obtain ⟨hentry, hentries⟩ := List.forall_mem_cons.mp h
    rw [putEntry, if_neg hentry, ih hentries, List.cons_append]

/-- Entries in order are a table as they are. -/
theorem ofList_of_inOrder (h : InOrder entries) : ofList entries = ⟨entries⟩ := by
  induction entries using List.reverseRecOn with
  | nil => rfl
  | append_singleton entries last ih =>
    obtain ⟨hentries, -, hlast⟩ := List.pairwise_append.mp h
    have hput : ofList (entries ++ [last]) = (ofList entries).put last.1 last.2 := by
      rw [ofList, List.foldl_append]
      rfl
    rw [hput, ih hentries, put, putEntry_of_notMem]
    intro entry hmem
    exact (hlast entry hmem last List.mem_cons_self).ne

end Table

namespace Store

variable {store later : Store} {names : List String}

theorem Keeps.elements_eq (keeps : store.Keeps names later) {ref : ArrayRef}
    (h : ref.index < store.arrays.size) : later.elements ref = store.elements ref := by
  unfold elements
  rw [← Array.getElem?_toList, ← Array.getElem?_toList,
    List.prefix_iff_getElem?.mp keeps.arrays ref.index (by simpa using h)]
  simp [h]

theorem Keeps.properties_eq (keeps : store.Keeps names later) {ref : ObjectRef}
    (h : ref.index < store.objects.size) : later.properties ref = store.properties ref := by
  unfold properties
  rw [← Array.getElem?_toList, ← Array.getElem?_toList,
    List.prefix_iff_getElem?.mp keeps.objects ref.index (by simpa using h)]
  simp [h]

/-- Whether a store has no such container yet. -/
def Lacks (store : Store) : Container → Prop
  | .array ref => store.arrays.size ≤ ref.index
  | .object ref => store.objects.size ≤ ref.index

/-- What a store lacks, an earlier one lacked. -/
theorem Lacks.mono {container : Container} (lacks : later.Lacks container)
    (keeps : store.Keeps names later) : store.Lacks container := by
  cases container with
  | array ref => exact (by simpa using keeps.arrays.length_le : _ ≤ _).trans lacks
  | object ref => exact (by simpa using keeps.objects.length_le : _ ≤ _).trans lacks

end Store

/-! ## What is imported -/

namespace Value

theorem map_fst_ofMembers (members : List (String × Json)) (store : Store) :
    (ofMembers members store).1.map Prod.fst = members.map Prod.fst := by
  induction members generalizing store with
  | nil => rfl
  | cons member members ih => exact congrArg (member.1 :: ·) (ih (ofJson member.2 store).2)

theorem inOrder_iff {α : Type} {members : List (String × α)} :
    InOrder members ↔ (members.map Prod.fst).Pairwise (· < ·) := by
  rw [InOrder, List.pairwise_map]

/-- Members keep their order when they are imported. -/
theorem inOrder_ofMembers {members : List (String × Json)} (h : InOrder members) (store : Store) :
    InOrder (ofMembers members store).1 := by
  rw [inOrder_iff, map_fst_ofMembers, ← inOrder_iff]
  exact h

/-- The outcome of a step that fails below a depth. -/
def within {α : Type} (room depth : Nat) (result : α) : Except ExportFault α :=
  if depth ≤ room then .ok result else .error .deeplyNested

theorem mapM_within {α β : Type} {step : α → Except ExportFault β} {item : α} {items : List α}
    {result : β} {results : List β} {room depth depths : Nat}
    (hitem : step item = within room depth result)
    (hitems : items.mapM step = within room depths results) :
    (item :: items).mapM step = within room (max depth depths) (result :: results) := by
  rw [List.mapM_cons, hitem, hitems]
  unfold within
  by_cases h : depth ≤ room
  · by_cases h' : depths ≤ room
    · rw [if_pos h, if_pos h', if_pos (max_le h h')]
      rfl
    · rw [if_pos h, if_neg h', if_neg fun hmax => h' (max_le_iff.mp hmax).2]
      rfl
  · rw [if_neg h, if_neg fun hmax => h (max_le_iff.mp hmax).1]
    rfl

theorem toJsonWithin_atom {store : Store} {value : Value} {room : Nat} {path : List Container}
    {json : Json} (h : value.isPrimitive = true) (unfolds : value.Unfolds store json) :
    toJsonWithin store room path value = within room 0 json := by
  rw [within, if_pos (Nat.zero_le room)]
  exact (toJsonWithin_primitive h).mpr ⟨Store.exportableIn_of_isPrimitive h, unfolds⟩

/-- A container with something new in it, inside others. -/
theorem toJsonWithin_new {store : Store} {value : Value} {container : Container} {room depth : Nat}
    {path : List Container} {values : List Json} (h : value.container? = some container)
    (new : container ∉ path)
    (inside : ∀ room, (store.contents container).mapM
      (toJsonWithin store room (container :: path)) = within room depth values) :
    toJsonWithin store room path value =
      within room (depth + 1) (written store container values) := by
  cases room with
  | zero =>
    rw [toJsonWithin_zero h, if_neg new, within, if_neg (by omega)]
  | succ room =>
    rw [toJsonWithin_container h, if_neg new, inside, within, within]
    by_cases hdepth : depth ≤ room
    · rw [if_pos hdepth, if_pos (by omega)]
      rfl
    · rw [if_neg hdepth, if_neg (by omega)]
      rfl

section Importing

variable {names : List String} {later : Store}

mutual

/-- **What is imported is exported again, rounded, unless it is nested too deeply.** Whatever comes
into the store later, it lies inside nothing that was there when it was imported. -/
theorem toJsonWithin_ofJson {room : Nat} {path : List Container} (json : Json)
    (ordered : json.InOrder) (store : Store)
    (keeps : (ofJson json store).2.Keeps names later)
    (lacks : ∀ container ∈ path, (ofJson json store).2.Lacks container) :
    toJsonWithin later room path (ofJson json store).1 = within room json.depth json.rounded := by
  cases json with
  | null => exact toJsonWithin_atom rfl .null
  | boolean b => exact toJsonWithin_atom rfl (.boolean b)
  | number n => exact toJsonWithin_atom rfl (.number (numberToJson_eq_iff.mp rfl))
  | string s => exact toJsonWithin_atom rfl (.string s)
  | array items =>
    cases ordered with
    | array inside =>
      let container : Container := .array ⟨(ofItems items store).2.arrays.size⟩
      have hafter : (ofItems items store).2.Keeps names (ofJson (.array items) store).2 :=
        Store.keeps_newArray _ _
      have hlacks : ∀ outer ∈ container :: path, (ofItems items store).2.Lacks outer :=
        List.forall_mem_cons.mpr ⟨Nat.le_refl _, fun outer hmem => (lacks outer hmem).mono hafter⟩
      have hcontents : later.contents container = (ofItems items store).1 := by
        rw [Store.contents, keeps.elements_eq (Array.size_push .. ▸ Nat.lt_succ_self _)]
        exact congrArg Array.toList ((Store.elements_newArray _ _ _).trans (if_pos rfl))
      show toJsonWithin later room path (.array ⟨(ofItems items store).2.arrays.size⟩) =
        within room (Json.depthItems items + 1) (written later container (Json.roundedItems items))
      refine toJsonWithin_new rfl (fun hmem => ?_) fun room => ?_
      · exact absurd (lacks _ hmem) (Nat.not_le.mpr (Array.size_push .. ▸ Nat.lt_succ_self _))
      · rw [hcontents]
        exact mapM_ofItems items inside store (hafter.trans keeps) hlacks
  | object members =>
    cases ordered with
    | object keys inside =>
      let container : Container := .object ⟨(ofMembers members store).2.objects.size⟩
      have hafter : (ofMembers members store).2.Keeps names (ofJson (.object members) store).2 :=
        Store.keeps_newObject _ _
      have hlacks : ∀ outer ∈ container :: path, (ofMembers members store).2.Lacks outer :=
        List.forall_mem_cons.mpr ⟨Nat.le_refl _, fun outer hmem => (lacks outer hmem).mono hafter⟩
      have hproperties : later.properties ⟨(ofMembers members store).2.objects.size⟩ =
          ⟨(ofMembers members store).1⟩ := by
        rw [keeps.properties_eq (Array.size_push .. ▸ Nat.lt_succ_self _),
          ← Table.ofList_of_inOrder (inOrder_ofMembers keys store)]
        exact (Store.properties_newObject _ _ _).trans (if_pos rfl)
      have hwritten : written later container ((Json.roundedMembers members).map Prod.snd) =
          .object (Json.roundedMembers members) := by
        rw [written, hproperties, Table.names, map_fst_ofMembers, ← Json.map_fst_roundedMembers,
          ← List.zip_of_prod rfl rfl, InOrder.sortMembers_eq]
        rw [inOrder_iff, Json.map_fst_roundedMembers, ← inOrder_iff]
        exact keys
      show toJsonWithin later room path (.object ⟨(ofMembers members store).2.objects.size⟩) =
        within room (Json.depthMembers members + 1) (.object (Json.roundedMembers members))
      rw [← hwritten]
      refine toJsonWithin_new rfl (fun hmem => ?_) fun room => ?_
      · exact absurd (lacks _ hmem) (Nat.not_le.mpr (Array.size_push .. ▸ Nat.lt_succ_self _))
      · rw [Store.contents, hproperties]
        exact mapM_ofMembers members inside store (hafter.trans keeps) hlacks

theorem mapM_ofItems {room : Nat} {path : List Container} (items : List Json)
    (ordered : ∀ item ∈ items, item.InOrder) (store : Store)
    (keeps : (ofItems items store).2.Keeps names later)
    (lacks : ∀ container ∈ path, (ofItems items store).2.Lacks container) :
    (ofItems items store).1.mapM (toJsonWithin later room path) =
      within room (Json.depthItems items) (Json.roundedItems items) := by
  cases items with
  | nil => exact (if_pos (Nat.zero_le room)).symm
  | cons item items =>
    obtain ⟨hitem, hitems⟩ := List.forall_mem_cons.mp ordered
    have hafter : (ofJson item store).2.Keeps names (ofItems (item :: items) store).2 :=
      Store.keeps_ofItems _ items
    exact mapM_within
      (toJsonWithin_ofJson item hitem store (hafter.trans keeps)
        fun container hmem => (lacks container hmem).mono hafter)
      (mapM_ofItems items hitems (ofJson item store).2 keeps lacks)

theorem mapM_ofMembers {room : Nat} {path : List Container} (members : List (String × Json))
    (ordered : ∀ member ∈ members, member.2.InOrder) (store : Store)
    (keeps : (ofMembers members store).2.Keeps names later)
    (lacks : ∀ container ∈ path, (ofMembers members store).2.Lacks container) :
    ((ofMembers members store).1.map Prod.snd).mapM (toJsonWithin later room path) =
      within room (Json.depthMembers members) ((Json.roundedMembers members).map Prod.snd) := by
  cases members with
  | nil => exact (if_pos (Nat.zero_le room)).symm
  | cons member members =>
    obtain ⟨hmember, hmembers⟩ := List.forall_mem_cons.mp ordered
    have hafter : (ofJson member.2 store).2.Keeps names (ofMembers (member :: members) store).2 :=
      Store.keeps_ofMembers _ members
    exact mapM_within
      (toJsonWithin_ofJson member.2 hmember store (hafter.trans keeps)
        fun container hmem => (lacks container hmem).mono hafter)
      (mapM_ofMembers members hmembers (ofJson member.2 store).2 keeps lacks)

end

end Importing

/-! ## What has been exported -/

section Exported

variable {store : Store} {room : Nat} {path : List Container} {value : Value} {json : Json}

/-- The form of a number stays as it is. -/
theorem NumberForm.rounded_eq {x : Float} (form : NumberForm x json) :
    json.InOrder ∧ json.depth = 0 ∧ json.rounded = json := by
  cases form with
  | null => exact ⟨.null, rfl, rfl⟩
  | integer small equal =>
    refine ⟨.number _, rfl, numberToJson_eq_iff.mpr (.integer small ?_)⟩
    exact (Number.beq_ofInt_iff small).mpr (Number.whole_ofInt small)
  | real finite other => exact ⟨.number _, rfl, numberToJson_eq_iff.mpr (.real finite other)⟩

theorem settled_of_isPrimitive (h : value.isPrimitive = true) (unfolds : value.Unfolds store json) :
    json.Settled room := by
  have settled : json.InOrder ∧ json.depth = 0 ∧ json.rounded = json := by
    cases unfolds with
    | undefined => exact ⟨.null, rfl, rfl⟩
    | null => exact ⟨.null, rfl, rfl⟩
    | boolean b => exact ⟨.boolean b, rfl, rfl⟩
    | number form => exact form.rounded_eq
    | string s => exact ⟨.string s, rfl, rfl⟩
    | array => cases h
    | object => cases h
  obtain ⟨ordered, hdepth, hrounded⟩ := settled
  exact ⟨ordered, by omega, hrounded⟩

/-- A container of settled values is settled. -/
theorem settled_written {container : Container} {values : List Json}
    (h : ∀ json ∈ values, json.Settled room) :
    (written store container values).Settled (room + 1) := by
  cases container with
  | array ref =>
    refine ⟨.array fun item hmem => (h item hmem).ordered, Nat.succ_le_succ ?_, ?_⟩
    · exact Json.depthItems_le_iff.mpr fun item hmem => (h item hmem).depth_le
    · exact congrArg Json.array
        (Json.roundedItems_eq_self fun item hmem => (h item hmem).rounded_eq)
  | object ref =>
    have hmembers : ∀ member ∈ sortMembers ((store.properties ref).names.zip values),
        member.2.Settled room := by
      intro member hmem
      exact h _ (List.of_mem_zip (mem_sortMembers hmem)).2
    refine ⟨.object (inOrder_sortMembers _) fun member hmem => (hmembers member hmem).ordered,
      Nat.succ_le_succ ?_, ?_⟩
    · exact Json.depthMembers_le_iff.mpr fun member hmem => (hmembers member hmem).depth_le
    · exact congrArg Json.object
        (Json.roundedMembers_eq_self fun member hmem => (hmembers member hmem).rounded_eq)

theorem exists_of_mem_right {α β : Type} {r : α → β → Prop} {xs : List α} {ys : List β}
    (h : List.Forall₂ r xs ys) {y : β} (hmem : y ∈ ys) : ∃ x ∈ xs, r x y := by
  induction h with
  | nil => cases hmem
  | cons hhead _ ih =>
    rcases List.mem_cons.mp hmem with rfl | hmem
    · exact ⟨_, List.mem_cons_self, hhead⟩
    · obtain ⟨x, hx, hr⟩ := ih hmem
      exact ⟨x, List.mem_cons_of_mem _ hx, hr⟩

/-- **What is exported is settled.** -/
theorem settled_of_toJsonWithin (h : toJsonWithin store room path value = .ok json) :
    json.Settled room := by
  induction room using Nat.strongRecOn generalizing path value json with
  | ind room ih =>
    rcases cases_kind value with hkind | ⟨ref, rfl⟩ | ⟨container, hkind⟩
    · exact settled_of_isPrimitive hkind ((toJsonWithin_primitive hkind).mp h).2
    · rw [toJsonWithin_function] at h
      cases h
    · obtain ⟨-, less, values, rfl, hvalues, rfl⟩ := (toJsonWithin_container_eq_ok hkind).mp h
      refine settled_written fun json hmem => ?_
      obtain ⟨item, -, hitem⟩ := exists_of_mem_right hvalues hmem
      exact ih less (Nat.lt_succ_self less) hitem

end Exported

/-! ## Both ways -/

theorem toJson_eq_error {store : Store} {value : Value} {fault : ExportFault}
    (h : toJsonWithin store maxNesting [] value = .error fault) :
    value.toJson store = .error (.notExportable fault) := by
  unfold toJson
  rw [h]

/-- **Export undoes import up to the numbers, and import undoes export.** What is imported from a
JSON value is exported as that value with doubles for its numbers when its containers nest at most
128 deep, and is nested too deeply otherwise; and what has been exported is exported as it is when
it is imported again. -/
theorem toJson_ofJson (json : Json) (store : Store) :
    (json.canonical.depth ≤ 128 → ∃ exported, json.canonical.Rounds exported ∧
      (ofJson json.canonical store).1.toJson (ofJson json.canonical store).2 = .ok exported) ∧
    (128 < json.canonical.depth →
      (ofJson json.canonical store).1.toJson (ofJson json.canonical store).2 =
        .error (.notExportable .deeplyNested)) ∧
    ∀ (value : Value) (other : Store) (exported : Json), value.toJson other = .ok exported →
      (ofJson exported store).1.toJson (ofJson exported store).2 = .ok exported := by
  have again (json : Json) (ordered : json.InOrder) :
      toJsonWithin (ofJson json store).2 128 [] (ofJson json store).1 =
        within 128 json.depth json.rounded := by
    have keeps : (ofJson json store).2.Keeps [] (ofJson json store).2 := Store.keeps_refl _
    exact toJsonWithin_ofJson json ordered store keeps nofun
  have imported := again json.canonical (Json.inOrder_canonical json)
  refine ⟨fun hdepth => ?_, fun hdepth => ?_, fun value other exported h => ?_⟩
  · rw [within, if_pos hdepth] at imported
    exact ⟨_, Json.rounds_rounded _, toJson_eq_ok.mpr imported⟩
  · rw [within, if_neg (by omega)] at imported
    exact toJson_eq_error imported
  · obtain ⟨ordered, hdepth, hrounded⟩ := settled_of_toJsonWithin (toJson_eq_ok.mp h)
    have hagain := again exported ordered
    rw [within, if_pos (show exported.depth ≤ 128 from hdepth), hrounded] at hagain
    exact toJson_eq_ok.mpr hagain

end Value

end Formulary
