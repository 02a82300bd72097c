import Formulary.Catalog.Document
import Formulary.Proofs.Json.Record

/-!
# Documents as texts

* `FormulaEntry.Writes`, `Trigger.Writes`, `Document.Writes` : the JSON values that write an entry
  or a document. A field stands under any of its names, and may be left out where it has its
  default;
* `FormulaEntry.Writes.described`, `Trigger.Writes.described`, `Document.Writes.described` : what
  such values describe;
* `Document.declared` : a document with all fields under their own names, in order;
* `Document.read_written` : the texts of such values are read as the document.
-/

namespace Formulary

open Json (Given IsRecord WritesList Textual)

/-! ## Values of fields -/

/-- Whether a JSON value is the one that a writer makes of a value. -/
def WrittenAs {α : Type} (write : α → Json) (a : α) (json : Json) : Prop :=
  json = write a

namespace WrittenAs

variable {α : Type} {write : α → Json} {a : α} {json : Json}

theorem canonical (h : WrittenAs write a json) (fixed : (write a).canonical = write a) :
    WrittenAs write a json.canonical := by
  rw [show json = write a from h]
  exact fixed

theorem textual {nesting : Nat} (h : WrittenAs write a json) (fits : Textual nesting (write a)) :
    Textual nesting json := by
  rw [show json = write a from h]
  exact fits

/-- A reader that undoes the writer reads the value back. -/
theorem read {read : Json → Option α} (h : WrittenAs write a json)
    (undone : read (write a) = some a) : read json = some a := by
  rw [show json = write a from h]
  exact undone

theorem string? {text : String} (h : WrittenAs Json.string text json) :
    json.string? = some text :=
  h.read rfl

theorem boolean? {b : Bool} (h : WrittenAs Json.boolean b json) : json.boolean? = some b :=
  h.read rfl

theorem texts? {texts : List (String × String)} (h : WrittenAs Json.ofTexts texts json) :
    json.texts? = some texts :=
  h.read (Json.texts?_ofTexts texts)

end WrittenAs

variable {json : Json}

/-! ## Formulas -/

namespace FormulaEntry

variable {entry : FormulaEntry}

/-- Whether a JSON value writes a formula. -/
inductive Writes (entry : FormulaEntry) : Json → Prop where
  | record {i d b a e json} (id : Given (WrittenAs Json.string) "" entry.id i)
      (description : Given (WrittenAs Json.string) "" entry.description d)
      (body : Given (WrittenAs Json.string) "" entry.body b)
      (attributes : Given (WrittenAs Json.ofTexts) [] entry.attributes a)
      (isEnabled : Given (WrittenAs Json.boolean) false entry.isEnabled e)
      (isRecord : IsRecord fields [i, d, b, a, e] json) : Writes entry json

theorem distinct_fields : fields.flatten.Nodup := by
  decide

theorem Writes.described (h : entry.Writes json) : ofJson? json = some entry := by
  cases h with
  | record id description body attributes isEnabled isRecord =>
    rw [ofJson?, Json.recordValues?_of_isRecord distinct_fields isRecord]
    simp only [Option.bind_eq_bind, Option.bind_some, id.read fun _ h => h.string?,
      description.read fun _ h => h.string?, body.read fun _ h => h.string?,
      attributes.read fun _ h => h.texts?, isEnabled.read fun _ h => h.boolean?]
    rfl

theorem Writes.canonical (inOrder : InOrder entry.attributes) (h : entry.Writes json) :
    entry.Writes json.canonical := by
  cases h with
  | record id description body attributes isEnabled isRecord =>
    exact .record (id.canonical fun _ h => h.canonical rfl)
      (description.canonical fun _ h => h.canonical rfl)
      (body.canonical fun _ h => h.canonical rfl)
      (attributes.canonical fun _ h => h.canonical (Json.canonical_ofTexts inOrder))
      (isEnabled.canonical fun _ h => h.canonical rfl) (isRecord.canonical distinct_fields)

theorem Writes.textual (h : entry.Writes json) : Textual 2 json := by
  cases h with
  | record id description body attributes isEnabled isRecord =>
    refine isRecord.textual fun value hvalue => ?_
    simp only [List.mem_cons, List.not_mem_nil, or_false] at hvalue
    rcases hvalue with rfl | rfl | rfl | rfl | rfl
    · exact id.textual fun _ h => h.textual (.string 1 _)
    · exact description.textual fun _ h => h.textual (.string 1 _)
    · exact body.textual fun _ h => h.textual (.string 1 _)
    · exact attributes.textual fun _ h => h.textual (Json.textual_ofTexts 0 _)
    · exact isEnabled.textual fun _ h => h.textual (.boolean 1 _)

/-- A formula with all fields under their own names, in order. -/
def declared (entry : FormulaEntry) : Json :=
  .object [("ID", .string entry.id), ("Description", .string entry.description),
    ("Body", .string entry.body), ("Attributes", .ofTexts entry.attributes),
    ("Enabled", .boolean entry.isEnabled)]

theorem writes_declared (entry : FormulaEntry) : entry.Writes entry.declared := by
  refine .record (.put rfl) (.put rfl) (.put rfl) (.put rfl) (.put rfl) (.object ?_ (.refl _))
  exact .put (by decide) <| .put (by decide) <| .put (by decide) <| .put (by decide) <|
    .put (by decide) .nil

end FormulaEntry

/-! ## Triggers -/

namespace Trigger

variable {trigger : Trigger}

/-- The texts of a trigger, field by field. -/
def texts (trigger : Trigger) : List String :=
  [trigger.id, trigger.description, trigger.filter, trigger.contextName, trigger.inputMapping,
    trigger.outputName, trigger.outputMapping]

/-- Whether a JSON value writes a trigger. -/
inductive Writes (trigger : Trigger) : Json → Prop where
  | record {given json}
      (texts : List.Forall₂ (Given (WrittenAs Json.string) "") trigger.texts given)
      (isRecord : IsRecord fields given json) : Writes trigger json

theorem distinct_fields : fields.flatten.Nodup := by
  decide

theorem Writes.described (h : trigger.Writes json) : ofJson? json = some trigger := by
  cases h with
  | @record given _ texts isRecord =>
    have htexts : given.mapM (Json.orDefault? "" Json.string?) = some trigger.texts :=
      Json.mapM_of_forall₂ (texts.flip.imp fun _ _ h => h.read fun _ h => h.string?)
    rw [ofJson?, Json.recordValues?_of_isRecord distinct_fields isRecord]
    simp only [Option.bind_eq_bind, Option.bind_some, htexts, Trigger.texts]
    rfl

theorem Writes.canonical (h : trigger.Writes json) : trigger.Writes json.canonical := by
  cases h with
  | record texts isRecord =>
    refine .record (List.forall₂_map_right_iff.mpr (texts.imp fun _ _ h => ?_))
      (isRecord.canonical distinct_fields)
    exact h.canonical fun _ h => h.canonical rfl

theorem Writes.textual (h : trigger.Writes json) : Textual 1 json := by
  cases h with
  | record texts isRecord =>
    refine isRecord.textual fun value hvalue => ?_
    clear isRecord
    generalize trigger.texts = given at texts
    induction texts with
    | nil => cases hvalue
    | cons hfirst _ ih =>
      rcases List.mem_cons.mp hvalue with rfl | hrest
      · exact hfirst.textual fun _ h => h.textual (.string 0 _)
      · exact ih hrest

/-- A trigger with all fields under their own names, in order. -/
def declared (trigger : Trigger) : Json :=
  .object [("ID", .string trigger.id), ("Description", .string trigger.description),
    ("Filter", .string trigger.filter), ("ContextVarName", .string trigger.contextName),
    ("InputMapping", .string trigger.inputMapping), ("OutputVarName", .string trigger.outputName),
    ("OutputMapping", .string trigger.outputMapping)]

theorem writes_declared (trigger : Trigger) : trigger.Writes trigger.declared := by
  have htexts : List.Forall₂ (Given (WrittenAs Json.string) "") trigger.texts
      (trigger.texts.map fun text => some (.string text)) :=
    List.forall₂_map_right_iff.mpr (List.forall₂_same.mpr fun _ _ => .put rfl)
  refine .record htexts (.object ?_ (.refl _))
  exact .put (by decide) <| .put (by decide) <| .put (by decide) <| .put (by decide) <|
    .put (by decide) <| .put (by decide) <| .put (by decide) .nil

end Trigger

/-! ## Documents -/

namespace Document

variable {document : Document}

/-- Whether a JSON value writes a document. -/
inductive Writes (document : Document) : Json → Prop where
  | record {f c t json} (functions : Given (WrittenAs Json.ofTexts) [] document.functions f)
      (formulas : Given (WritesList FormulaEntry.Writes) [] document.formulas c)
      (triggers : Given (WritesList Trigger.Writes) [] document.triggers t)
      (isRecord : IsRecord fields [f, c, t] json) : Writes document json

/-- Whether the maps of a document are in the order of their keys. -/
structure Ordered (document : Document) : Prop where
  functions : InOrder document.functions
  attributes : ∀ entry ∈ document.formulas, InOrder entry.attributes

theorem distinct_fields : fields.flatten.Nodup := by
  decide

theorem Writes.described (h : document.Writes json) : ofJson? json = some document := by
  cases h with
  | record functions formulas triggers isRecord =>
    rw [ofJson?, Json.recordValues?_of_isRecord distinct_fields isRecord]
    simp only [Option.bind_eq_bind, Option.bind_some, functions.read fun _ h => h.texts?,
      formulas.read fun _ h => h.read fun _ _ h => h.described,
      triggers.read fun _ h => h.read fun _ _ h => h.described]
    rfl

theorem Writes.canonical (ordered : document.Ordered) (h : document.Writes json) :
    document.Writes json.canonical := by
  cases h with
  | record functions formulas triggers isRecord =>
    exact .record
      (functions.canonical fun _ h => h.canonical (Json.canonical_ofTexts ordered.functions))
      (formulas.canonical fun _ h => h.canonical fun entry hmem _ h =>
        h.canonical (ordered.attributes entry hmem))
      (triggers.canonical fun _ h => h.canonical fun _ _ _ h => h.canonical)
      (isRecord.canonical distinct_fields)

theorem Writes.textual (h : document.Writes json) : Textual 4 json := by
  cases h with
  | record functions formulas triggers isRecord =>
    refine isRecord.textual fun value hvalue => ?_
    simp only [List.mem_cons, List.not_mem_nil, or_false] at hvalue
    rcases hvalue with rfl | rfl | rfl
    · exact functions.textual fun _ h => h.textual (Json.textual_ofTexts 2 _)
    · exact formulas.textual fun _ h => h.textual fun _ _ h => h.textual
    · exact triggers.textual fun _ h => h.textual fun _ _ h => h.textual.mono (by decide)

/-- A document with all fields under their own names, in order. -/
def declared (document : Document) : Json :=
  .object [("functions", .ofTexts document.functions),
    ("formulas", .array (document.formulas.map FormulaEntry.declared)),
    ("triggers", .array (document.triggers.map Trigger.declared))]

theorem writes_declared (document : Document) : document.Writes document.declared := by
  have hformulas : WritesList FormulaEntry.Writes document.formulas
      (.array (document.formulas.map FormulaEntry.declared)) :=
    .array (List.forall₂_map_right_iff.mpr (List.forall₂_same.mpr fun entry _ =>
      entry.writes_declared))
  have htriggers : WritesList Trigger.Writes document.triggers
      (.array (document.triggers.map Trigger.declared)) :=
    .array (List.forall₂_map_right_iff.mpr (List.forall₂_same.mpr fun trigger _ =>
      trigger.writes_declared))
  refine .record (.put rfl) (.put hformulas) (.put htriggers) (.object ?_ (.refl _))
  exact .put (by decide) <| .put (by decide) <| .put (by decide) .nil

theorem Writes.members?_ne_none (h : document.Writes json) : json.members?.isNone = false := by
  cases h with
  | record _ _ _ isRecord =>
    cases isRecord
    rfl

/-- A text is read as the document that its value writes. -/
theorem Writes.read (ordered : document.Ordered) (h : document.Writes json) {text : String}
    (parsed : Json.parse? text = some json) : read text = .ok document := by
  have hcanonical := h.canonical ordered
  rw [Document.read, Json.read?, parsed]
  simp only [Option.map_some, hcanonical.members?_ne_none, hcanonical.described]
  rfl

/-- **Documents are read back from the texts that write them,** whichever names their fields have,
in whatever order they stand, and whichever fields with default values are left out. -/
theorem read_written (document : Document) (ordered : document.Ordered) :
    document.Writes document.declared ∧ ∀ json, document.Writes json →
      read json.compact = .ok document ∧ read json.pretty = .ok document := by
  refine ⟨document.writes_declared, fun json hwrites => ?_⟩
  have htextual := hwrites.textual.mono (by decide : 4 ≤ Json.maxNesting)
  exact ⟨hwrites.read ordered htextual.parse?_compact, hwrites.read ordered htextual.parse?_pretty⟩

/-! ### A document with second names -/

/-- A formula under second names, without its description, which is empty. -/
def briefFormula : Json :=
  .object [("id", .string "F"), ("body", .string "$A()"), ("Attributes", .ofTexts [("k", "v")]),
    ("enabled", .boolean true)]

/-- A trigger under second names, without the texts that are empty. -/
def briefTrigger : Json :=
  .object [("ID", .string "T"), ("filter", .string "true"), ("context_var_name", .string "c")]

/-- A document whose members are not in the usual order. -/
def brief : Json :=
  .object [("triggers", .array [briefTrigger]), ("functions", .ofTexts [("$A", "1\n\"")]),
    ("formulas", .array [briefFormula])]

/-- What the brief values write. -/
def sample : Document where
  functions := [("$A", "1\n\"")]
  formulas := [⟨"F", "", "$A()", [("k", "v")], true⟩]
  triggers := [⟨"T", "", "true", "c", "", "", ""⟩]

theorem writes_brief : sample.Writes brief := by
  have hformula : FormulaEntry.Writes ⟨"F", "", "$A()", [("k", "v")], true⟩ briefFormula := by
    refine .record (.put rfl) .leave (.put rfl) (.put rfl) (.put rfl) (.object ?_ (.refl _))
    exact .put (by decide) <| .leave <| .put (by decide) <| .put (by decide) <|
      .put (by decide) .nil
  have htrigger : Trigger.Writes ⟨"T", "", "true", "c", "", "", ""⟩ briefTrigger := by
    refine .record (.cons (.put rfl) <| .cons .leave <| .cons (.put rfl) <| .cons (.put rfl) <|
      .cons .leave <| .cons .leave <| .cons .leave .nil) (.object ?_ (.refl _))
    exact .put (by decide) <| .leave <| .put (by decide) <| .put (by decide) <|
      .leave <| .leave <| .leave .nil
  have hnamed : Json.Named fields
      [some (.ofTexts [("$A", "1\n\"")]), some (.array [briefFormula]),
        some (.array [briefTrigger])]
      [("functions", .ofTexts [("$A", "1\n\"")]), ("formulas", .array [briefFormula]),
        ("triggers", .array [briefTrigger])] :=
    .put (by decide) <| .put (by decide) <| .put (by decide) .nil
  exact .record (.put rfl) (.put (.array (.cons hformula .nil)))
    (.put (.array (.cons htrigger .nil)))
    (.object hnamed ((List.Perm.swap _ _ _).trans ((List.Perm.swap _ _ _).cons _)))

theorem read_written_brief :
    sample.Ordered ∧ sample.Writes brief ∧ read brief.compact = .ok sample := by
  have hordered : sample.Ordered := by
    refine ⟨List.pairwise_singleton _ _, fun entry hmem => ?_⟩
    rw [List.mem_singleton.mp hmem]
    exact List.pairwise_singleton _ _
  exact ⟨hordered, writes_brief, ((read_written sample hordered).2 brief writes_brief).1⟩

end Document

end Formulary
