import Formulary.Proofs.Sequence
import Formulary.Proofs.Source.Agreement
import Formulary.Proofs.Source.Reading

/-!
# The token that a construct begins with

* `Refuses`, `Needs` : steps that have no answer at tokens of a kind, or where no token is left;
* `Cursor.rebroken`, `Blind` : steps that do not ask for the line break before the current token;
* `Opens` : steps that need a token other than `else`, and do not ask for that line break;
* `opens_recursion` : statements and expressions are such steps;
* `Opens.tail_suffix` : that token is left behind.
-/

namespace Formulary.Source

variable {α β : Type} {step : Parse α} {next : α → Parse β} {cursor after : Cursor}

/-- A step that restores the depth has the answer of the step in it. -/
theorem restoring_eq_ok {a : α} :
    restoring step cursor = .ok a after ↔
      ∃ inner, step cursor = .ok a inner ∧ after = { inner with depth := cursor.depth } := by
  unfold restoring
  cases step cursor with
  | ok b middle =>
    constructor
    · rintro ⟨⟩
      exact ⟨middle, rfl, rfl⟩
    · rintro ⟨_, ⟨⟩, rfl⟩
      rfl
  | error e middle =>
    constructor
    · rintro ⟨⟩
    · rintro ⟨_, ⟨⟩, -⟩

theorem unexpected_ne_ok {expected : String} {a : α} :
    (unexpected expected : Parse α) cursor ≠ .ok a after := by
  intro h
  obtain ⟨kind, middle, -, hnext⟩ := bind_eq_ok.mp h
  cases kind with
  | none => cases hnext
  | some kind =>
    obtain ⟨position, last, -, hthrow⟩ := bind_eq_ok.mp hnext
    cases hthrow

theorem tooDeep_ne_ok {a : α} : (tooDeep : Parse α) cursor ≠ .ok a after := by
  intro h
  obtain ⟨position, middle, -, hthrow⟩ := bind_eq_ok.mp h
  cases hthrow

theorem descend_eq_ok {cost : Nat} {a : Unit} :
    descend cost cursor = .ok a after ↔ cursor.depth + cost ≤ nestingLimit ∧
      after = { cursor with depth := cursor.depth + cost } := by
  change (if nestingLimit < cursor.depth + cost then tooDeep
    else set { cursor with depth := cursor.depth + cost } : Parse Unit) cursor = .ok a after ↔ _
  split
  · next full => exact ⟨fun h => absurd h tooDeep_ne_ok, fun h => absurd h.1 (Nat.not_le.mpr full)⟩
  · next room =>
    constructor
    · rintro ⟨⟩
      exact ⟨Nat.not_lt.mp room, rfl⟩
    · rintro ⟨-, rfl⟩
      rfl

/-- The last token is left behind only where the text ends without an error. -/
theorem advance_eq_ok {a : Unit} :
    advance cursor = .ok a after ↔
      (cursor.tokens.tail = [] → cursor.ending.fault? = none) ∧
        after = { cursor with tokens := cursor.tokens.tail } := by
  obtain ⟨tokens, ending, depth⟩ := cursor
  unfold advance Cursor.moveTo
  dsimp only
  generalize tokens.tail = rest
  cases rest with
  | cons token rest => simp [eq_comm]
  | nil =>
    cases ending with
    | complete position newline => simp [eq_comm, Ending.fault?]
    | failed e => simp [Ending.fault?]

/-! ## Steps that read nothing -/

/-- The cursor with or without a line break before the current token. -/
def Cursor.rebroken (cursor : Cursor) (newline : Bool) : Cursor :=
  match cursor.tokens with
  | [] => cursor
  | token :: rest => { cursor with tokens := { token with newlineBefore := newline } :: rest }

/-- Whether a step leaves the tokens as they are and does not ask for the line break before the
current one. -/
def Looks (step : Parse α) : Prop :=
  ∀ cursor a after, step cursor = .ok a after → after.tokens = cursor.tokens ∧
    ∀ newline, step (cursor.rebroken newline) = .ok a (after.rebroken newline)

section Rebroken

variable (cursor : Cursor) (newline : Bool)

theorem Cursor.rebroken_kind :
    (cursor.rebroken newline).tokens.head?.map Token.kind =
      cursor.tokens.head?.map Token.kind := by
  unfold rebroken
  split
  · rfl
  · next heq => rw [heq]; rfl

theorem Cursor.rebroken_tail : (cursor.rebroken newline).tokens.tail = cursor.tokens.tail := by
  unfold rebroken
  split
  · rfl
  · next heq => rw [heq]; rfl

theorem Cursor.rebroken_ending : (cursor.rebroken newline).ending = cursor.ending := by
  unfold rebroken
  split <;> rfl

theorem Cursor.rebroken_depth : (cursor.rebroken newline).depth = cursor.depth := by
  unfold rebroken
  split <;> rfl

theorem Cursor.rebroken_position : (cursor.rebroken newline).position = cursor.position := by
  obtain ⟨tokens, ending, depth⟩ := cursor
  cases tokens <;> rfl

theorem Cursor.rebroken_withDepth (depth : Nat) :
    ({ cursor with depth := depth } : Cursor).rebroken newline =
      { cursor.rebroken newline with depth := depth } := by
  obtain ⟨tokens, ending, _⟩ := cursor
  cases tokens <;> rfl

end Rebroken

theorem looks_pure (a : α) : Looks (pure a) := by
  rintro cursor _ _ ⟨⟩
  exact ⟨rfl, fun newline => rfl⟩

theorem Looks.bind (first : Looks step) (second : ∀ a, Looks (next a)) : Looks (step >>= next) := by
  intro cursor b after h
  obtain ⟨a, middle, hstep, hnext⟩ := bind_eq_ok.mp h
  obtain ⟨htokens, hagain⟩ := first cursor a middle hstep
  obtain ⟨htokens', hagain'⟩ := second a middle b after hnext
  exact ⟨htokens'.trans htokens, fun newline =>
    bind_eq_ok.mpr ⟨a, _, hagain newline, hagain' newline⟩⟩

theorem looks_peek : Looks peek := by
  rintro cursor _ _ ⟨⟩
  refine ⟨rfl, fun newline => ?_⟩
  exact congrArg (EStateM.Result.ok · (cursor.rebroken newline)) (cursor.rebroken_kind newline)

theorem looks_position : Looks position := by
  rintro cursor _ _ ⟨⟩
  refine ⟨rfl, fun newline => ?_⟩
  exact congrArg (EStateM.Result.ok · (cursor.rebroken newline)) (cursor.rebroken_position newline)

theorem looks_atSign (sign : Symbol) : Looks (atSign sign) :=
  looks_peek.bind fun _ => looks_pure _

theorem looks_throwAt (e : Nat → SyntaxError) : Looks (do throw (e (← position)) : Parse α) := by
  intro cursor a after h
  obtain ⟨position, middle, -, hthrow⟩ := bind_eq_ok.mp h
  cases hthrow

theorem looks_stringValue (raw : String) : Looks (stringValue raw) := by
  unfold stringValue
  split
  · exact looks_pure _
  · exact looks_throwAt _

theorem looks_numberValue (text : String) : Looks (numberValue text) := by
  unfold numberValue
  split
  · exact looks_pure _
  · exact looks_throwAt _

theorem looks_descend (cost : Nat) : Looks (descend cost) := by
  intro cursor a after h
  obtain ⟨room, rfl⟩ := descend_eq_ok.mp h
  refine ⟨rfl, fun newline => descend_eq_ok.mpr ?_⟩
  rw [Cursor.rebroken_depth, Cursor.rebroken_withDepth]
  exact ⟨room, rfl⟩

/-! ## Steps that a token opens -/

/-- Whether a step has no answer at a token of the given kind, or where none is left. -/
def Refuses (kind : Option TokenKind) (step : Parse α) : Prop :=
  ∀ cursor a after, cursor.tokens.head?.map Token.kind = kind → step cursor ≠ .ok a after

/-- Whether a step has no answer where no token is left. -/
abbrev Needs (step : Parse α) : Prop := Refuses none step

/-- Whether the line break before the current token, if there is one, does not count for the answer
of a step and for what it leaves. -/
def Blind (step : Parse α) : Prop :=
  ∀ cursor a after newline, cursor.tokens ≠ [] → step cursor = .ok a after →
    step (cursor.rebroken newline) = .ok a after

/-- What no construct begins with: the end of the text, and `else`. -/
inductive Unopening : Option TokenKind → Prop
  | ended : Unopening none
  | elseWord : Unopening (some (.keyword .elseWord))

/-- Whether a step has no answer without a token that a construct begins with, and the line break
before that token does not count. -/
structure Opens (step : Parse α) : Prop where
  refuses : ∀ kind, Unopening kind → Refuses kind step
  blind : Blind step

theorem Opens.needs (h : Opens step) : Needs step := h.refuses none .ended

theorem Needs.ne_ok {a : α} (h : Needs step) (ended : cursor.tokens = []) :
    step cursor ≠ .ok a after :=
  h cursor a after (by rw [ended]; rfl)

section Sequences

variable {kind : Option TokenKind}

theorem Refuses.bind (first : Refuses kind step) : Refuses kind (step >>= next) := by
  intro cursor b after hkind h
  obtain ⟨a, middle, hstep, -⟩ := bind_eq_ok.mp h
  exact first cursor a middle hkind hstep

theorem Blind.bind (first : Blind step) : Blind (step >>= next) := by
  intro cursor b after newline present h
  obtain ⟨a, middle, hstep, hnext⟩ := bind_eq_ok.mp h
  exact bind_eq_ok.mpr ⟨a, middle, first cursor a middle newline present hstep, hnext⟩

theorem Opens.bind (first : Opens step) : Opens (step >>= next) :=
  ⟨fun kind hkind => (first.refuses kind hkind).bind, first.blind.bind⟩

theorem Looks.refuses (first : Looks step) (second : ∀ a, Refuses kind (next a)) :
    Refuses kind (step >>= next) := by
  intro cursor b after hkind h
  obtain ⟨a, middle, hstep, hnext⟩ := bind_eq_ok.mp h
  exact second a middle b after ((first cursor a middle hstep).1 ▸ hkind) hnext

theorem Looks.blind (first : Looks step) (second : ∀ a, Blind (next a)) :
    Blind (step >>= next) := by
  intro cursor b after newline present h
  obtain ⟨a, middle, hstep, hnext⟩ := bind_eq_ok.mp h
  obtain ⟨htokens, hagain⟩ := first cursor a middle hstep
  exact bind_eq_ok.mpr ⟨a, middle.rebroken newline, hagain newline,
    second a middle b after newline (htokens ▸ present) hnext⟩

theorem Looks.opens (first : Looks step) (second : ∀ a, Opens (next a)) : Opens (step >>= next) :=
  ⟨fun kind hkind => first.refuses fun a => (second a).refuses kind hkind,
    first.blind fun a => (second a).blind⟩

end Sequences

section Tokens

variable {next : Option TokenKind → Parse β}

theorem refuses_peek {kind : Option TokenKind} (h : Refuses kind (next kind)) :
    Refuses kind (peek >>= next) := by
  rintro cursor b after rfl hrun
  exact h cursor b after rfl hrun

theorem blind_peek (h : ∀ kind, Blind (next (some kind))) : Blind (peek >>= next) := by
  intro cursor b after newline present hrun
  have hkind : next (cursor.tokens.head?.map Token.kind) cursor = .ok b after := hrun
  change next ((cursor.rebroken newline).tokens.head?.map Token.kind) _ = _
  rw [Cursor.rebroken_kind]
  obtain ⟨token, rest, htokens⟩ := List.exists_cons_of_ne_nil present
  rw [htokens] at hkind ⊢
  exact h token.kind cursor b after newline present hkind

/-- A step that is told by the current token what to do. -/
theorem opens_peek (refuses : ∀ kind, Unopening kind → Refuses kind (next kind))
    (present : ∀ kind, Blind (next (some kind))) : Opens (peek >>= next) :=
  ⟨fun kind hkind => refuses_peek (refuses kind hkind), blind_peek present⟩

end Tokens

theorem blind_advance : Blind advance := by
  intro cursor _ after newline _ h
  obtain ⟨room, rfl⟩ := advance_eq_ok.mp h
  rw [advance_eq_ok, Cursor.rebroken_tail, Cursor.rebroken_ending]
  refine ⟨room, ?_⟩
  obtain ⟨tokens, ending, depth⟩ := cursor
  cases tokens <;> rfl

theorem refuses_unexpected {kind : Option TokenKind} (expected : String) :
    Refuses kind (unexpected expected : Parse α) :=
  fun _ _ _ _ => unexpected_ne_ok

theorem blind_unexpected (expected : String) : Blind (unexpected expected : Parse α) :=
  fun _ _ _ _ _ h => absurd h unexpected_ne_ok

theorem opens_tooDeep : Opens (tooDeep : Parse α) :=
  ⟨fun _ _ _ _ _ _ => tooDeep_ne_ok, fun _ _ _ _ _ h => absurd h tooDeep_ne_ok⟩

theorem Opens.restoring (h : Opens step) : Opens (restoring step) := by
  constructor
  · intro kind unopening cursor a after hkind hrun
    obtain ⟨inner, hinner, -⟩ := restoring_eq_ok.mp hrun
    exact h.refuses kind unopening cursor a inner hkind hinner
  · intro cursor a after newline present hrun
    obtain ⟨inner, hinner, rfl⟩ := restoring_eq_ok.mp hrun
    refine restoring_eq_ok.mpr ⟨inner, h.blind cursor a inner newline present hinner, ?_⟩
    rw [Cursor.rebroken_depth]

theorem Opens.nested (h : Opens step) : Opens (nested step) :=
  ((looks_descend descentCost).opens fun _ => h).restoring

/-! ## Constructs -/

theorem opens_expectSign (sign : Symbol) : Opens (expectSign sign) := by
  constructor
  · intro kind unopening cursor a after hkind h
    obtain ⟨found, middle, ⟨⟩, hnext⟩ := bind_eq_ok.mp h
    rw [hkind] at hnext
    cases unopening <;> exact unexpected_ne_ok hnext
  · refine (looks_atSign sign).blind fun found => ?_
    split
    · exact blind_advance
    · exact blind_unexpected _

/-- Statements and expressions that a token opens, with the given fuel. -/
structure OpensWithin (fuel : Nat) : Prop where
  statement : Opens (statement fuel)
  assignment : Opens (assignment fuel)
  climb : ∀ level, Opens (climb fuel level)
  unary : Opens (unary fuel)
  primary : Opens (primary fuel)

section Recursion

variable {fuel : Nat}

theorem opens_statement (h : OpensWithin fuel) : Opens (statement (fuel + 1)) := by
  refine Opens.nested (opens_peek ?_ fun kind => ?_)
  · rintro _ (_ | _)
    · exact refuses_unexpected _
    · exact (h.assignment.refuses _ .elseWord).bind
  split
  · exact blind_unexpected _
  · exact blind_advance.bind
  · exact (opens_expectSign _).blind.bind.bind
  · exact blind_advance.bind.bind
  · exact blind_advance.bind.bind
  · exact blind_advance.bind.bind
  · exact blind_advance.bind.bind
  · exact blind_advance.bind
  · exact blind_advance.bind
  · exact blind_advance.bind
  · exact blind_advance.bind
  · exact blind_advance.bind
  · exact blind_advance.bind
  · exact h.assignment.blind.bind

theorem opens_unary (h : OpensWithin fuel) : Opens (unary (fuel + 1)) := by
  refine opens_peek ?_ fun kind => ?_
  · rintro _ (_ | _)
    · exact h.primary.needs.bind
    · exact (h.primary.refuses _ .elseWord).bind
  split
  · exact blind_advance.bind
  · exact blind_advance.bind
  · exact blind_advance.bind
  · exact blind_advance.bind
  · exact looks_position.blind fun _ => blind_advance.bind
  · exact looks_position.blind fun _ => blind_advance.bind
  · exact h.primary.blind.bind

theorem opens_primary : Opens (primary (fuel + 1)) := by
  refine opens_peek ?_ fun kind => ?_
  · rintro _ (_ | _) <;> exact refuses_unexpected _
  split
  · exact (looks_numberValue _).blind fun _ => blind_advance.bind
  · exact (looks_stringValue _).blind fun _ => blind_advance.bind
  · exact blind_advance.bind
  · exact blind_advance.bind
  · exact blind_advance.bind
  · exact blind_advance.bind
  · exact blind_advance.bind.bind
  · exact blind_advance.bind
  · exact (opens_expectSign _).blind.bind
  · exact blind_advance.bind
  · exact blind_advance.bind
  · exact blind_unexpected _

/-- **Statements and expressions are opened by a token,** which is not `else`, and the line break
before it does not count. -/
theorem opens_recursion (fuel : Nat) : OpensWithin fuel := by
  induction fuel with
  | zero =>
    exact ⟨opens_tooDeep, opens_tooDeep, fun _ => opens_tooDeep, opens_tooDeep, opens_tooDeep⟩
  | succ fuel ih =>
    exact ⟨opens_statement ih, .nested (ih.climb _).bind.bind, fun _ => ih.unary.bind.restoring,
      opens_unary ih, opens_primary⟩

end Recursion

/-! ## Tokens left behind -/

/-- Whether a step leaves none but tokens that it found. -/
def Keeps (step : Parse α) : Prop :=
  ∀ cursor a after, step cursor = .ok a after → after.tokens <:+ cursor.tokens

theorem Keeps.of_reads {post : List Token → α → List Token → Prop}
    (h : ∀ all, Reads all (fun _ => True) step (post all)) : Keeps step :=
  fun cursor a after hstep =>
    (h cursor.tokens cursor a after List.suffix_rfl trivial hstep).1

theorem Keeps.bind (first : Keeps step) (second : ∀ a, Keeps (next a)) : Keeps (step >>= next) := by
  intro cursor b after h
  obtain ⟨a, middle, hstep, hnext⟩ := bind_eq_ok.mp h
  exact (second a middle b after hnext).trans (first cursor a middle hstep)

theorem keeps_pure (a : α) : Keeps (pure a) := by
  rintro cursor _ _ ⟨⟩
  exact List.suffix_rfl

theorem keeps_advance : Keeps advance := .of_reads fun _ => gives_advance

theorem keeps_identifier : Keeps identifier := .of_reads fun _ => gives_identifier

section Parts

variable {value : Parse Expr}

theorem keeps_property (h : Keeps value) : Keeps (property value) :=
  Keeps.bind (.of_reads fun _ => gives_propertyKey) fun _ =>
    Keeps.bind (.of_reads fun _ => gives_expectSign .colon) fun _ => h.bind fun _ => keeps_pure _

theorem keeps_declarator (h : Keeps value) : Keeps (declarator value) := by
  refine keeps_identifier.bind fun name =>
    Keeps.bind (.of_reads fun _ => reads_atSign .assign) fun initial => ?_
  split
  · exact keeps_advance.bind fun _ => h.bind fun _ => keeps_pure _
  · exact keeps_pure _

end Parts

theorem keeps_statement (fuel : Nat) : Keeps (statement fuel) :=
  .of_reads fun all => (reads_recursion all fuel).statement

theorem keeps_assignment (fuel : Nat) : Keeps (assignment fuel) :=
  .of_reads fun all => (reads_recursion all fuel).assignment

/-- The token that opens a construct is left behind: with the line break before it changed, the
same tokens are left, and so it is none of them. -/
theorem Opens.tail_suffix {a : α} (h : Opens step) (keeps : Keeps step)
    (hstep : step cursor = .ok a after) :
    cursor.tokens ≠ [] ∧ after.tokens <:+ cursor.tokens.tail := by
  have present : cursor.tokens ≠ [] := fun ended => h.needs.ne_ok ended hstep
  refine ⟨present, ?_⟩
  have hleft := keeps cursor a after hstep
  obtain ⟨tokens, ending, depth⟩ := cursor
  obtain ⟨token, rest, rfl⟩ := List.exists_cons_of_ne_nil present
  have hleft' := keeps _ a after (h.blind _ a after (!token.newlineBefore) present hstep)
  rcases List.suffix_cons_iff.mp hleft with heq | hrest
  · rcases List.suffix_cons_iff.mp hleft' with heq' | hrest
    · have hbreak := congrArg Token.newlineBefore (List.cons.inj (heq.symm.trans heq')).1
      simp at hbreak
    · exact hrest
  · exact hrest

theorem Opens.length_lt {a : α} (h : Opens step) (keeps : Keeps step)
    (hstep : step cursor = .ok a after) : after.tokens.length < cursor.tokens.length := by
  obtain ⟨present, hsuffix⟩ := h.tail_suffix keeps hstep
  have hle := hsuffix.length_le
  have hpos := List.length_pos_iff.mpr present
  rw [List.length_tail] at hle
  omega

end Formulary.Source
