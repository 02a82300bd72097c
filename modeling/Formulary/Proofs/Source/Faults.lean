import Formulary.Proofs.Source.Metered

/-!
# What is wrong with tokens

* `Lexed.Faulty` : the errors that tokens can be refused with, each at one of the tokens or at the
  end;
* `Cursor.Inside`, `Blames` : steps that fail with such errors only;
* `blamed_plain` : every construct of the grammar does;
* `faulty_of_program` : tokens that are no program are refused with such an error.
-/

namespace Formulary.Source

/-! ## Errors at tokens -/

/-- Whether a sign writes to what stands before it or behind it. -/
def Symbol.Writes (sign : Symbol) : Prop :=
  sign.assignment?.isSome = true ∨ sign = .increment ∨ sign = .decrement

/-- The errors that tokens can be refused with: that which ends the text, or one at a token. The
nesting can also be too deep at the end. -/
inductive Lexed.Faulty (lexed : Lexed) : SyntaxError → Prop
  | lexical {e : SyntaxError} (fails : lexed.ending = .failed e) : Lexed.Faulty lexed e
  | token {token : Token} (mem : token ∈ lexed.tokens) :
    Lexed.Faulty lexed (.unexpectedToken token.kind.label token.start)
  | ended {position : Nat} {newline : Bool} (ends : lexed.ending = .complete position newline)
    (expected : String) : Lexed.Faulty lexed (.unexpectedEnd expected)
  | number {token : Token} {text : String} (mem : token ∈ lexed.tokens)
    (kind : token.kind = .number text) (unread : Number.Numeral.ofText? text.toList = none) :
    Lexed.Faulty lexed (.invalidNumber text token.start)
  | string {token : Token} {quote : Char} {raw sequence : String} (mem : token ∈ lexed.tokens)
    (kind : token.kind = .string quote raw)
    (undecoded : Escape.decode raw.toList = .error sequence) :
    Lexed.Faulty lexed (.invalidEscape sequence token.start)
  | target {token : Token} {sign : Symbol} (mem : token ∈ lexed.tokens)
    (kind : token.kind = .symbol sign) (writes : sign.Writes) :
    Lexed.Faulty lexed (.invalidTarget token.start)
  | deep {token : Token} (mem : token ∈ lexed.tokens) :
    Lexed.Faulty lexed (.nestingTooDeep nestingLimit token.start)
  | deepEnd {position : Nat} {newline : Bool} (ends : lexed.ending = .complete position newline) :
    Lexed.Faulty lexed (.nestingTooDeep nestingLimit position)

/-- Whether a cursor stands among the tokens of a text, and at their end only where that is the end
of the text. -/
structure Cursor.Inside (lexed : Lexed) (cursor : Cursor) : Prop where
  tokens : cursor.tokens <:+ lexed.tokens
  ending : cursor.ending = lexed.ending
  complete : cursor.tokens = [] → ∃ position newline, lexed.ending = .complete position newline

/-- Whether the current token is of a kind, or there is none. -/
def Heads (kind : Option TokenKind) (tokens : List Token) : Prop :=
  tokens.head?.map Token.kind = kind

/-- Whether a step, begun among the tokens of a text at some with a property, stops among them or
fails with an error that they can be refused with. -/
def Blames {α : Type} (lexed : Lexed) (pre : List Token → Prop) (step : Parse α) : Prop :=
  ∀ cursor : Cursor, cursor.Inside lexed → pre cursor.tokens →
    match step cursor with
    | .ok _ after => after.Inside lexed
    | .error e _ => lexed.Faulty e

/-- The same wherever the step is begun. -/
abbrev Blamed {α : Type} (lexed : Lexed) (step : Parse α) : Prop :=
  Blames lexed (fun _ => True) step

section Steps

variable {α β : Type} {lexed : Lexed} {pre : List Token → Prop} {step : Parse α}
  {next : α → Parse β}

theorem Blamed.here (h : Blamed lexed step) : Blames lexed pre step :=
  fun cursor inside _ => h cursor inside trivial

theorem blamed_pure (a : α) : Blamed lexed (pure a : Parse α) :=
  fun _ inside _ => inside

theorem Blames.bind (first : Blames lexed pre step) (second : ∀ a, Blamed lexed (next a)) :
    Blames lexed pre (step >>= next) := by
  intro cursor inside hpre
  have hfirst := first cursor inside hpre
  show match EStateM.bind step next cursor with
    | .ok _ after => after.Inside lexed
    | .error e _ => lexed.Faulty e
  unfold EStateM.bind
  cases hstep : step cursor with
  | ok a middle =>
    rw [hstep] at hfirst
    exact second a middle hfirst trivial
  | error e middle =>
    rw [hstep] at hfirst
    exact hfirst

theorem Blames.map {f : α → β} (h : Blames lexed pre step) :
    Blames lexed pre (do return f (← step)) :=
  h.bind fun _ => blamed_pure _

/-! ### Looking at tokens -/

/-- What comes behind a look at the current token is begun at that token. -/
theorem blamed_peek {next : Option TokenKind → Parse β}
    (h : ∀ kind, Blames lexed (Heads kind) (next kind)) : Blamed lexed (peek >>= next) :=
  fun cursor inside _ => h _ cursor inside rfl

theorem blames_newlineBefore {next : Bool → Parse β} (h : ∀ found, Blames lexed pre (next found)) :
    Blames lexed pre (newlineBefore >>= next) :=
  fun cursor inside hpre => h _ cursor inside hpre

theorem blamed_rounds {next : Nat → Parse β} (h : ∀ fuel, Blamed lexed (next fuel)) :
    Blamed lexed (rounds >>= next) :=
  fun cursor inside _ => h _ cursor inside trivial

theorem blamed_atSign {sign : Symbol} {next : Bool → Parse β}
    (h : ∀ found, Blamed lexed (next found)) : Blamed lexed (atSign sign >>= next) :=
  fun cursor inside _ => h _ cursor inside trivial

theorem blamed_atWord {word : Keyword} {next : Bool → Parse β}
    (h : ∀ found, Blamed lexed (next found)) : Blamed lexed (atWord word >>= next) :=
  fun cursor inside _ => h _ cursor inside trivial

/-- The position is where the current token starts. -/
theorem blames_position {kind : TokenKind} {next : Nat → Parse β}
    (h : ∀ token ∈ lexed.tokens, token.kind = kind →
      Blames lexed (Heads (some kind)) (next token.start)) :
    Blames lexed (Heads (some kind)) (position >>= next) := by
  intro cursor inside heads
  obtain ⟨token, rest, htokens, rfl⟩ :
      ∃ token rest, cursor.tokens = token :: rest ∧ token.kind = kind := by
    unfold Heads at heads
    cases htokens : cursor.tokens with
    | nil => simp [htokens] at heads
    | cons token rest => exact ⟨token, rest, rfl, by simpa [htokens] using heads⟩
  have hposition : cursor.position = token.start := by
    unfold Cursor.position
    rw [htokens]
  have hmem : token ∈ lexed.tokens := inside.tokens.subset (by rw [htokens]; exact .head _)
  have hnext := h token hmem rfl cursor inside heads
  rwa [← hposition] at hnext

theorem blames_throwAt {kind : TokenKind} {e : Nat → SyntaxError}
    (h : ∀ token ∈ lexed.tokens, token.kind = kind → lexed.Faulty (e token.start)) :
    Blames lexed (Heads (some kind)) (do throw (e (← position)) : Parse α) :=
  blames_position fun token hmem hkind _ _ _ => h token hmem hkind

theorem blamed_unexpected (expected : String) :
    Blamed lexed (unexpected expected : Parse α) := by
  refine blamed_peek fun kind => ?_
  cases kind with
  | some kind =>
    refine blames_throwAt ?_
    rintro token hmem rfl
    exact .token hmem
  | none =>
    intro cursor inside heads
    obtain ⟨position, newline, hending⟩ := inside.complete (by simpa [Heads] using heads)
    exact .ended hending expected

/-- The current token is left behind, unless the text ends with a fault behind it. -/
theorem blamed_advance : Blamed lexed advance := by
  rintro ⟨tokens, ending, depth⟩ ⟨htokens, rfl, -⟩ -
  have hsuffix : tokens.tail <:+ lexed.tokens := (List.tail_suffix tokens).trans htokens
  unfold advance Cursor.moveTo
  dsimp only
  generalize tokens.tail = tail at hsuffix
  cases tail with
  | cons token rest => exact ⟨hsuffix, rfl, nofun⟩
  | nil =>
    cases hending : lexed.ending with
    | failed e => exact .lexical hending
    | complete position newline => exact ⟨hsuffix, hending.symm, fun _ => ⟨_, _, hending⟩⟩

/-- What is read off the current token, which is left behind. -/
theorem blamed_taken (a : α) : Blamed lexed (do advance; return a) :=
  blamed_advance.bind fun _ => blamed_pure a

theorem blamed_expectSign (sign : Symbol) : Blamed lexed (expectSign sign) := by
  refine blamed_atSign fun found => ?_
  split
  · exact blamed_advance
  · exact blamed_unexpected _

/-! ### The nesting budget -/

theorem blamed_tooDeep : Blamed lexed (tooDeep : Parse α) := by
  intro cursor inside _
  show lexed.Faulty (.nestingTooDeep nestingLimit cursor.position)
  unfold Cursor.position
  cases htokens : cursor.tokens with
  | nil =>
    obtain ⟨position, newline, hending⟩ := inside.complete htokens
    rw [inside.ending, hending]
    exact .deepEnd hending
  | cons token rest =>
    exact .deep (inside.tokens.subset (by rw [htokens]; exact .head _))

theorem blamed_descend {cost : Nat} {next : Unit → Parse β} (h : Blamed lexed (next ())) :
    Blamed lexed (descend cost >>= next) := by
  intro cursor inside _
  rw [descend_bind]
  by_cases full : nestingLimit < cursor.depth + cost
  · rw [if_pos full]
    exact blamed_tooDeep (α := β) cursor inside trivial
  · rw [if_neg full]
    exact h _ ⟨inside.tokens, inside.ending, inside.complete⟩ trivial

theorem Blamed.restoring (h : Blamed lexed step) : Blamed lexed (restoring step) := by
  intro cursor inside _
  have hstep := h cursor inside trivial
  unfold Source.restoring
  cases hresult : step cursor with
  | ok a after =>
    rw [hresult] at hstep
    exact ⟨hstep.tokens, hstep.ending, hstep.complete⟩
  | error e after =>
    rw [hresult] at hstep
    exact hstep

theorem Blamed.nested (h : Blamed lexed step) : Blamed lexed (nested step) :=
  Blamed.restoring (blamed_descend h)

end Steps

/-! ## Repetitions -/

section Repetitions

variable {α : Type} {lexed : Lexed} {item : Parse α} {value : Parse Expr} {statement : Parse Stmt}

theorem blamed_commaList (close : Symbol) (h : Blamed lexed item) :
    Blamed lexed (commaList close item) := by
  have hwithin (fuel : Nat) : Blamed lexed (commaListWithin close item fuel) := by
    induction fuel with
    | zero => exact blamed_pure _
    | succ fuel ih =>
      refine blamed_atSign fun closed => ?_
      split
      · exact blamed_pure _
      · refine h.bind fun first => blamed_atSign fun more => ?_
        split
        · exact blamed_advance.bind fun _ => ih.map
        · exact blamed_pure _
  exact blamed_rounds fun fuel => (hwithin fuel).bind fun items =>
    (blamed_expectSign close).bind fun _ => blamed_pure items

theorem blamed_block (h : Blamed lexed statement) : Blamed lexed (block statement) := by
  have hwithin (fuel : Nat) : Blamed lexed (blockWithin statement fuel) := by
    induction fuel with
    | zero => exact blamed_pure _
    | succ fuel ih =>
      refine blamed_atSign fun closed => ?_
      split
      · exact blamed_pure _
      · refine blamed_peek fun kind => Blamed.here ?_
        split
        · exact (blamed_unexpected _).bind fun _ => h.bind fun first => ih.map
        · exact h.bind fun first => ih.map
  exact (blamed_expectSign _).bind fun _ => blamed_rounds fun fuel => (hwithin fuel).bind fun body =>
    (blamed_expectSign _).bind fun _ => blamed_pure body

theorem blamed_statementsWithin (h : Blamed lexed statement) (fuel : Nat) :
    Blamed lexed (statementsWithin statement fuel) := by
  induction fuel with
  | zero => exact blamed_pure _
  | succ fuel ih =>
    refine blamed_peek fun kind => Blamed.here ?_
    split
    · exact blamed_pure _
    · exact h.bind fun first => ih.map

theorem blamed_identifier : Blamed lexed identifier := by
  refine blamed_peek fun kind => Blamed.here ?_
  split
  · exact blamed_taken _
  · exact blamed_unexpected _

theorem blamed_declaration (h : Blamed lexed value) : Blamed lexed (declaration value) := by
  have hdeclarator : Blamed lexed (declarator value) := by
    refine blamed_identifier.bind fun name => blamed_atSign fun initial => ?_
    split
    · exact blamed_advance.bind fun _ => h.map
    · exact blamed_pure _
  have hwithin (fuel : Nat) : Blamed lexed (declaratorsWithin value fuel) := by
    induction fuel with
    | zero => exact blamed_pure _
    | succ fuel ih =>
      refine hdeclarator.bind fun first => blamed_atSign fun more => ?_
      split
      · exact blamed_advance.bind fun _ => ih.map
      · exact blamed_pure _
  exact blamed_advance.bind fun _ => blamed_rounds fun fuel => (hwithin fuel).map

end Repetitions

/-! ## Constructs around their parts -/

section Parts

variable {lexed : Lexed} {statement : Parse Stmt} {expression operand : Parse Expr}

theorem blamed_endStatement : Blamed lexed endStatement := by
  refine blamed_peek fun kind => Blamed.here ?_
  split
  · exact blamed_advance
  · exact blamed_pure _
  · exact blamed_pure _
  · refine blames_newlineBefore fun found => ?_
    split
    · exact blamed_pure _
    · exact blamed_unexpected _

/-! ### Literals -/

/-- The body of a string is refused at its token. -/
theorem blames_stringValue (quote : Char) (raw : String) :
    Blames lexed (Heads (some (.string quote raw))) (stringValue raw) := by
  unfold stringValue
  split
  · exact (blamed_pure _).here
  · next sequence hdecode => exact blames_throwAt fun token hmem hkind => .string hmem hkind hdecode

/-- A number is refused at its token. -/
theorem blames_numberValue (text : String) :
    Blames lexed (Heads (some (.number text))) (numberValue text) := by
  unfold numberValue
  split
  · exact (blamed_pure _).here
  · next hread => exact blames_throwAt fun token hmem hkind => .number hmem hkind hread

theorem blamed_propertyName : Blamed lexed propertyName := by
  refine blamed_peek fun kind => Blamed.here ?_
  split
  · exact blamed_taken _
  · exact blamed_taken _
  · exact blamed_unexpected _

theorem blamed_propertyKey : Blamed lexed propertyKey := by
  refine blamed_peek fun kind => ?_
  split
  · exact (blamed_taken _).here
  · exact (blamed_taken _).here
  · exact (blames_stringValue _ _).bind fun key => blamed_taken key
  · exact (blamed_taken _).here
  · exact (blamed_unexpected _).here

theorem blamed_property (h : Blamed lexed expression) : Blamed lexed (property expression) :=
  blamed_propertyKey.bind fun _ => (blamed_expectSign _).bind fun _ => h.map

theorem blamed_functionDef (h : Blamed lexed statement) : Blamed lexed (functionDef statement) := by
  have hrest (name : Option String) : Blamed lexed (do
      expectSign .openParen
      let parameters ← commaList .closeParen identifier
      return FunctionDef.mk name parameters (← block statement)) :=
    (blamed_expectSign _).bind fun _ => (blamed_commaList _ blamed_identifier).bind fun _ =>
      (blamed_block h).map
  refine blamed_advance.bind fun _ => blamed_peek fun kind => Blamed.here ?_
  split
  · exact blamed_advance.bind fun _ => (blamed_pure _).bind hrest
  · exact hrest none

/-! ### Expressions -/

theorem blamed_parenthesized (h : Blamed lexed expression) :
    Blamed lexed (parenthesized expression) :=
  (blamed_expectSign _).bind fun _ => h.bind fun _ => (blamed_expectSign _).bind fun _ =>
    blamed_pure _

theorem blamed_conditional (hoperand : Blamed lexed operand) (h : Blamed lexed expression) :
    Blamed lexed (conditional operand expression) := by
  refine hoperand.bind fun test => blamed_atSign fun more => ?_
  split
  · exact blamed_advance.bind fun _ => h.bind fun _ => (blamed_expectSign _).bind fun _ => h.map
  · exact blamed_pure _

/-- What is no place to write to is refused at the sign behind it. -/
theorem blamed_assignmentTo (hoperand : Blamed lexed operand) (h : Blamed lexed expression) :
    Blamed lexed (assignmentTo operand expression) := by
  refine hoperand.bind fun target => blamed_peek fun kind => ?_
  split
  · exact (blamed_pure _).here
  · next op hop =>
    split
    · exact Blamed.here (blamed_advance.bind fun _ => h.map)
    · obtain ⟨found, rfl, hsign⟩ := Option.bind_eq_some_iff.mp hop
      cases found with
      | symbol sign =>
        refine blames_throwAt fun token hmem hkind => .target hmem hkind (.inl ?_)
        simp [hsign]
      | _ => cases hsign

/-- What is no place to write to is refused at the sign before it. -/
theorem blames_updateBefore {op : UpdateOp} {sign : Symbol} (writes : sign.Writes)
    (h : Blamed lexed expression) :
    Blames lexed (Heads (some (.symbol sign))) (updateBefore op expression) := by
  refine blames_position fun token hmem hkind => Blamed.here ?_
  refine blamed_advance.bind fun _ => h.bind fun target => ?_
  split
  · exact blamed_pure _
  · exact fun _ _ _ => .target hmem hkind writes

/-- What is no place to write to is refused at the sign behind it. -/
theorem blames_updateBehind {op : UpdateOp} {sign : Symbol} (writes : sign.Writes)
    (target : Expr) :
    Blames lexed (Heads (some (.symbol sign)))
      (do if ← newlineBefore then return target else updateBehind op target) := by
  refine blames_newlineBefore fun found => ?_
  split
  · exact (blamed_pure _).here
  · unfold updateBehind
    split
    · exact (blamed_taken _).here
    · exact blames_throwAt fun token hmem hkind => .target hmem hkind writes

theorem blamed_unaryOf (op : UnaryOp) (h : Blamed lexed expression) :
    Blamed lexed (unaryOf op expression) :=
  blamed_advance.bind fun _ => h.map

/-! ### Statements -/

/-- What stands before the end of its statement. -/
theorem Blames.ended {α β : Type} {part : Parse α} {pre : List Token → Prop}
    (h : Blames lexed pre part) (result : α → β) :
    Blames lexed pre (do let a ← part; endStatement; return result a) :=
  h.bind fun _ => blamed_endStatement.bind fun _ => blamed_pure _

theorem blamed_ifStatement (h : Blamed lexed expression) (hstatement : Blamed lexed statement) :
    Blamed lexed (ifStatement expression statement) := by
  refine blamed_advance.bind fun _ => (blamed_parenthesized h).bind fun test =>
    hstatement.bind fun consequent => blamed_atWord fun more => ?_
  split
  · exact blamed_advance.bind fun _ => hstatement.map
  · exact blamed_pure _

theorem blamed_whileStatement (h : Blamed lexed expression) (hstatement : Blamed lexed statement) :
    Blamed lexed (whileStatement expression statement) :=
  blamed_advance.bind fun _ => (blamed_parenthesized h).bind fun _ => hstatement.map

theorem blamed_optionalBefore (sign : Symbol) (h : Blamed lexed expression) :
    Blamed lexed (optionalBefore sign expression) := by
  refine blamed_atSign fun found => ?_
  split
  · exact blamed_pure _
  · exact h.map

theorem blamed_forStart (h : Blamed lexed expression) : Blamed lexed (forStart expression) := by
  refine blamed_peek fun kind => Blamed.here ?_
  split
  · exact blamed_pure _
  · exact (blamed_declaration h).map
  · exact (blamed_declaration h).map
  · exact (blamed_declaration h).map
  · exact h.map

theorem blamed_forStatement (h : Blamed lexed expression) (hstatement : Blamed lexed statement) :
    Blamed lexed (forStatement expression statement) :=
  blamed_advance.bind fun _ => (blamed_expectSign _).bind fun _ =>
    (blamed_forStart h).bind fun _ => (blamed_expectSign _).bind fun _ =>
      (blamed_optionalBefore _ h).bind fun _ => (blamed_expectSign _).bind fun _ =>
        (blamed_optionalBefore _ h).bind fun _ => (blamed_expectSign _).bind fun _ =>
          hstatement.map

theorem blamed_returnStatement (h : Blamed lexed expression) :
    Blamed lexed (returnStatement expression) := by
  have hrest (value : Option Expr) : Blamed lexed (do endStatement; return Stmt.ret value) :=
    blamed_endStatement.bind fun _ => blamed_pure _
  refine blamed_advance.bind fun _ => blamed_peek fun kind => Blamed.here ?_
  split
  · exact hrest none
  · exact hrest none
  · exact hrest none
  · refine blames_newlineBefore fun found => ?_
    split
    · exact hrest none
    · exact Blames.bind (h.bind fun _ => blamed_pure _) hrest

theorem blamed_functionStatement {suffixes : Expr → Parse Expr}
    (hstatement : Blamed lexed statement) (h : ∀ value, Blamed lexed (suffixes value)) :
    Blamed lexed (functionStatement statement suffixes) := by
  refine (blamed_functionDef hstatement).bind fun definition => ?_
  split
  · exact blamed_pure _
  · exact (h _).ended _

theorem blamed_wordStatement (result : Stmt) : Blamed lexed (wordStatement result) :=
  blamed_advance.bind fun _ => blamed_endStatement.bind fun _ => blamed_pure _

end Parts

/-! ## The grammar -/

/-- Whether every construct fails with such errors only. -/
structure Steps.Blamed (lexed : Lexed) (steps : Steps) : Prop where
  statement : Source.Blamed lexed steps.statement
  assignment : Source.Blamed lexed steps.assignment
  climb : ∀ level, Source.Blamed lexed (steps.climb level)
  chain : ∀ level left, Source.Blamed lexed (steps.chain level left)
  unary : Source.Blamed lexed steps.unary
  suffixes : ∀ value, Source.Blamed lexed (steps.suffixes value)
  primary : Source.Blamed lexed steps.primary

section Around

variable {lexed : Lexed} {inside : Steps} (h : inside.Blamed lexed)
include h

theorem blamed_aroundStatement : Blamed lexed inside.aroundStatement := by
  have hdeclaration := Blames.ended (blamed_declaration h.assignment) id
  refine blamed_peek fun kind => Blamed.here ?_
  split
  · exact blamed_unexpected _
  · exact blamed_taken _
  · exact (blamed_block h.statement).map
  · exact hdeclaration
  · exact hdeclaration
  · exact hdeclaration
  · exact blamed_functionStatement h.statement fun value => (h.suffixes value).restoring
  · exact blamed_returnStatement h.assignment
  · exact blamed_ifStatement h.assignment h.statement
  · exact blamed_whileStatement h.assignment h.statement
  · exact blamed_forStatement h.assignment h.statement
  · exact blamed_wordStatement _
  · exact blamed_wordStatement _
  · exact Blames.ended h.assignment _

theorem blamed_aroundAssignment : Blamed lexed inside.aroundAssignment :=
  blamed_assignmentTo (blamed_conditional (h.climb _) h.assignment) h.assignment

theorem blamed_aroundClimb (level : Nat) : Blamed lexed (inside.aroundClimb level) :=
  h.unary.bind fun left => h.chain level left

theorem blamed_aroundChain (level : Nat) (left : Expr) :
    Blamed lexed (inside.aroundChain level left) := by
  refine blamed_peek fun kind => Blamed.here ?_
  split
  · exact blamed_pure _
  · split
    · exact blamed_pure _
    · exact blamed_descend (blamed_advance.bind fun _ => (h.climb _).bind fun _ => h.chain _ _)

theorem blamed_aroundUnary {nested : Parse Expr} (hnested : Blamed lexed nested) :
    Blamed lexed (inside.aroundUnary nested) := by
  refine blamed_peek fun kind => ?_
  split
  · exact (blamed_unaryOf _ hnested).here
  · exact (blamed_unaryOf _ hnested).here
  · exact (blamed_unaryOf _ hnested).here
  · exact (blamed_unaryOf _ hnested).here
  · exact blames_updateBefore (.inr (.inl rfl)) hnested
  · exact blames_updateBefore (.inr (.inr rfl)) hnested
  · exact Blamed.here (h.primary.bind fun value => (h.suffixes value).restoring)

theorem blamed_aroundSuffixes (value : Expr) : Blamed lexed (inside.aroundSuffixes value) := by
  refine blamed_peek fun kind => ?_
  split
  · exact Blamed.here (blamed_descend (blamed_advance.bind fun _ =>
      blamed_propertyName.bind fun _ => h.suffixes _))
  · exact Blamed.here (blamed_descend (blamed_advance.bind fun _ =>
      h.assignment.bind fun _ => (blamed_expectSign _).bind fun _ => h.suffixes _))
  · exact Blamed.here (blamed_descend (blamed_advance.bind fun _ =>
      (blamed_commaList _ h.assignment).bind fun _ => h.suffixes _))
  · exact blames_updateBehind (.inr (.inl rfl)) value
  · exact blames_updateBehind (.inr (.inr rfl)) value
  · exact (blamed_pure _).here

theorem blamed_aroundPrimary : Blamed lexed inside.aroundPrimary := by
  refine blamed_peek fun kind => ?_
  split
  · exact (blames_numberValue _).bind fun _ => blamed_taken _
  · exact (blames_stringValue _ _).bind fun _ => blamed_taken _
  all_goals refine Blamed.here ?_
  · exact blamed_taken _
  · exact blamed_taken _
  · exact blamed_taken _
  · exact blamed_taken _
  · exact (blamed_functionDef h.statement).map
  · exact blamed_taken _
  · exact blamed_parenthesized h.assignment
  · exact blamed_advance.bind fun _ => (blamed_commaList _ h.assignment).map
  · exact blamed_advance.bind fun _ => (blamed_commaList _ (blamed_property h.assignment)).map
  · exact blamed_unexpected _

end Around

/-- **Every construct of the grammar fails with such errors only.** -/
theorem blamed_plain (lexed : Lexed) (fuel : Nat) : (Steps.plain fuel).Blamed lexed := by
  induction fuel with
  | zero =>
    exact ⟨blamed_tooDeep, blamed_tooDeep, fun _ => blamed_tooDeep, fun _ _ => blamed_tooDeep,
      blamed_tooDeep, fun _ => blamed_tooDeep, blamed_tooDeep⟩
  | succ fuel ih =>
    rw [Steps.plain_succ]
    exact ⟨(blamed_aroundStatement ih).nested, (blamed_aroundAssignment ih).nested,
      fun level => (blamed_aroundClimb ih level).restoring, blamed_aroundChain ih,
      blamed_aroundUnary ih ih.unary.nested, blamed_aroundSuffixes ih, blamed_aroundPrimary ih⟩

/-- **Tokens that are no program are refused with an error at one of them or at the end.** -/
theorem faulty_of_program {lexed : Lexed} {e : SyntaxError} (h : program lexed = .error e) :
    lexed.Faulty e := by
  unfold program at h
  cases hmove : Cursor.moveTo ⟨lexed.tokens, lexed.ending, 0⟩ lexed.tokens with
  | error e' =>
    rw [hmove] at h
    obtain rfl : e' = e := by cases h; rfl
    unfold Cursor.moveTo at hmove
    split at hmove
    · next hending =>
      cases hmove
      exact .lexical hending
    · cases hmove
  | ok cursor =>
    have inside : cursor.Inside lexed := by
      unfold Cursor.moveTo at hmove
      split at hmove
      · cases hmove
      · next hopen =>
        cases hmove
        refine ⟨List.suffix_rfl, rfl, fun hnil => ?_⟩
        cases hending : lexed.ending with
        | complete position newline => exact ⟨_, _, rfl⟩
        | failed e' => exact absurd hending (hopen e' hnil)
    rw [hmove] at h
    simp only [bind, Except.bind] at h
    have hstatement : Blamed lexed (statement recursionFuel) :=
      (blamed_plain lexed recursionFuel).statement
    have hblamed := blamed_statementsWithin hstatement (lexed.tokens.length + 1) cursor inside trivial
    split at h
    · cases h
    · next e' after hfailed =>
      cases h
      rwa [hfailed] at hblamed

end Formulary.Source
