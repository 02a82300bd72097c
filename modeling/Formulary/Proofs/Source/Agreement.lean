import Formulary.Source.Grammar

/-!
# Readings that agree

What is read depends on the kinds of the tokens and on the line breaks before them, and not on where
they stand. More room in the nesting budget, or more fuel, changes nothing but that a reading which
was too deep goes on.

* `Token.aspect`, `SyntaxError.unplaced` : what the grammar sees of a token, and an error without
  its position;
* `Cursor.Roomier` : cursors before the same, the second one with at least as much room;
* `Agrees` : steps that come to the same at such cursors, unless the first one finds no room;
* `agrees_recursion` : every construct of the grammar does;
* `program_congr` : the program of tokens depends on their aspects only.
-/

namespace Formulary

/-- An error without its position. -/
def SyntaxError.unplaced : SyntaxError → SyntaxError
  | .unexpectedToken token _ => .unexpectedToken token 0
  | .unexpectedEnd expected => .unexpectedEnd expected
  | .unclosedString _ => .unclosedString 0
  | .unclosedComment _ => .unclosedComment 0
  | .invalidNumber literal _ => .invalidNumber literal 0
  | .invalidEscape sequence _ => .invalidEscape sequence 0
  | .invalidTarget _ => .invalidTarget 0
  | .nestingTooDeep limit _ => .nestingTooDeep limit 0

namespace Source

/-- What the grammar sees of a token: its kind, and whether a line feed precedes it. -/
def Token.aspect (token : Token) : TokenKind × Bool :=
  (token.kind, token.newlineBefore)

/-- Why a text cannot be read to its end, without the position. -/
def Ending.fault? : Ending → Option SyntaxError
  | .complete _ _ => none
  | .failed e => some e.unplaced

/-- Whether a cursor stands before the same as another one, which has at least as much room in the
nesting budget. -/
structure Cursor.Roomier (cursor other : Cursor) : Prop where
  tokens : cursor.tokens.map Token.aspect = other.tokens.map Token.aspect
  ending : cursor.ending.fault? = other.ending.fault?
  depth : other.depth ≤ cursor.depth

section Roomier

variable {cursor other : Cursor}

theorem Cursor.Roomier.length (h : cursor.Roomier other) :
    cursor.tokens.length = other.tokens.length := by
  simpa using congrArg List.length h.tokens

theorem Cursor.Roomier.tail (h : cursor.Roomier other) :
    cursor.tokens.tail.map Token.aspect = other.tokens.tail.map Token.aspect := by
  rw [List.map_tail, List.map_tail, h.tokens]

/-- A part of the current token that the grammar sees. -/
theorem Cursor.Roomier.head {γ : Type} (h : cursor.Roomier other) (part : TokenKind × Bool → γ) :
    cursor.tokens.head?.map (fun token => part token.aspect) =
      other.tokens.head?.map (fun token => part token.aspect) := by
  have hhead := congrArg (fun aspects => aspects.head?.map part) h.tokens
  simpa [List.head?_map, Function.comp_def] using hhead

end Roomier

/-! ## Steps -/

/-- Outcomes of a step at a cursor and of a step at a roomier one: related answers before the same,
or the same error, or an error for lack of room in the first place. -/
inductive Agreeing {α β : Type} (r : α → β → Prop) :
    EStateM.Result SyntaxError Cursor α → EStateM.Result SyntaxError Cursor β → Prop where
  | ok {a : α} {b : β} {after after' : Cursor} (answers : r a b) (room : after.Roomier after') :
      Agreeing r (.ok a after) (.ok b after')
  | error {e e' : SyntaxError} {after after' : Cursor} (same : e.unplaced = e'.unplaced) :
      Agreeing r (.error e after) (.error e' after')
  | tooDeep (position : Nat) (after : Cursor) (result : EStateM.Result SyntaxError Cursor β) :
      Agreeing r (.error (.nestingTooDeep nestingLimit position) after) result

/-- Whether a step and another one, begun with at least as much room, come to the same unless the
first one finds no room. -/
def Agrees {α β : Type} (r : α → β → Prop) (step : Parse α) (step' : Parse β) : Prop :=
  ∀ cursor other, cursor.Roomier other → Agreeing r (step cursor) (step' other)

section Steps

variable {α β γ δ : Type} {r : α → β → Prop} {s : γ → δ → Prop}

theorem agrees_pure {a : α} {b : β} (h : r a b) : Agrees r (pure a) (pure b) :=
  fun _ _ room => .ok h room

theorem agrees_throw {e e' : SyntaxError} (h : e.unplaced = e'.unplaced) :
    Agrees r (throw e : Parse α) (throw e' : Parse β) :=
  fun _ _ _ => .error h

theorem Agrees.bind {step : Parse α} {step' : Parse β} {next : α → Parse γ} {next' : β → Parse δ}
    (first : Agrees r step step') (second : ∀ a b, r a b → Agrees s (next a) (next' b)) :
    Agrees s (step >>= next) (step' >>= next') := by
  intro cursor other room
  show Agreeing s (EStateM.bind step next cursor) (EStateM.bind step' next' other)
  have hfirst := first cursor other room
  unfold EStateM.bind
  generalize step cursor = result at *
  generalize step' other = result' at *
  cases hfirst with
  | ok answers room => exact second _ _ answers _ _ room
  | error same => exact .error same
  | tooDeep position after _ => exact .tooDeep position after _

/-- A step behind steps with the same answer. -/
theorem Agrees.next {step step' : Parse α} {next : α → Parse γ} {next' : α → Parse δ}
    (first : Agrees Eq step step') (second : ∀ a, Agrees s (next a) (next' a)) :
    Agrees s (step >>= next) (step' >>= next') := by
  refine first.bind ?_
  rintro a _ rfl
  exact second a

/-! ### Looking at tokens -/

theorem agrees_peek : Agrees Eq peek peek :=
  fun _ _ room => .ok (room.head Prod.fst) room

theorem agrees_newlineBefore : Agrees Eq newlineBefore newlineBefore :=
  fun _ _ room => .ok (congrArg (·.getD false) (room.head Prod.snd)) room

theorem agrees_rounds : Agrees Eq rounds rounds :=
  fun _ _ room => .ok (congrArg (· + 1) room.length) room

/-- Positions differ, so that nothing but errors may depend on them. -/
theorem agrees_position : Agrees (fun _ _ => True) position position :=
  fun _ _ room => .ok trivial room

theorem agrees_throwAt {e : Nat → SyntaxError}
    (h : ∀ position position', (e position).unplaced = (e position').unplaced) :
    Agrees r (do throw (e (← position)) : Parse α) (do throw (e (← position)) : Parse β) :=
  agrees_position.bind fun position position' _ => agrees_throw (h position position')

theorem agrees_advance : Agrees Eq advance advance := by
  intro cursor other room
  obtain ⟨tokens, ending, depth⟩ := cursor
  obtain ⟨tokens', ending', depth'⟩ := other
  have htail := room.tail
  have hending := room.ending
  unfold advance Cursor.moveTo
  dsimp only at htail hending ⊢
  generalize tokens.tail = rest at *
  generalize tokens'.tail = rest' at *
  cases rest with
  | nil =>
    obtain rfl : rest' = [] := List.map_eq_nil_iff.mp htail.symm
    cases ending <;> cases ending' <;> simp only [Ending.fault?, reduceCtorEq] at hending
    · exact .ok rfl ⟨rfl, rfl, room.depth⟩
    · exact .error (Option.some.inj hending)
  | cons token rest =>
    obtain ⟨token', rest', rfl, -, -⟩ := List.map_eq_cons_iff.mp htail.symm
    exact .ok rfl ⟨htail, hending, room.depth⟩

theorem agrees_unexpected (expected : String) :
    Agrees r (unexpected expected : Parse α) (unexpected expected : Parse β) := by
  refine agrees_peek.next fun kind => ?_
  cases kind with
  | some kind => exact agrees_throwAt fun _ _ => rfl
  | none => exact agrees_throw rfl

theorem agrees_atSign (sign : Symbol) : Agrees Eq (atSign sign) (atSign sign) :=
  agrees_peek.next fun _ => agrees_pure rfl

theorem agrees_atWord (word : Keyword) : Agrees Eq (atWord word) (atWord word) :=
  agrees_peek.next fun _ => agrees_pure rfl

theorem agrees_expectSign (sign : Symbol) : Agrees Eq (expectSign sign) (expectSign sign) := by
  refine (agrees_atSign sign).next fun found => ?_
  split
  · exact agrees_advance
  · exact agrees_unexpected _

/-- What is read off the current token, which is left behind. -/
theorem agrees_taken (a : α) : Agrees Eq (do advance; return a) (do advance; return a) :=
  agrees_advance.next fun _ => agrees_pure rfl

theorem agrees_identifier : Agrees Eq identifier identifier := by
  refine agrees_peek.next fun kind => ?_
  split
  · exact agrees_taken _
  · exact agrees_unexpected _

theorem agrees_endStatement : Agrees Eq endStatement endStatement := by
  refine agrees_peek.next fun kind => ?_
  split
  · exact agrees_advance
  · exact agrees_pure rfl
  · exact agrees_pure rfl
  · refine agrees_newlineBefore.next fun newline => ?_
    split
    · exact agrees_pure rfl
    · exact agrees_unexpected _

/-! ### The nesting budget -/

/-- A step that finds no room agrees with every other one. -/
theorem agrees_tooDeep (step : Parse β) : Agrees r (tooDeep : Parse α) step :=
  fun _ _ _ => .tooDeep _ _ _

theorem agrees_descend (cost : Nat) : Agrees Eq (descend cost) (descend cost) := by
  intro cursor other room
  show Agreeing Eq
    ((if nestingLimit < cursor.depth + cost then tooDeep
      else set { cursor with depth := cursor.depth + cost } : Parse Unit) cursor)
    ((if nestingLimit < other.depth + cost then tooDeep
      else set { other with depth := other.depth + cost } : Parse Unit) other)
  have hdepth := room.depth
  by_cases h : nestingLimit < cursor.depth + cost
  · rw [if_pos h]
    exact .tooDeep _ _ _
  · rw [if_neg h, if_neg (by omega)]
    exact .ok rfl ⟨room.tokens, room.ending, Nat.add_le_add_right hdepth cost⟩

theorem Agrees.restoring {step : Parse α} {step' : Parse β} (h : Agrees r step step') :
    Agrees r (restoring step) (restoring step') := by
  intro cursor other room
  have hstep := h cursor other room
  unfold Source.restoring
  generalize step cursor = result at *
  generalize step' other = result' at *
  cases hstep with
  | ok answers inner => exact .ok answers ⟨inner.tokens, inner.ending, room.depth⟩
  | error same => exact .error same
  | tooDeep position after _ => exact .tooDeep position _ _

theorem Agrees.nested {step : Parse α} {step' : Parse β} (h : Agrees r step step') :
    Agrees r (nested step) (nested step') :=
  ((agrees_descend descentCost).next fun _ => h).restoring

end Steps

/-! ### Repetitions -/

section Repetitions

variable {α : Type} {item item' : Parse α} {value value' : Parse Expr}
  {statement statement' : Parse Stmt}

theorem agrees_commaList (close : Symbol) (h : Agrees Eq item item') :
    Agrees Eq (commaList close item) (commaList close item') := by
  have hwithin : ∀ fuel, Agrees Eq (commaListWithin close item fuel)
      (commaListWithin close item' fuel) := by
    intro fuel
    induction fuel with
    | zero => exact agrees_pure rfl
    | succ fuel ih =>
      refine (agrees_atSign close).next fun closed => ?_
      split
      · exact agrees_pure rfl
      · refine h.next fun first => (agrees_atSign .comma).next fun more => ?_
        split
        · exact agrees_advance.next fun _ => ih.next fun _ => agrees_pure rfl
        · exact agrees_pure rfl
  exact agrees_rounds.next fun fuel => (hwithin fuel).next fun _ =>
    (agrees_expectSign close).next fun _ => agrees_pure rfl

theorem agrees_block (h : Agrees Eq statement statement') :
    Agrees Eq (block statement) (block statement') := by
  have hwithin : ∀ fuel, Agrees Eq (blockWithin statement fuel) (blockWithin statement' fuel) := by
    intro fuel
    induction fuel with
    | zero => exact agrees_pure rfl
    | succ fuel ih =>
      refine (agrees_atSign .closeBrace).next fun closed => ?_
      split
      · exact agrees_pure rfl
      · refine agrees_peek.next fun kind => ?_
        have hrest : Agrees Eq (do return (← statement) :: (← blockWithin statement fuel))
            (do return (← statement') :: (← blockWithin statement' fuel)) :=
          h.next fun _ => ih.next fun _ => agrees_pure rfl
        split
        · exact (agrees_unexpected (r := Eq) _).next fun _ => hrest
        · exact hrest
  exact (agrees_expectSign _).next fun _ => agrees_rounds.next fun fuel =>
    (hwithin fuel).next fun _ => (agrees_expectSign _).next fun _ => agrees_pure rfl

theorem agrees_statementsWithin (h : Agrees Eq statement statement') (fuel : Nat) :
    Agrees Eq (statementsWithin statement fuel) (statementsWithin statement' fuel) := by
  induction fuel with
  | zero => exact agrees_pure rfl
  | succ fuel ih =>
    refine agrees_peek.next fun kind => ?_
    split
    · exact agrees_pure rfl
    · exact h.next fun _ => ih.next fun _ => agrees_pure rfl

theorem agrees_declaration (h : Agrees Eq value value') :
    Agrees Eq (declaration value) (declaration value') := by
  have hdeclarator : Agrees Eq (declarator value) (declarator value') := by
    refine agrees_identifier.next fun name => (agrees_atSign .assign).next fun initial => ?_
    split
    · exact agrees_advance.next fun _ => h.next fun _ => agrees_pure rfl
    · exact agrees_pure rfl
  have hwithin : ∀ fuel, Agrees Eq (declaratorsWithin value fuel)
      (declaratorsWithin value' fuel) := by
    intro fuel
    induction fuel with
    | zero => exact agrees_pure rfl
    | succ fuel ih =>
      refine hdeclarator.next fun first => (agrees_atSign .comma).next fun more => ?_
      split
      · exact agrees_advance.next fun _ => ih.next fun _ => agrees_pure rfl
      · exact agrees_pure rfl
  exact agrees_advance.next fun _ => agrees_rounds.next fun fuel =>
    (hwithin fuel).next fun _ => agrees_pure rfl

end Repetitions

/-! ## Constructs around their parts -/

section Parts

variable {expression expression' branch branch' value value' : Parse Expr}
  {statement statement' : Parse Stmt}

theorem agrees_stringValue (raw : String) : Agrees Eq (stringValue raw) (stringValue raw) := by
  unfold stringValue
  split
  · exact agrees_pure rfl
  · exact agrees_throwAt fun _ _ => rfl

theorem agrees_numberValue (text : String) :
    Agrees Eq (numberValue text) (numberValue text) := by
  unfold numberValue
  split
  · exact agrees_pure rfl
  · exact agrees_throwAt fun _ _ => rfl

theorem agrees_propertyName : Agrees Eq propertyName propertyName := by
  refine agrees_peek.next fun kind => ?_
  split
  · exact agrees_taken _
  · exact agrees_taken _
  · exact agrees_unexpected _

theorem agrees_propertyKey : Agrees Eq propertyKey propertyKey := by
  refine agrees_peek.next fun kind => ?_
  split
  · exact agrees_taken _
  · exact agrees_taken _
  · exact (agrees_stringValue _).next fun _ => agrees_taken _
  · exact agrees_taken _
  · exact agrees_unexpected _

theorem agrees_property (h : Agrees Eq value value') :
    Agrees Eq (property value) (property value') :=
  agrees_propertyKey.next fun _ => (agrees_expectSign _).next fun _ => h.next fun _ =>
    agrees_pure rfl

theorem agrees_functionDef (h : Agrees Eq statement statement') :
    Agrees Eq (functionDef statement) (functionDef statement') := by
  have hrest : ∀ name, Agrees Eq (do
      expectSign .openParen
      let parameters ← commaList .closeParen identifier
      return FunctionDef.mk name parameters (← block statement)) (do
      expectSign .openParen
      let parameters ← commaList .closeParen identifier
      return FunctionDef.mk name parameters (← block statement')) := fun name =>
    (agrees_expectSign _).next fun _ => (agrees_commaList _ agrees_identifier).next fun _ =>
      (agrees_block h).next fun _ => agrees_pure rfl
  refine agrees_advance.next fun _ => agrees_peek.next fun kind => ?_
  split
  · exact agrees_advance.next fun _ => hrest _
  · exact hrest _

theorem agrees_parenthesized (h : Agrees Eq expression expression') :
    Agrees Eq (parenthesized expression) (parenthesized expression') :=
  (agrees_expectSign _).next fun _ => h.next fun _ => (agrees_expectSign _).next fun _ =>
    agrees_pure rfl

theorem agrees_conditional (h : Agrees Eq expression expression')
    (hbranch : Agrees Eq branch branch') :
    Agrees Eq (conditional expression branch) (conditional expression' branch') := by
  refine h.next fun test => (agrees_atSign .question).next fun question => ?_
  split
  · exact agrees_advance.next fun _ => hbranch.next fun _ => (agrees_expectSign _).next fun _ =>
      hbranch.next fun _ => agrees_pure rfl
  · exact agrees_pure rfl

theorem agrees_assignmentTo (h : Agrees Eq expression expression')
    (hvalue : Agrees Eq value value') :
    Agrees Eq (assignmentTo expression value) (assignmentTo expression' value') := by
  refine h.next fun target => agrees_peek.next fun kind => ?_
  split
  · exact agrees_pure rfl
  · split
    · exact agrees_advance.next fun _ => hvalue.next fun _ => agrees_pure rfl
    · exact agrees_throwAt fun _ _ => rfl

theorem agrees_updateBefore (op : UpdateOp) (h : Agrees Eq expression expression') :
    Agrees Eq (updateBefore op expression) (updateBefore op expression') := by
  refine agrees_position.bind fun _ _ _ => agrees_advance.next fun _ => h.next fun target => ?_
  split
  · exact agrees_pure rfl
  · exact agrees_throw rfl

theorem agrees_updateBehind (op : UpdateOp) (target : Expr) :
    Agrees Eq (updateBehind op target) (updateBehind op target) := by
  unfold updateBehind
  split
  · exact agrees_taken _
  · exact agrees_throwAt fun _ _ => rfl

theorem agrees_updateSuffix (op : UpdateOp) (target : Expr) :
    Agrees Eq (do if ← newlineBefore then return target else updateBehind op target)
      (do if ← newlineBefore then return target else updateBehind op target) := by
  refine agrees_newlineBefore.next fun newline => ?_
  split
  · exact agrees_pure rfl
  · exact agrees_updateBehind op target

theorem agrees_unaryOf (op : UnaryOp) (h : Agrees Eq expression expression') :
    Agrees Eq (unaryOf op expression) (unaryOf op expression') :=
  agrees_advance.next fun _ => h.next fun _ => agrees_pure rfl

/-! ### Statements -/

theorem agrees_declarationStatement (h : Agrees Eq value value') :
    Agrees Eq (declarationStatement value) (declarationStatement value') :=
  (agrees_declaration h).next fun _ => agrees_endStatement.next fun _ => agrees_pure rfl

theorem agrees_ifStatement (h : Agrees Eq expression expression')
    (hstatement : Agrees Eq statement statement') :
    Agrees Eq (ifStatement expression statement) (ifStatement expression' statement') := by
  refine agrees_advance.next fun _ => (agrees_parenthesized h).next fun test =>
    hstatement.next fun consequent => (agrees_atWord _).next fun found => ?_
  split
  · exact agrees_advance.next fun _ => hstatement.next fun _ => agrees_pure rfl
  · exact agrees_pure rfl

theorem agrees_whileStatement (h : Agrees Eq expression expression')
    (hstatement : Agrees Eq statement statement') :
    Agrees Eq (whileStatement expression statement) (whileStatement expression' statement') :=
  agrees_advance.next fun _ => (agrees_parenthesized h).next fun _ => hstatement.next fun _ =>
    agrees_pure rfl

theorem agrees_optionalBefore (sign : Symbol) (h : Agrees Eq expression expression') :
    Agrees Eq (optionalBefore sign expression) (optionalBefore sign expression') := by
  refine (agrees_atSign sign).next fun found => ?_
  split
  · exact agrees_pure rfl
  · exact h.next fun _ => agrees_pure rfl

theorem agrees_forStart (h : Agrees Eq expression expression') :
    Agrees Eq (forStart expression) (forStart expression') := by
  refine agrees_peek.next fun kind => ?_
  split
  · exact agrees_pure rfl
  · exact (agrees_declaration h).next fun _ => agrees_pure rfl
  · exact (agrees_declaration h).next fun _ => agrees_pure rfl
  · exact (agrees_declaration h).next fun _ => agrees_pure rfl
  · exact h.next fun _ => agrees_pure rfl

theorem agrees_forStatement (h : Agrees Eq expression expression')
    (hstatement : Agrees Eq statement statement') :
    Agrees Eq (forStatement expression statement) (forStatement expression' statement') :=
  agrees_advance.next fun _ => (agrees_expectSign _).next fun _ => (agrees_forStart h).next fun _ =>
    (agrees_expectSign _).next fun _ => (agrees_optionalBefore _ h).next fun _ =>
      (agrees_expectSign _).next fun _ => (agrees_optionalBefore _ h).next fun _ =>
        (agrees_expectSign _).next fun _ => hstatement.next fun _ => agrees_pure rfl

theorem agrees_returnStatement (h : Agrees Eq expression expression') :
    Agrees Eq (returnStatement expression) (returnStatement expression') := by
  have hrest : ∀ value, Agrees Eq (do endStatement; return Stmt.ret value)
      (do endStatement; return Stmt.ret value) := fun _ =>
    agrees_endStatement.next fun _ => agrees_pure rfl
  refine agrees_advance.next fun _ => agrees_peek.next fun kind => ?_
  split
  · exact hrest none
  · exact hrest none
  · exact hrest none
  · refine agrees_newlineBefore.next fun newline => ?_
    split
    · exact hrest none
    · have hvalue : Agrees Eq (some <$> expression) (some <$> expression') := by
        rw [map_eq_pure_bind, map_eq_pure_bind]
        exact h.next fun _ => agrees_pure rfl
      exact hvalue.next hrest

theorem agrees_functionStatement {suffixes suffixes' : Expr → Parse Expr}
    (hstatement : Agrees Eq statement statement')
    (h : ∀ value, Agrees Eq (suffixes value) (suffixes' value)) :
    Agrees Eq (functionStatement statement suffixes) (functionStatement statement' suffixes') := by
  refine (agrees_functionDef hstatement).next fun definition => ?_
  split
  · exact agrees_pure rfl
  · exact (h _).next fun _ => agrees_endStatement.next fun _ => agrees_pure rfl

theorem agrees_expressionStatement (h : Agrees Eq expression expression') :
    Agrees Eq (expressionStatement expression) (expressionStatement expression') :=
  h.next fun _ => agrees_endStatement.next fun _ => agrees_pure rfl

theorem agrees_wordStatement (result : Stmt) :
    Agrees Eq (wordStatement result) (wordStatement result) :=
  agrees_advance.next fun _ => agrees_endStatement.next fun _ => agrees_pure rfl

end Parts

/-! ## The grammar -/

/-- Every construct of the grammar agrees with itself under other fuel. -/
structure AgreesWithin (fuel fuel' : Nat) : Prop where
  statement : Agrees Eq (statement fuel) (statement fuel')
  assignment : Agrees Eq (assignment fuel) (assignment fuel')
  climb : ∀ level, Agrees Eq (climb fuel level) (climb fuel' level)
  chain : ∀ level left, Agrees Eq (chain fuel level left) (chain fuel' level left)
  unary : Agrees Eq (unary fuel) (unary fuel')
  suffixes : ∀ value, Agrees Eq (suffixes fuel value) (suffixes fuel' value)
  primary : Agrees Eq (primary fuel) (primary fuel')

section Recursion

variable {fuel fuel' : Nat}

theorem agrees_statement (h : AgreesWithin fuel fuel') :
    Agrees Eq (statement (fuel + 1)) (statement (fuel' + 1)) := by
  refine Agrees.nested (agrees_peek.next fun kind => ?_)
  split
  · exact agrees_unexpected _
  · exact agrees_taken _
  · exact (agrees_block h.statement).next fun _ => agrees_pure rfl
  · exact agrees_declarationStatement h.assignment
  · exact agrees_declarationStatement h.assignment
  · exact agrees_declarationStatement h.assignment
  · exact agrees_functionStatement h.statement fun value => (h.suffixes value).restoring
  · exact agrees_returnStatement h.assignment
  · exact agrees_ifStatement h.assignment h.statement
  · exact agrees_whileStatement h.assignment h.statement
  · exact agrees_forStatement h.assignment h.statement
  · exact agrees_wordStatement _
  · exact agrees_wordStatement _
  · exact agrees_expressionStatement h.assignment

theorem agrees_chain (h : AgreesWithin fuel fuel') (level : Nat) (left : Expr) :
    Agrees Eq (chain (fuel + 1) level left) (chain (fuel' + 1) level left) := by
  refine agrees_peek.next fun kind => ?_
  split
  · exact agrees_pure rfl
  · split
    · exact agrees_pure rfl
    · exact (agrees_descend _).next fun _ => agrees_advance.next fun _ =>
        (h.climb _).next fun _ => h.chain level _

theorem agrees_unary (h : AgreesWithin fuel fuel') :
    Agrees Eq (unary (fuel + 1)) (unary (fuel' + 1)) := by
  refine agrees_peek.next fun kind => ?_
  split
  · exact agrees_unaryOf _ h.unary.nested
  · exact agrees_unaryOf _ h.unary.nested
  · exact agrees_unaryOf _ h.unary.nested
  · exact agrees_unaryOf _ h.unary.nested
  · exact agrees_updateBefore _ h.unary.nested
  · exact agrees_updateBefore _ h.unary.nested
  · exact h.primary.next fun value => (h.suffixes value).restoring

theorem agrees_suffixes (h : AgreesWithin fuel fuel') (value : Expr) :
    Agrees Eq (suffixes (fuel + 1) value) (suffixes (fuel' + 1) value) := by
  refine agrees_peek.next fun kind => ?_
  split
  · exact (agrees_descend _).next fun _ => agrees_advance.next fun _ =>
      agrees_propertyName.next fun _ => h.suffixes _
  · exact (agrees_descend _).next fun _ => agrees_advance.next fun _ =>
      h.assignment.next fun _ => (agrees_expectSign _).next fun _ => h.suffixes _
  · exact (agrees_descend _).next fun _ => agrees_advance.next fun _ =>
      (agrees_commaList _ h.assignment).next fun _ => h.suffixes _
  · exact agrees_updateSuffix _ value
  · exact agrees_updateSuffix _ value
  · exact agrees_pure rfl

theorem agrees_primary (h : AgreesWithin fuel fuel') :
    Agrees Eq (primary (fuel + 1)) (primary (fuel' + 1)) := by
  refine agrees_peek.next fun kind => ?_
  split
  · exact (agrees_numberValue _).next fun _ => agrees_taken _
  · exact (agrees_stringValue _).next fun _ => agrees_taken _
  · exact agrees_taken _
  · exact agrees_taken _
  · exact agrees_taken _
  · exact agrees_taken _
  · exact (agrees_functionDef h.statement).next fun _ => agrees_pure rfl
  · exact agrees_taken _
  · exact agrees_parenthesized h.assignment
  · exact agrees_advance.next fun _ => (agrees_commaList _ h.assignment).next fun _ =>
      agrees_pure rfl
  · exact agrees_advance.next fun _ =>
      (agrees_commaList _ (agrees_property h.assignment)).next fun _ => agrees_pure rfl
  · exact agrees_unexpected _

/-- **Every construct of the grammar comes to the same with more fuel,** unless it finds no room. -/
theorem agrees_recursion (h : fuel ≤ fuel') : AgreesWithin fuel fuel' := by
  induction fuel generalizing fuel' with
  | zero =>
    exact ⟨agrees_tooDeep _, agrees_tooDeep _, fun _ => agrees_tooDeep _,
      fun _ _ => agrees_tooDeep _, agrees_tooDeep _, fun _ => agrees_tooDeep _, agrees_tooDeep _⟩
  | succ fuel ih =>
    obtain ⟨fuel', rfl⟩ := Nat.exists_eq_add_one_of_ne_zero (by omega : fuel' ≠ 0)
    have hih := ih (by omega : fuel ≤ fuel')
    exact ⟨agrees_statement hih,
      .nested
        (agrees_assignmentTo (agrees_conditional (hih.climb _) hih.assignment) hih.assignment),
      fun level => .restoring (hih.unary.next fun left => hih.chain level left),
      agrees_chain hih, agrees_unary hih, agrees_suffixes hih, agrees_primary hih⟩

end Recursion

/-! ## Programs -/

/-- Steps that agree both ways come to the same where there is the same room. -/
theorem Agrees.run {α : Type} {step step' : Parse α} (there : Agrees Eq step step')
    (back : Agrees Eq step' step) {cursor other : Cursor} (room : cursor.Roomier other)
    (room' : other.Roomier cursor) :
    (∃ a after after', step cursor = .ok a after ∧ step' other = .ok a after') ∨
      ∃ e e' after after', step cursor = .error e after ∧ step' other = .error e' after' ∧
        e.unplaced = e'.unplaced := by
  have hthere := there cursor other room
  have hback := back other cursor room'
  generalize step cursor = result at *
  generalize step' other = result' at *
  cases hthere with
  | ok answers _ =>
    cases answers
    exact .inl ⟨_, _, _, rfl, rfl⟩
  | error same => exact .inr ⟨_, _, _, _, rfl, rfl, same⟩
  | tooDeep position after _ =>
    cases hback with
    | error same => exact .inr ⟨_, _, _, _, rfl, rfl, same.symm⟩
    | tooDeep position' after' _ => exact .inr ⟨_, _, _, _, rfl, rfl, rfl⟩

/-- The program that the statements up to the end are. -/
theorem program_eq (lexed : Lexed) (h : lexed.tokens ≠ [] ∨ lexed.ending.fault? = none) :
    program lexed =
      match statementsWithin (statement recursionFuel) (lexed.tokens.length + 1)
        ⟨lexed.tokens, lexed.ending, 0⟩ with
      | .ok body _ => .ok ⟨body⟩
      | .error e _ => .error e := by
  obtain ⟨tokens, ending⟩ := lexed
  cases tokens with
  | cons token tokens => rfl
  | nil =>
    cases ending with
    | complete position newline => rfl
    | failed e => simp [Ending.fault?] at h

/-- **The program of tokens depends on their kinds and the line breaks before them only,** and so
does the error where there is none, up to its position. -/
theorem program_congr {lexed lexed' : Lexed}
    (tokens : lexed.tokens.map Token.aspect = lexed'.tokens.map Token.aspect)
    (ending : lexed.ending.fault? = lexed'.ending.fault?) :
    (program lexed).mapError SyntaxError.unplaced =
      (program lexed').mapError SyntaxError.unplaced := by
  have hempty : lexed.tokens = [] ↔ lexed'.tokens = [] := by
    rw [← List.map_eq_nil_iff (f := Token.aspect), tokens, List.map_eq_nil_iff]
  by_cases h : lexed.tokens ≠ [] ∨ lexed.ending.fault? = none
  · have h' : lexed'.tokens ≠ [] ∨ lexed'.ending.fault? = none := by
      rwa [Ne, ← hempty, ← ending]
    have room : Cursor.Roomier ⟨lexed.tokens, lexed.ending, 0⟩ ⟨lexed'.tokens, lexed'.ending, 0⟩ :=
      ⟨tokens, ending, Nat.le_refl 0⟩
    have hstep := agrees_statementsWithin (agrees_recursion (Nat.le_refl recursionFuel)).statement
      (lexed.tokens.length + 1)
    rw [program_eq lexed h, program_eq lexed' h', ← show lexed.tokens.length =
      lexed'.tokens.length from room.length]
    obtain ⟨body, _, _, hrun, hrun'⟩ | ⟨e, e', _, _, hrun, hrun', same⟩ :=
      hstep.run hstep room ⟨tokens.symm, ending.symm, Nat.le_refl 0⟩
    · rw [hrun, hrun']
    · rw [hrun, hrun']
      exact congrArg Except.error same
  · -- Neither text has a token, and both end in an error.
    obtain ⟨all, last⟩ := lexed
    obtain ⟨all', last'⟩ := lexed'
    obtain ⟨rfl, hfault⟩ : all = [] ∧ last.fault? ≠ none := by simpa using h
    obtain rfl : all' = [] := hempty.mp rfl
    cases last <;> cases last' <;> simp only [Ending.fault?, reduceCtorEq, Option.some.injEq]
      at ending hfault
    · exact absurd rfl hfault
    · exact congrArg Except.error ending

end Source

end Formulary
