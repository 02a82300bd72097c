import Formulary.Source.Grammar

/-!
# The nesting budget is kept

What a construct takes from the nesting budget is given back when it has been read, and also when it
has not. So the number of descents that are active is known from the way a construct has been come
to. Here the grammar is read with this number at hand: it is compared with the depth of the cursor at
every construct, and a descent gives back what it has taken, rather than setting the depth to what it
was.

* `Steps`, `Steps.plain_succ` : the grammar as steps around what is inside them;
* `Cursor.Within` : cursors at which some descents may be active;
* `metered`, `meteredProgram` : reading that ends with an error of its own where there is no such
  cursor, where a depth is not given back, or where the fuel is used up;
* `Still`, `Balances` : steps that leave the depth as it was, and ones that come to the same besides;
* `metersWithin`, `meteredProgram_eq` : with enough fuel, metered reading is reading.
-/

namespace Formulary.Source

/-! ## The grammar around what is inside -/

/-- A reading step for each construct. -/
structure Steps where
  statement : Parse Stmt
  assignment : Parse Expr
  climb : Nat → Parse Expr
  chain : Nat → Expr → Parse Expr
  unary : Parse Expr
  suffixes : Expr → Parse Expr
  primary : Parse Expr

namespace Steps

/-- The grammar with some fuel. -/
def plain (fuel : Nat) : Steps :=
  ⟨Source.statement fuel, Source.assignment fuel, Source.climb fuel, Source.chain fuel,
    Source.unary fuel, Source.suffixes fuel, Source.primary fuel⟩

/-- Nothing is read. -/
def failing (fail : {α : Type} → Parse α) : Steps :=
  ⟨fail, fail, fun _ => fail, fun _ _ => fail, fail, fun _ => fail, fail⟩

variable (inside : Steps)

/-- Suffixes with the depth as it was behind them. -/
def suffixed (value : Expr) : Parse Expr :=
  restoring (inside.suffixes value)

/-- A statement, one level further inside. -/
def aroundStatement : Parse Stmt := do
  match ← peek with
  | none => unexpected "statement"
  | some (.symbol .semicolon) =>
    advance
    return .empty
  | some (.symbol .openBrace) => return .block (← block inside.statement)
  | some (.keyword .varWord) => declarationStatement inside.assignment
  | some (.keyword .letWord) => declarationStatement inside.assignment
  | some (.keyword .constWord) => declarationStatement inside.assignment
  | some (.keyword .function) => functionStatement inside.statement inside.suffixed
  | some (.keyword .ret) => returnStatement inside.assignment
  | some (.keyword .ifWord) => ifStatement inside.assignment inside.statement
  | some (.keyword .whileWord) => whileStatement inside.assignment inside.statement
  | some (.keyword .forWord) => forStatement inside.assignment inside.statement
  | some (.keyword .breakWord) => wordStatement .breakLoop
  | some (.keyword .continueWord) => wordStatement .continueLoop
  | some _ => expressionStatement inside.assignment

/-- An expression of any kind, one level further inside. -/
def aroundAssignment : Parse Expr :=
  assignmentTo (conditional (inside.climb loosestLevel) inside.assignment) inside.assignment

/-- An operand and the chain behind it. -/
def aroundClimb (level : Nat) : Parse Expr := do
  let left ← inside.unary
  inside.chain level left

/-- A link of a chain and those behind it. -/
def aroundChain (level : Nat) (left : Expr) : Parse Expr := do
  match (← peek).bind fun | .symbol sign => sign.connective? | _ => none with
  | none => return left
  | some connective =>
    if connective.level < level then return left
    descend linkCost
    advance
    let right ← inside.climb (connective.level + 1)
    inside.chain level (connective.join left right)

/-- An operand with the operators before it; `nested` is an operand one level further inside. -/
def aroundUnary (nested : Parse Expr) : Parse Expr := do
  match ← peek with
  | some (.symbol .not) => unaryOf .not nested
  | some (.symbol .minus) => unaryOf .minus nested
  | some (.symbol .plus) => unaryOf .plus nested
  | some (.keyword .typeOf) => unaryOf .typeOf nested
  | some (.symbol .increment) => updateBefore .increment nested
  | some (.symbol .decrement) => updateBefore .decrement nested
  | _ =>
    let value ← inside.primary
    inside.suffixed value

/-- A suffix and those behind it. -/
def aroundSuffixes (value : Expr) : Parse Expr := do
  match ← peek with
  | some (.symbol .dot) =>
    descend linkCost
    advance
    let name ← propertyName
    inside.suffixes (.member value name)
  | some (.symbol .openBracket) =>
    descend linkCost
    advance
    let key ← inside.assignment
    expectSign .closeBracket
    inside.suffixes (.index value key)
  | some (.symbol .openParen) =>
    descend linkCost
    advance
    let arguments ← commaList .closeParen inside.assignment
    inside.suffixes (.call value arguments)
  | some (.symbol .increment) =>
    if ← newlineBefore then return value else updateBehind .increment value
  | some (.symbol .decrement) =>
    if ← newlineBefore then return value else updateBehind .decrement value
  | _ => return value

/-- An expression without operators around it. -/
def aroundPrimary : Parse Expr := do
  match ← peek with
  | some (.number text) => literal (.number (← numberValue text))
  | some (.string _ raw) => literal (.string (← stringValue raw))
  | some (.keyword .trueWord) => literal (.boolean true)
  | some (.keyword .falseWord) => literal (.boolean false)
  | some (.keyword .null) => literal .null
  | some (.keyword .undefined) => literal .undefined
  | some (.keyword .function) => return .function (← functionDef inside.statement)
  | some (.identifier name) =>
    advance
    return .identifier name
  | some (.symbol .openParen) => parenthesized inside.assignment
  | some (.symbol .openBracket) =>
    advance
    return .array (← commaList .closeBracket inside.assignment)
  | some (.symbol .openBrace) =>
    advance
    return .object (← commaList .closeBrace (property inside.assignment))
  | _ => unexpected "expression"

/-- **With fuel left, the grammar is one step around the grammar with less of it.** -/
theorem plain_succ (fuel : Nat) : plain (fuel + 1) =
    { statement := nested (plain fuel).aroundStatement
      assignment := nested (plain fuel).aroundAssignment
      climb := fun level => restoring ((plain fuel).aroundClimb level)
      chain := (plain fuel).aroundChain
      unary := (plain fuel).aroundUnary (nested (plain fuel).unary)
      suffixes := (plain fuel).aroundSuffixes
      primary := (plain fuel).aroundPrimary } := rfl

end Steps

/-! ## Metered reading -/

/-- The cursor behind a step, whether or not it fails. -/
def cursorOf {α : Type} : EStateM.Result SyntaxError Cursor α → Cursor
  | .ok _ cursor => cursor
  | .error _ cursor => cursor

/-- Whether some descents may be active at a cursor: the budget holds what each of them has taken,
and is not exceeded. -/
structure Cursor.Within (active : Nat) (cursor : Cursor) : Prop where
  taken : descentCost * active ≤ cursor.depth
  room : cursor.depth ≤ nestingLimit
  active_le : active ≤ 85

instance (active : Nat) : DecidablePred (Cursor.Within active) := fun cursor =>
  decidable_of_iff
    (descentCost * active ≤ cursor.depth ∧ cursor.depth ≤ nestingLimit ∧ active ≤ 85)
    ⟨fun ⟨taken, room, active_le⟩ => ⟨taken, room, active_le⟩,
      fun ⟨taken, room, active_le⟩ => ⟨taken, room, active_le⟩⟩

section Metering

variable {α : Type} (fault : SyntaxError) (active : Nat)

/-- A construct that fails with a fault unless some descents may be active before it and its depth is
given back behind it. -/
def overseen (step : Parse α) : Parse α := fun cursor =>
  if cursor.Within active ∧ (cursorOf (step cursor)).depth = cursor.depth then step cursor
  else .error fault cursor

/-- The rest of a chain that fails with a fault unless some descents may be active before it and
behind it. -/
def overseenChain (step : Parse α) : Parse α := fun cursor =>
  if cursor.Within active ∧ (cursorOf (step cursor)).Within active then step cursor
  else .error fault cursor

/-- Gives back what a descent has taken, or fails with a fault where less than that is left. -/
def giveBack : EStateM.Result SyntaxError Cursor α → EStateM.Result SyntaxError Cursor α
  | .ok a cursor =>
    if cursor.depth < descentCost then .error fault cursor
    else .ok a { cursor with depth := cursor.depth - descentCost }
  | .error e cursor =>
    if cursor.depth < descentCost then .error fault cursor
    else .error e { cursor with depth := cursor.depth - descentCost }

/-- A step one level further inside, behind which the descent is given back. -/
def descending (step : Parse α) : Parse α := fun cursor =>
  if nestingLimit < cursor.depth + descentCost then tooDeep cursor
  else giveBack fault (step { cursor with depth := cursor.depth + descentCost })

end Metering

/-- Reading where some descents are active. It fails with the fault where the fuel is used up. -/
def metered (fault : SyntaxError) : Nat → Nat → Steps
  | 0, _ => .failing (throw fault)
  | fuel + 1, active =>
    let inside := metered fault fuel active
    let further := metered fault fuel (active + 1)
    { statement := overseen fault active (descending fault further.aroundStatement)
      assignment := overseen fault active (descending fault further.aroundAssignment)
      climb := fun level => overseen fault active (restoring (inside.aroundClimb level))
      chain := fun level left => overseenChain fault active (inside.aroundChain level left)
      unary := overseen fault active (inside.aroundUnary (descending fault further.unary))
      suffixes := fun value => overseenChain fault active (inside.aroundSuffixes value)
      primary := overseen fault active inside.aroundPrimary }

theorem metered_succ (fault : SyntaxError) (fuel active : Nat) :
    metered fault (fuel + 1) active =
      { statement := overseen fault active
          (descending fault (metered fault fuel (active + 1)).aroundStatement)
        assignment := overseen fault active
          (descending fault (metered fault fuel (active + 1)).aroundAssignment)
        climb := fun level =>
          overseen fault active (restoring ((metered fault fuel active).aroundClimb level))
        chain := fun level left =>
          overseenChain fault active ((metered fault fuel active).aroundChain level left)
        unary := overseen fault active ((metered fault fuel active).aroundUnary
          (descending fault (metered fault fuel (active + 1)).unary))
        suffixes := fun value =>
          overseenChain fault active ((metered fault fuel active).aroundSuffixes value)
        primary := overseen fault active (metered fault fuel active).aroundPrimary } := rfl

/-- The statements that tokens write, by metered reading. -/
def meteredProgram (fault : SyntaxError) (lexed : Lexed) : Except SyntaxError Program := do
  let cursor ← Cursor.moveTo ⟨lexed.tokens, lexed.ending, 0⟩ lexed.tokens
  match statementsWithin (metered fault recursionFuel 0).statement (lexed.tokens.length + 1)
      cursor with
  | .ok body _ => .ok ⟨body⟩
  | .error e _ => .error e

/-! ## Steps that leave the depth as it was -/

/-- Whether a step leaves the depth as it was, whether or not it fails. -/
def Still {α : Type} (step : Parse α) : Prop :=
  ∀ cursor, (cursorOf (step cursor)).depth = cursor.depth

/-- Whether another step comes to the same as a step at a depth, behind which the depth is one of
some. -/
def Tallies {α : Type} (depth : Nat) (behind : Nat → Prop) (step other : Parse α) : Prop :=
  ∀ cursor : Cursor, cursor.depth = depth →
    other cursor = step cursor ∧ behind (cursorOf (step cursor)).depth

/-- Whether another step comes to the same as a step at a depth, and it is left there. -/
abbrev Balances {α : Type} (depth : Nat) (step other : Parse α) : Prop :=
  Tallies depth (· = depth) step other

section Steps

variable {α β : Type} {depth : Nat} {behind : Nat → Prop} {step other : Parse α}
  {next next' : α → Parse β}

theorem still_pure (a : α) : Still (pure a) := fun _ => rfl

theorem still_throw (e : SyntaxError) : Still (throw e : Parse α) := fun _ => rfl

theorem Still.bind (first : Still step) (second : ∀ a, Still (next a)) : Still (step >>= next) := by
  intro cursor
  have hfirst := first cursor
  show (cursorOf (EStateM.bind step next cursor)).depth = cursor.depth
  unfold EStateM.bind
  generalize step cursor = result at *
  cases result with
  | ok a middle => exact (second a middle).trans hfirst
  | error e middle => exact hfirst

theorem Still.balances (h : Still step) : Balances depth step step :=
  fun cursor hcursor => ⟨rfl, (h cursor).trans hcursor⟩

theorem still_of_balances (h : ∀ depth, Balances depth step step) : Still step :=
  fun cursor => (h cursor.depth cursor rfl).2

theorem Tallies.mono {behind' : Nat → Prop} (h : Tallies depth behind step other)
    (sub : ∀ n, behind n → behind' n) : Tallies depth behind' step other :=
  fun cursor hcursor => ⟨(h cursor hcursor).1, sub _ (h cursor hcursor).2⟩

/-- A step that is left at its depth, and one behind it. -/
theorem Balances.followed (first : Balances depth step other) (hdepth : behind depth)
    (second : ∀ a, Tallies depth behind (next a) (next' a)) :
    Tallies depth behind (step >>= next) (other >>= next') := by
  intro cursor hcursor
  obtain ⟨hsame, hafter⟩ := first cursor hcursor
  show EStateM.bind other next' cursor = EStateM.bind step next cursor ∧
    behind (cursorOf (EStateM.bind step next cursor)).depth
  unfold EStateM.bind
  rw [hsame]
  generalize step cursor = result at *
  cases result with
  | ok a middle => exact second a middle hafter
  | error e middle =>
    have hmiddle : middle.depth = depth := hafter
    exact ⟨rfl, hmiddle ▸ hdepth⟩

theorem Balances.bind (first : Balances depth step other)
    (second : ∀ a, Balances depth (next a) (next' a)) :
    Balances depth (step >>= next) (other >>= next') :=
  first.followed rfl second

/-- Steps behind one that leaves the depth as it was. -/
theorem Still.before (first : Still step) (second : ∀ a, Balances depth (next a) (next' a)) :
    Balances depth (step >>= next) (step >>= next') :=
  first.balances.bind second

end Steps

/-! ### Tokens -/

section Tokens

variable {α : Type}

theorem still_peek : Still peek := fun _ => rfl

theorem still_position : Still position := fun _ => rfl

theorem still_newlineBefore : Still newlineBefore := fun _ => rfl

theorem still_rounds : Still rounds := fun _ => rfl

theorem still_advance : Still advance := by
  rintro ⟨tokens, ending, depth⟩
  unfold advance Cursor.moveTo
  dsimp only
  split
  · next heq =>
    split at heq <;> cases heq
    rfl
  · rfl

theorem still_throwAt (e : Nat → SyntaxError) : Still (do throw (e (← position)) : Parse α) :=
  still_position.bind fun _ => still_throw _

theorem still_tooDeep : Still (tooDeep : Parse α) := still_throwAt _

theorem still_unexpected (expected : String) : Still (unexpected expected : Parse α) := by
  refine still_peek.bind fun kind => ?_
  cases kind with
  | some kind => exact still_throwAt _
  | none => exact still_throw _

theorem still_atSign (sign : Symbol) : Still (atSign sign) :=
  still_peek.bind fun _ => still_pure _

theorem still_atWord (word : Keyword) : Still (atWord word) :=
  still_peek.bind fun _ => still_pure _

theorem still_expectSign (sign : Symbol) : Still (expectSign sign) := by
  refine (still_atSign sign).bind fun found => ?_
  split
  · exact still_advance
  · exact still_unexpected _

/-- What is read off the current token, which is left behind. -/
theorem still_taken (a : α) : Still (do advance; return a) :=
  still_advance.bind fun _ => still_pure a

theorem still_identifier : Still identifier := by
  refine still_peek.bind fun kind => ?_
  split
  · exact still_taken _
  · exact still_unexpected _

theorem still_endStatement : Still endStatement := by
  refine still_peek.bind fun kind => ?_
  split
  · exact still_advance
  · exact still_pure _
  · exact still_pure _
  · refine still_newlineBefore.bind fun newline => ?_
    split
    · exact still_pure _
    · exact still_unexpected _

theorem still_stringValue (raw : String) : Still (stringValue raw) := by
  unfold stringValue
  split
  · exact still_pure _
  · exact still_throwAt _

theorem still_numberValue (text : String) : Still (numberValue text) := by
  unfold numberValue
  split
  · exact still_pure _
  · exact still_throwAt _

theorem still_propertyName : Still propertyName := by
  refine still_peek.bind fun kind => ?_
  split
  · exact still_taken _
  · exact still_taken _
  · exact still_unexpected _

theorem still_propertyKey : Still propertyKey := by
  refine still_peek.bind fun kind => ?_
  split
  · exact still_taken _
  · exact still_taken _
  · exact (still_stringValue _).bind fun _ => still_taken _
  · exact still_taken _
  · exact still_unexpected _

theorem still_wordStatement (result : Stmt) : Still (wordStatement result) :=
  still_advance.bind fun _ => still_endStatement.bind fun _ => still_pure _

theorem still_updateBehind (op : UpdateOp) (target : Expr) : Still (updateBehind op target) := by
  unfold updateBehind
  split
  · exact still_taken _
  · exact still_throwAt _

end Tokens

/-! ### The nesting budget -/

section Budget

variable {α β : Type} {depth : Nat} {behind : Nat → Prop} {step other : Parse α}
  {next next' : Unit → Parse β}

theorem descend_bind (cost : Nat) (next : Unit → Parse β) (cursor : Cursor) :
    (descend cost >>= next) cursor =
      if nestingLimit < cursor.depth + cost then (tooDeep : Parse β) cursor
      else next () { cursor with depth := cursor.depth + cost } := by
  have hdescend : descend cost cursor =
      if nestingLimit < cursor.depth + cost then (tooDeep : Parse Unit) cursor
      else .ok () { cursor with depth := cursor.depth + cost } := by
    show (if nestingLimit < cursor.depth + cost then tooDeep
      else set { cursor with depth := cursor.depth + cost } : Parse Unit) cursor = _
    split <;> rfl
  show EStateM.bind (descend cost) next cursor = _
  unfold EStateM.bind
  rw [hdescend]
  by_cases full : nestingLimit < cursor.depth + cost
  · rw [if_pos full, if_pos full]
    rfl
  · rw [if_neg full, if_neg full]

/-- What comes behind a descent is read at a greater depth, where there is room for it. -/
theorem tallies_descend {cost : Nat} (hdepth : behind depth)
    (h : depth + cost ≤ nestingLimit → Tallies (depth + cost) behind (next ()) (next' ())) :
    Tallies depth behind (descend cost >>= next) (descend cost >>= next') := by
  intro cursor hcursor
  rw [descend_bind, descend_bind, hcursor]
  split
  · exact ⟨rfl, ((still_tooDeep (α := β) cursor).trans hcursor).symm ▸ hdepth⟩
  · next room => exact h (Nat.le_of_not_lt room) _ rfl

/-- Whatever a step takes from the budget, it is given back. -/
theorem Tallies.restoring (h : Tallies depth behind step other) :
    Balances depth (restoring step) (restoring other) := by
  intro cursor hcursor
  have hsame := (h cursor hcursor).1
  unfold Source.restoring
  rw [hsame]
  cases step cursor <;> exact ⟨rfl, hcursor⟩

/-- A descent that gives back what it has taken leaves the depth as one that restores it. -/
theorem balances_descending {fault : SyntaxError}
    (h : depth + descentCost ≤ nestingLimit → Balances (depth + descentCost) step other) :
    Balances depth (nested step) (descending fault other) := by
  intro cursor hcursor
  unfold nested Source.restoring descending
  rw [descend_bind, hcursor]
  split
  · refine ⟨?_, rfl⟩
    show EStateM.Result.error _ cursor = .error _ { cursor with depth := depth }
    rw [← hcursor]
  · next room =>
    obtain ⟨hsame, hafter⟩ := h (Nat.le_of_not_lt room)
      { cursor with depth := depth + descentCost } rfl
    rw [hsame]
    generalize step { cursor with depth := depth + descentCost } = result at hafter
    cases result with
    | ok a after =>
      have hdepth : after.depth = depth + descentCost := hafter
      refine ⟨?_, rfl⟩
      show (if after.depth < descentCost then EStateM.Result.error fault after
        else .ok a { after with depth := after.depth - descentCost }) =
          .ok a { after with depth := depth }
      rw [hdepth, if_neg (by omega), Nat.add_sub_cancel]
    | error e after =>
      have hdepth : after.depth = depth + descentCost := hafter
      refine ⟨?_, rfl⟩
      show (if after.depth < descentCost then EStateM.Result.error fault after
        else .error e { after with depth := after.depth - descentCost }) =
          .error e { after with depth := depth }
      rw [hdepth, if_neg (by omega), Nat.add_sub_cancel]

/-- Overseeing changes nothing where the descents may be active. -/
theorem Tallies.overseen {fault : SyntaxError} {active : Nat} (taken : descentCost * active ≤ depth)
    (room : depth ≤ nestingLimit) (h : Balances depth step other) :
    Balances depth step (overseen fault active other) := by
  intro cursor hcursor
  obtain ⟨hsame, hafter⟩ := h cursor hcursor
  have hactive : active ≤ 85 := by
    simp only [descentCost, nestingLimit] at taken room
    omega
  refine ⟨?_, hafter⟩
  unfold Source.overseen
  rw [hsame, if_pos ⟨⟨hcursor ▸ taken, hcursor ▸ room, hactive⟩, hafter.trans hcursor.symm⟩]

end Budget

/-! ### Repetitions -/

section Repetitions

variable {α : Type} {depth : Nat} {item item' : Parse α} {statement statement' : Parse Stmt}
  {value value' : Parse Expr}

theorem balances_commaList (close : Symbol) (h : Balances depth item item') :
    Balances depth (commaList close item) (commaList close item') := by
  have hwithin (fuel : Nat) :
      Balances depth (commaListWithin close item fuel) (commaListWithin close item' fuel) := by
    induction fuel with
    | zero => exact (still_pure _).balances
    | succ fuel ih =>
      refine (still_atSign close).before fun closed => ?_
      split
      · exact (still_pure _).balances
      · refine h.bind fun first => (still_atSign .comma).before fun more => ?_
        split
        · exact still_advance.before fun _ => ih.bind fun rest => (still_pure _).balances
        · exact (still_pure _).balances
  exact still_rounds.before fun fuel => (hwithin fuel).bind fun items =>
    (still_expectSign close).before fun _ => (still_pure items).balances

theorem balances_block (h : Balances depth statement statement') :
    Balances depth (block statement) (block statement') := by
  have hwithin (fuel : Nat) :
      Balances depth (blockWithin statement fuel) (blockWithin statement' fuel) := by
    induction fuel with
    | zero => exact (still_pure _).balances
    | succ fuel ih =>
      refine (still_atSign .closeBrace).before fun closed => ?_
      split
      · exact (still_pure _).balances
      · refine still_peek.before fun kind => ?_
        split
        · exact (still_unexpected _).before fun _ =>
            h.bind fun first => ih.bind fun rest => (still_pure _).balances
        · exact h.bind fun first => ih.bind fun rest => (still_pure _).balances
  exact (still_expectSign _).before fun _ => still_rounds.before fun fuel =>
    (hwithin fuel).bind fun body => (still_expectSign _).before fun _ => (still_pure body).balances

theorem balances_statementsWithin (h : Balances depth statement statement') (fuel : Nat) :
    Balances depth (statementsWithin statement fuel) (statementsWithin statement' fuel) := by
  induction fuel with
  | zero => exact (still_pure _).balances
  | succ fuel ih =>
    refine still_peek.before fun kind => ?_
    split
    · exact (still_pure _).balances
    · exact h.bind fun first => ih.bind fun rest => (still_pure _).balances

theorem balances_declarator (h : Balances depth value value') :
    Balances depth (declarator value) (declarator value') := by
  refine still_identifier.before fun name => (still_atSign .assign).before fun initial => ?_
  split
  · exact still_advance.before fun _ => h.bind fun _ => (still_pure _).balances
  · exact (still_pure _).balances

theorem balances_declaration (h : Balances depth value value') :
    Balances depth (declaration value) (declaration value') := by
  have hwithin (fuel : Nat) :
      Balances depth (declaratorsWithin value fuel) (declaratorsWithin value' fuel) := by
    induction fuel with
    | zero => exact (still_pure _).balances
    | succ fuel ih =>
      refine (balances_declarator h).bind fun first => (still_atSign .comma).before fun more => ?_
      split
      · exact still_advance.before fun _ => ih.bind fun rest => (still_pure _).balances
      · exact (still_pure _).balances
  exact still_advance.before fun _ => still_rounds.before fun fuel =>
    (hwithin fuel).bind fun _ => (still_pure _).balances

end Repetitions

/-! ### Constructs around given parts -/

section Parts

variable {depth : Nat} {statement statement' : Parse Stmt} {expression expression' : Parse Expr}

theorem balances_property (h : Balances depth expression expression') :
    Balances depth (property expression) (property expression') :=
  still_propertyKey.before fun _ => (still_expectSign _).before fun _ =>
    h.bind fun _ => (still_pure _).balances

theorem balances_functionDef (h : Balances depth statement statement') :
    Balances depth (functionDef statement) (functionDef statement') := by
  refine still_advance.before fun _ => still_peek.before fun kind => ?_
  have hrest (name : Option String) : Balances depth
      (do
        expectSign .openParen
        let parameters ← commaList .closeParen identifier
        return .mk name parameters (← block statement) : Parse FunctionDef)
      (do
        expectSign .openParen
        let parameters ← commaList .closeParen identifier
        return .mk name parameters (← block statement')) :=
    (still_expectSign _).before fun _ => (balances_commaList _ still_identifier.balances).bind
      fun _ => (balances_block h).bind fun _ => (still_pure _).balances
  split
  · exact still_advance.before fun _ => (still_pure _).before hrest
  · exact hrest none

theorem balances_parenthesized (h : Balances depth expression expression') :
    Balances depth (parenthesized expression) (parenthesized expression') :=
  (still_expectSign _).before fun _ => h.bind fun _ =>
    (still_expectSign _).before fun _ => (still_pure _).balances

theorem balances_conditional {operand operand' : Parse Expr}
    (hoperand : Balances depth operand operand') (h : Balances depth expression expression') :
    Balances depth (conditional operand expression) (conditional operand' expression') := by
  refine hoperand.bind fun test => (still_atSign _).before fun more => ?_
  split
  · exact still_advance.before fun _ => h.bind fun _ => (still_expectSign _).before fun _ =>
      h.bind fun _ => (still_pure _).balances
  · exact (still_pure _).balances

theorem balances_assignmentTo {target target' : Parse Expr}
    (htarget : Balances depth target target') (h : Balances depth expression expression') :
    Balances depth (assignmentTo target expression) (assignmentTo target' expression') := by
  refine htarget.bind fun target => still_peek.before fun kind => ?_
  split
  · exact (still_pure _).balances
  · split
    · exact still_advance.before fun _ => h.bind fun _ => (still_pure _).balances
    · exact (still_throwAt _).balances

theorem balances_updateBefore (op : UpdateOp) (h : Balances depth expression expression') :
    Balances depth (updateBefore op expression) (updateBefore op expression') := by
  refine still_position.before fun start => still_advance.before fun _ => h.bind fun target => ?_
  split
  · exact (still_pure _).balances
  · exact (still_throw _).balances

theorem balances_unaryOf (op : UnaryOp) (h : Balances depth expression expression') :
    Balances depth (unaryOf op expression) (unaryOf op expression') :=
  still_advance.before fun _ => h.bind fun _ => (still_pure _).balances

/-- What stands before the end of its statement. -/
theorem Tallies.ended {α β : Type} {part part' : Parse α} (h : Balances depth part part')
    (result : α → β) :
    Balances depth (do let a ← part; endStatement; return result a)
      (do let a ← part'; endStatement; return result a) :=
  h.bind fun _ => still_endStatement.before fun _ => (still_pure _).balances

theorem balances_ifStatement (h : Balances depth expression expression')
    (hstatement : Balances depth statement statement') :
    Balances depth (ifStatement expression statement) (ifStatement expression' statement') := by
  refine still_advance.before fun _ => (balances_parenthesized h).bind fun test =>
    hstatement.bind fun consequent => (still_atWord _).before fun more => ?_
  split
  · exact still_advance.before fun _ => hstatement.bind fun _ => (still_pure _).balances
  · exact (still_pure _).balances

theorem balances_whileStatement (h : Balances depth expression expression')
    (hstatement : Balances depth statement statement') :
    Balances depth (whileStatement expression statement)
      (whileStatement expression' statement') :=
  still_advance.before fun _ => (balances_parenthesized h).bind fun _ =>
    hstatement.bind fun _ => (still_pure _).balances

theorem balances_optionalBefore (sign : Symbol) (h : Balances depth expression expression') :
    Balances depth (optionalBefore sign expression) (optionalBefore sign expression') := by
  refine (still_atSign sign).before fun found => ?_
  split
  · exact (still_pure _).balances
  · exact h.bind fun _ => (still_pure _).balances

theorem balances_forStart (h : Balances depth expression expression') :
    Balances depth (forStart expression) (forStart expression') := by
  refine still_peek.before fun kind => ?_
  split
  · exact (still_pure _).balances
  · exact (balances_declaration h).bind fun _ => (still_pure _).balances
  · exact (balances_declaration h).bind fun _ => (still_pure _).balances
  · exact (balances_declaration h).bind fun _ => (still_pure _).balances
  · exact h.bind fun _ => (still_pure _).balances

theorem balances_forStatement (h : Balances depth expression expression')
    (hstatement : Balances depth statement statement') :
    Balances depth (forStatement expression statement) (forStatement expression' statement') :=
  still_advance.before fun _ => (still_expectSign _).before fun _ =>
    (balances_forStart h).bind fun _ => (still_expectSign _).before fun _ =>
      (balances_optionalBefore _ h).bind fun _ => (still_expectSign _).before fun _ =>
        (balances_optionalBefore _ h).bind fun _ => (still_expectSign _).before fun _ =>
          hstatement.bind fun _ => (still_pure _).balances

theorem balances_returnStatement (h : Balances depth expression expression') :
    Balances depth (returnStatement expression) (returnStatement expression') := by
  refine still_advance.before fun _ => still_peek.before fun kind => ?_
  have hrest (value : Option Expr) : Balances depth
      (do endStatement; return Stmt.ret value : Parse Stmt)
      (do endStatement; return Stmt.ret value) :=
    still_endStatement.before fun _ => (still_pure _).balances
  split
  · exact hrest none
  · exact hrest none
  · exact hrest none
  · refine still_newlineBefore.before fun newline => ?_
    split
    · exact hrest none
    · exact Balances.bind (h.bind fun _ => (still_pure _).balances) hrest

theorem balances_functionStatement {suffixes suffixes' : Expr → Parse Expr}
    (hstatement : Balances depth statement statement')
    (hsuffixes : ∀ value, Balances depth (suffixes value) (suffixes' value)) :
    Balances depth (functionStatement statement suffixes)
      (functionStatement statement' suffixes') := by
  refine (balances_functionDef hstatement).bind fun definition => ?_
  split
  · exact (still_pure _).balances
  · exact (hsuffixes _).ended _

end Parts

/-! ## Recursive constructs -/

/-- Whether a chain that begins at a depth may have come to another one. -/
def Reaches (depth reached : Nat) : Prop :=
  depth ≤ reached ∧ reached ≤ nestingLimit

theorem reaches_refl {depth : Nat} (room : depth ≤ nestingLimit) : Reaches depth depth :=
  ⟨Nat.le_refl _, room⟩

theorem Balances.reaches {α : Type} {depth : Nat} {step other : Parse α}
    (h : Balances depth step other) (room : depth ≤ nestingLimit) :
    Tallies depth (Reaches depth) step other :=
  h.mono fun _ hn => hn.symm ▸ reaches_refl room

/-- A link takes its cost from the budget, which is given back behind the chain only. -/
theorem tallies_link {depth : Nat} {rest rest' : Parse Expr} (room : depth ≤ nestingLimit)
    (h : depth + linkCost ≤ nestingLimit →
      Tallies (depth + linkCost) (Reaches (depth + linkCost)) rest rest') :
    Tallies depth (Reaches depth) (do descend linkCost; advance; rest)
      (do descend linkCost; advance; rest') := by
  refine tallies_descend (reaches_refl room) fun hroom => ?_
  refine still_advance.balances.followed ⟨Nat.le_add_right _ _, hroom⟩ fun _ =>
    (h hroom).mono fun n hn => ?_
  exact ⟨Nat.le_of_add_right_le hn.1, hn.2⟩

section Around

variable {depth : Nat} {inside other : Steps}

theorem balances_aroundStatement (hstatement : Balances depth inside.statement other.statement)
    (hassignment : Balances depth inside.assignment other.assignment)
    (hsuffixed : ∀ value, Balances depth (inside.suffixed value) (other.suffixed value)) :
    Balances depth inside.aroundStatement other.aroundStatement := by
  have hdeclaration := (balances_declaration hassignment).ended id
  refine still_peek.before fun kind => ?_
  split
  · exact (still_unexpected _).balances
  · exact (still_taken _).balances
  · exact (balances_block hstatement).bind fun _ => (still_pure _).balances
  · exact hdeclaration
  · exact hdeclaration
  · exact hdeclaration
  · exact balances_functionStatement hstatement hsuffixed
  · exact balances_returnStatement hassignment
  · exact balances_ifStatement hassignment hstatement
  · exact balances_whileStatement hassignment hstatement
  · exact balances_forStatement hassignment hstatement
  · exact (still_wordStatement _).balances
  · exact (still_wordStatement _).balances
  · exact hassignment.ended _

theorem balances_aroundAssignment
    (hclimb : ∀ level, Balances depth (inside.climb level) (other.climb level))
    (hassignment : Balances depth inside.assignment other.assignment) :
    Balances depth inside.aroundAssignment other.aroundAssignment :=
  balances_assignmentTo (balances_conditional (hclimb _) hassignment) hassignment

theorem tallies_aroundClimb (room : depth ≤ nestingLimit)
    (hunary : Balances depth inside.unary other.unary)
    (hchain : ∀ level left,
      Tallies depth (Reaches depth) (inside.chain level left) (other.chain level left))
    (level : Nat) :
    Tallies depth (Reaches depth) (inside.aroundClimb level) (other.aroundClimb level) :=
  hunary.followed (reaches_refl room) (hchain level)

theorem tallies_aroundChain (room : depth ≤ nestingLimit)
    (hclimb : depth + linkCost ≤ nestingLimit →
      ∀ level, Balances (depth + linkCost) (inside.climb level) (other.climb level))
    (hchain : depth + linkCost ≤ nestingLimit → ∀ level left,
      Tallies (depth + linkCost) (Reaches (depth + linkCost)) (inside.chain level left)
        (other.chain level left))
    (level : Nat) (left : Expr) :
    Tallies depth (Reaches depth) (inside.aroundChain level left)
      (other.aroundChain level left) := by
  have hleft : Tallies depth (Reaches depth) (pure left : Parse Expr) (pure left) :=
    (still_pure left).balances.reaches room
  refine still_peek.balances.followed (reaches_refl room) fun kind => ?_
  split
  · exact hleft
  · next connective _ =>
    split
    · exact hleft
    · exact tallies_link room fun hroom =>
        (hclimb hroom _).followed (reaches_refl hroom) fun right => hchain hroom level _

theorem balances_aroundUnary {nested nested' : Parse Expr} (hnested : Balances depth nested nested')
    (hprimary : Balances depth inside.primary other.primary)
    (hsuffixed : ∀ value, Balances depth (inside.suffixed value) (other.suffixed value)) :
    Balances depth (inside.aroundUnary nested) (other.aroundUnary nested') := by
  refine still_peek.before fun kind => ?_
  split
  · exact balances_unaryOf _ hnested
  · exact balances_unaryOf _ hnested
  · exact balances_unaryOf _ hnested
  · exact balances_unaryOf _ hnested
  · exact balances_updateBefore _ hnested
  · exact balances_updateBefore _ hnested
  · exact hprimary.bind hsuffixed

theorem tallies_aroundSuffixes (room : depth ≤ nestingLimit)
    (hassignment : depth + linkCost ≤ nestingLimit →
      Balances (depth + linkCost) inside.assignment other.assignment)
    (hsuffixes : depth + linkCost ≤ nestingLimit → ∀ value,
      Tallies (depth + linkCost) (Reaches (depth + linkCost)) (inside.suffixes value)
        (other.suffixes value))
    (value : Expr) :
    Tallies depth (Reaches depth) (inside.aroundSuffixes value) (other.aroundSuffixes value) := by
  have hupdate (op : UpdateOp) : Tallies depth (Reaches depth)
      (do if ← newlineBefore then return value else updateBehind op value)
      (do if ← newlineBefore then return value else updateBehind op value) := by
    refine Balances.reaches (still_newlineBefore.before fun newline => ?_) room
    split
    · exact (still_pure value).balances
    · exact (still_updateBehind op value).balances
  refine still_peek.balances.followed (reaches_refl room) fun kind => ?_
  split
  · exact tallies_link room fun hroom =>
      still_propertyName.balances.followed (reaches_refl hroom) fun _ => hsuffixes hroom _
  · exact tallies_link room fun hroom =>
      (hassignment hroom).followed (reaches_refl hroom) fun _ =>
        (still_expectSign _).balances.followed (reaches_refl hroom) fun _ => hsuffixes hroom _
  · exact tallies_link room fun hroom =>
      (balances_commaList _ (hassignment hroom)).followed (reaches_refl hroom) fun _ =>
        hsuffixes hroom _
  · exact hupdate _
  · exact hupdate _
  · exact (still_pure value).balances.reaches room

theorem balances_aroundPrimary (hstatement : Balances depth inside.statement other.statement)
    (hassignment : Balances depth inside.assignment other.assignment) :
    Balances depth inside.aroundPrimary other.aroundPrimary := by
  refine still_peek.before fun kind => ?_
  split
  · exact (still_numberValue _).before fun _ => (still_taken _).balances
  · exact (still_stringValue _).before fun _ => (still_taken _).balances
  · exact (still_taken _).balances
  · exact (still_taken _).balances
  · exact (still_taken _).balances
  · exact (still_taken _).balances
  · exact (balances_functionDef hstatement).bind fun _ => (still_pure _).balances
  · exact (still_taken _).balances
  · exact balances_parenthesized hassignment
  · exact still_advance.before fun _ => (balances_commaList _ hassignment).bind
      fun _ => (still_pure _).balances
  · exact still_advance.before fun _ => (balances_commaList _ (balances_property hassignment)).bind
      fun _ => (still_pure _).balances
  · exact (still_unexpected _).balances

end Around

/-- Whether metered reading where some descents are active is reading, at a depth that the fuel is
enough for: every level takes three from the budget and every link one, and no more than the rank of
a construct in calls lies between. -/
structure MetersWithin (fault : SyntaxError) (fuel active depth : Nat) : Prop where
  statement : 2 * (nestingLimit - depth) + 1 ≤ fuel →
    Balances depth (Steps.plain fuel).statement (metered fault fuel active).statement
  assignment : 2 * (nestingLimit - depth) + 1 ≤ fuel →
    Balances depth (Steps.plain fuel).assignment (metered fault fuel active).assignment
  suffixes : 2 * (nestingLimit - depth) + 1 ≤ fuel → ∀ value, Tallies depth (Reaches depth)
    ((Steps.plain fuel).suffixes value) ((metered fault fuel active).suffixes value)
  primary : 2 * (nestingLimit - depth) + 2 ≤ fuel →
    Balances depth (Steps.plain fuel).primary (metered fault fuel active).primary
  unary : 2 * (nestingLimit - depth) + 3 ≤ fuel →
    Balances depth (Steps.plain fuel).unary (metered fault fuel active).unary
  chain : 2 * (nestingLimit - depth) + 3 ≤ fuel → ∀ level left, Tallies depth (Reaches depth)
    ((Steps.plain fuel).chain level left) ((metered fault fuel active).chain level left)
  climb : 2 * (nestingLimit - depth) + 4 ≤ fuel → ∀ level,
    Balances depth ((Steps.plain fuel).climb level) ((metered fault fuel active).climb level)

theorem Tallies.overseenChain {depth active : Nat} {fault : SyntaxError} {step other : Parse Expr}
    (taken : descentCost * active ≤ depth) (h : Tallies depth (Reaches depth) step other) :
    Tallies depth (Reaches depth) step (overseenChain fault active other) := by
  intro cursor hcursor
  obtain ⟨hsame, hafter⟩ := h cursor hcursor
  have hroom := Nat.le_trans hafter.1 hafter.2
  have hactive : active ≤ 85 := by
    simp only [descentCost, nestingLimit] at taken hroom
    omega
  refine ⟨?_, hafter⟩
  unfold Source.overseenChain
  rw [hsame, if_pos]
  exact ⟨⟨hcursor ▸ taken, hcursor ▸ hroom, hactive⟩,
    ⟨Nat.le_trans taken hafter.1, hafter.2, hactive⟩⟩

/-- **Metered reading is reading,** as long as the fuel is enough for what is left of the budget. -/
theorem metersWithin (fault : SyntaxError) (fuel : Nat) {active depth : Nat}
    (taken : descentCost * active ≤ depth) (room : depth ≤ nestingLimit) :
    MetersWithin fault fuel active depth := by
  have hdescent : descentCost = 3 := rfl
  have hlink : linkCost = 1 := rfl
  induction fuel generalizing active depth with
  | zero => constructor <;> intro enough <;> omega
  | succ fuel ih =>
    have here := ih taken room
    have further (hroom : depth + descentCost ≤ nestingLimit) :
        MetersWithin fault fuel (active + 1) (depth + descentCost) :=
      ih (by rw [Nat.mul_succ]; omega) hroom
    have behind (hroom : depth + linkCost ≤ nestingLimit) :
        MetersWithin fault fuel active (depth + linkCost) := ih (by omega) hroom
    constructor <;> rw [Steps.plain_succ, metered_succ] <;> intro enough
    case statement =>
      refine Tallies.overseen taken room (balances_descending fun hroom => ?_)
      have inner := further hroom
      exact balances_aroundStatement (inner.statement (by omega)) (inner.assignment (by omega))
        fun value => (inner.suffixes (by omega) value).restoring
    case assignment =>
      refine Tallies.overseen taken room (balances_descending fun hroom => ?_)
      have inner := further hroom
      exact balances_aroundAssignment (inner.climb (by omega)) (inner.assignment (by omega))
    case suffixes =>
      intro value
      refine Tallies.overseenChain taken (tallies_aroundSuffixes room ?_ ?_ value)
      · exact fun hroom => (behind hroom).assignment (by omega)
      · exact fun hroom => (behind hroom).suffixes (by omega)
    case primary =>
      exact Tallies.overseen taken room (balances_aroundPrimary (here.statement (by omega))
        (here.assignment (by omega)))
    case unary =>
      refine Tallies.overseen taken room (balances_aroundUnary ?_ (here.primary (by omega)) ?_)
      · exact balances_descending fun hroom => (further hroom).unary (by omega)
      · exact fun value => (here.suffixes (by omega) value).restoring
    case chain =>
      intro level left
      refine Tallies.overseenChain taken (tallies_aroundChain room ?_ ?_ level left)
      · exact fun hroom => (behind hroom).climb (by omega)
      · exact fun hroom => (behind hroom).chain (by omega)
    case climb =>
      intro level
      exact Tallies.overseen taken room (tallies_aroundClimb room (here.unary (by omega))
        (here.chain (by omega)) level).restoring

/-- **Reading a text keeps to the nesting budget and ends within the fuel:** it is metered reading,
whatever would end that otherwise. -/
theorem meteredProgram_eq (fault : SyntaxError) (lexed : Lexed) :
    meteredProgram fault lexed = program lexed := by
  have hmeters : MetersWithin fault recursionFuel 0 0 :=
    metersWithin fault recursionFuel (Nat.le_refl 0) (Nat.zero_le _)
  have hstatement := hmeters.statement (by decide)
  unfold meteredProgram program
  cases hmove : Cursor.moveTo ⟨lexed.tokens, lexed.ending, 0⟩ lexed.tokens with
  | error e => rfl
  | ok cursor =>
    have hcursor : cursor.depth = 0 := by
      unfold Cursor.moveTo at hmove
      split at hmove <;> cases hmove
      rfl
    have hsame :=
      (balances_statementsWithin hstatement (lexed.tokens.length + 1) cursor hcursor).1
    simp only [bind, Except.bind]
    rw [hsame]
    rfl

end Formulary.Source
