import Formulary.Proofs.Source.Metered
import Formulary.Proofs.Source.Opening

/-!
# Reading comes to an end

* `Advances`, `Progresses` : steps that leave fewer tokens than they find;
* `repeated`, `Loops` : repetitions as rounds, each of which leaves fewer tokens, so that they end
  by themselves;
* `chainRound`, `suffixRound` : the rounds of chains, which are bounded by the nesting budget too;
* `ProgressesWithin`, `LoopsWithin`, `StillWithin` : what every construct of the grammar does;
* `Program.parse_ends` : a text is read in finitely many rounds and within the nesting budget.
-/

namespace Formulary.Source

/-! ## Steps that leave fewer tokens -/

/-- Whether a step leaves fewer tokens than it finds when its answer is of a kind. -/
def Advances {α : Type} (counts : α → Prop) (step : Parse α) : Prop :=
  ∀ cursor a after, step cursor = .ok a after → counts a →
    after.tokens.length < cursor.tokens.length

/-- Whether a step leaves fewer tokens than it finds whenever it has an answer. -/
abbrev Progresses {α : Type} (step : Parse α) : Prop :=
  Advances (fun _ => True) step

section Steps

variable {α β : Type} {counts : β → Prop} {step : Parse α} {next : α → Parse β}

/-- A step behind one that may leave all tokens. -/
theorem Keeps.before (first : Keeps step) (second : ∀ a, Advances counts (next a)) :
    Advances counts (step >>= next) := by
  intro cursor b after h hcounts
  obtain ⟨a, middle, hstep, hnext⟩ := bind_eq_ok.mp h
  exact Nat.lt_of_lt_of_le (second a middle b after hnext hcounts)
    (first cursor a middle hstep).length_le

/-- A step that leaves fewer tokens, and one behind it that may leave all of these. -/
theorem Progresses.bind (first : Progresses step) (second : ∀ a, Keeps (next a)) :
    Advances counts (step >>= next) := by
  intro cursor b after h _
  obtain ⟨a, middle, hstep, hnext⟩ := bind_eq_ok.mp h
  exact Nat.lt_of_le_of_lt (second a middle b after hnext).length_le
    (first cursor a middle hstep trivial)

/-- An answer that does not count. -/
theorem advances_pure {b : β} (h : ¬counts b) : Advances counts (pure b) := by
  rintro cursor _ _ ⟨⟩ hcounts
  exact absurd hcounts h

theorem advances_unexpected (expected : String) :
    Advances counts (unexpected expected : Parse β) :=
  fun _ _ _ h => absurd h unexpected_ne_ok

theorem Opens.progresses (h : Opens step) (keeps : Keeps step) : Progresses step :=
  fun _ _ _ hstep _ => h.length_lt keeps hstep

/-- Whether a step, begun at a token, leaves fewer tokens than it finds when its answer is of a
kind. -/
def AdvancesAt (counts : β → Prop) (step : Parse β) : Prop :=
  ∀ cursor b after, cursor.tokens ≠ [] → step cursor = .ok b after → counts b →
    after.tokens.length < cursor.tokens.length

theorem Advances.atToken {step : Parse β} (h : Advances counts step) : AdvancesAt counts step :=
  fun cursor b after _ => h cursor b after

theorem AdvancesAt.bind (first : AdvancesAt (fun _ => True) step) (second : ∀ a, Keeps (next a)) :
    AdvancesAt counts (step >>= next) := by
  intro cursor b after present h _
  obtain ⟨a, middle, hstep, hnext⟩ := bind_eq_ok.mp h
  exact Nat.lt_of_le_of_lt (second a middle b after hnext).length_le
    (first cursor a middle present hstep trivial)

/-- A step that is told by the current token what to do. -/
theorem advances_peek {next : Option TokenKind → Parse β} (ended : Advances counts (next none))
    (present : ∀ kind, AdvancesAt counts (next (some kind))) :
    Advances counts (peek >>= next) := by
  intro cursor b after h hcounts
  have hnext : next (cursor.tokens.head?.map Token.kind) cursor = .ok b after := h
  cases htokens : cursor.tokens with
  | nil =>
    rw [htokens] at hnext
    exact htokens ▸ ended cursor b after hnext hcounts
  | cons token rest =>
    rw [htokens] at hnext
    have hpresent : cursor.tokens ≠ [] := htokens ▸ List.cons_ne_nil token rest
    exact htokens ▸ present token.kind cursor b after hpresent hnext hcounts

/-- A token that is there is left behind. -/
theorem advancesAt_advance {next : Unit → Parse β} (h : Keeps (next ())) :
    AdvancesAt counts (advance >>= next) := by
  intro cursor b after present hrun _
  obtain ⟨_, middle, hadvance, hnext⟩ := bind_eq_ok.mp hrun
  obtain ⟨-, rfl⟩ := advance_eq_ok.mp hadvance
  have hpos := List.length_pos_iff.mpr present
  have hle := (h _ b after hnext).length_le
  rw [List.length_tail] at hle
  omega

/-- A step that is not taken where a line begins. -/
theorem AdvancesAt.unlessBroken {step : Parse (Option β)} (h : AdvancesAt (·.isSome) step) :
    AdvancesAt (·.isSome) (do if ← newlineBefore then return none else step) := by
  intro cursor b after present hrun hcounts
  obtain ⟨newline, middle, ⟨⟩, hnext⟩ := bind_eq_ok.mp hrun
  cases hbreak : (cursor.tokens.head?.map Token.newlineBefore).getD false with
  | true =>
    rw [hbreak] at hnext
    cases hnext
    cases hcounts
  | false =>
    rw [hbreak] at hnext
    exact h cursor b after present hnext hcounts

end Steps

theorem keeps_peek : Keeps peek := .of_reads fun _ =>
  reads_peek.weaken (fun _ h => h) fun _ _ _ => trivial

theorem keeps_atSign (sign : Symbol) : Keeps (atSign sign) :=
  .of_reads fun _ => reads_atSign sign

theorem keeps_descend (cost : Nat) : Keeps (descend cost) :=
  .of_reads fun _ => reads_descend cost

theorem keeps_expectSign (sign : Symbol) : Keeps (expectSign sign) :=
  .of_reads fun _ => gives_expectSign sign

theorem progresses_expectSign (sign : Symbol) : Progresses (expectSign sign) :=
  (opens_expectSign sign).progresses (keeps_expectSign sign)

theorem progresses_identifier : Progresses identifier := by
  refine advances_peek (advances_unexpected _) fun kind => ?_
  split
  · exact advancesAt_advance (keeps_pure _)
  · exact (advances_unexpected _).atToken

theorem progresses_propertyName : Progresses propertyName := by
  refine advances_peek (advances_unexpected _) fun kind => ?_
  split
  · exact advancesAt_advance (keeps_pure _)
  · exact advancesAt_advance (keeps_pure _)
  · exact (advances_unexpected _).atToken

section Parts

variable {value : Parse Expr}

theorem progresses_property (h : Progresses value) : Progresses (property value) :=
  Keeps.before (.of_reads fun _ => gives_propertyKey) fun _ =>
    (keeps_expectSign .colon).before fun _ => h.bind fun _ => keeps_pure _

theorem progresses_declarator (h : Keeps value) : Progresses (declarator value) := by
  refine progresses_identifier.bind fun name => (keeps_atSign _).bind fun initial => ?_
  split
  · exact keeps_advance.bind fun _ => h.bind fun _ => keeps_pure _
  · exact keeps_pure _

end Parts

/-- Constructs that leave fewer tokens, with the given fuel. -/
structure ProgressesWithin (fuel : Nat) : Prop where
  statement : Progresses (statement fuel)
  assignment : Progresses (assignment fuel)
  climb : ∀ level, Progresses (climb fuel level)
  unary : Progresses (unary fuel)
  primary : Progresses (primary fuel)

/-- **Every construct leaves fewer tokens than it finds.** -/
theorem progresses_recursion (fuel : Nat) : ProgressesWithin fuel := by
  have hopens := opens_recursion fuel
  have hreads (all : List Token) := reads_recursion all fuel
  exact ⟨hopens.statement.progresses (keeps_statement fuel),
    hopens.assignment.progresses (keeps_assignment fuel),
    fun level => (hopens.climb level).progresses (.of_reads fun all => (hreads all).climb level),
    hopens.unary.progresses (.of_reads fun all => (hreads all).unary),
    hopens.primary.progresses (.of_reads fun all => (hreads all).primary)⟩

/-! ## Repetitions -/

/-- What comes behind a round: nothing, or an item and, if another round follows, the rest. -/
def followedBy {α : Type} (rest : Parse (List α)) : Option (α × Bool) → Parse (List α)
  | none => return []
  | some (a, false) => return [a]
  | some (a, true) => return a :: (← rest)

/-- Rounds until one of them is the last one. Where the number of rounds is used up, the repetition
comes to its bottom. -/
def repeated {α : Type} (round : Parse (Option (α × Bool))) (bottom : Parse (List α)) :
    Nat → Parse (List α)
  | 0 => bottom
  | rounds + 1 => do followedBy (repeated round bottom rounds) (← round)

/-- A round of items with commas between them. -/
def commaRound {α : Type} (close : Symbol) (item : Parse α) : Parse (Option (α × Bool)) := do
  if ← atSign close then return none
  let first ← item
  if ← atSign .comma then
    advance
    return some (first, true)
  else return some (first, false)

/-- A round of statements up to a closing brace. -/
def blockRound (statement : Parse Stmt) : Parse (Option (Stmt × Bool)) := do
  if ← atSign .closeBrace then return none
  if (← peek).isNone then unexpected "'\x7d'"
  let first ← statement
  return some (first, true)

/-- A round of statements up to the end of the text. -/
def statementsRound (statement : Parse Stmt) : Parse (Option (Stmt × Bool)) := do
  if (← peek).isNone then return none
  let first ← statement
  return some (first, true)

/-- A round of declarators. -/
def declaratorsRound (value : Parse Expr) :
    Parse (Option ((String × Option Expr) × Bool)) := do
  let first ← declarator value
  if ← atSign .comma then
    advance
    return some (first, true)
  else return some (first, false)

/-- Whether a repetition repeats a round, which leaves fewer tokens unless it is the end, and ends
before its rounds are used up, whatever it would come to then. -/
structure Loops {α : Type} (loop : Nat → Parse (List α)) (round : Parse (Option (α × Bool))) :
    Prop where
  repeats : ∀ rounds, loop rounds = repeated round (pure []) rounds
  advances : Advances (·.isSome) round
  ends : ∀ bottom rounds cursor, cursor.tokens.length < rounds →
    repeated round bottom rounds cursor = loop (cursor.tokens.length + 1) cursor

section Repetitions

variable {α : Type} {round : Parse (Option (α × Bool))}

/-- As many rounds as tokens are enough. -/
theorem repeated_eq (advances : Advances (·.isSome) round) {bottom bottom' : Parse (List α)}
    {rounds rounds' : Nat} {cursor : Cursor} (h : cursor.tokens.length < rounds)
    (h' : cursor.tokens.length < rounds') :
    repeated round bottom rounds cursor = repeated round bottom' rounds' cursor := by
  induction rounds generalizing cursor rounds' with
  | zero => exact absurd h (Nat.not_lt_zero _)
  | succ rounds ih =>
    obtain ⟨rounds', rfl⟩ := Nat.exists_eq_add_one_of_ne_zero (Nat.ne_zero_of_lt h')
    unfold repeated
    show EStateM.bind round _ cursor = EStateM.bind round _ cursor
    unfold EStateM.bind
    cases hround : round cursor with
    | error e middle => rfl
    | ok answer middle =>
      match answer with
      | none => rfl
      | some (a, false) => rfl
      | some (a, true) =>
        have hfewer := advances cursor _ middle hround rfl
        have hrest := @ih rounds' middle (by omega) (by omega)
        show EStateM.bind (repeated round bottom rounds) _ middle =
          EStateM.bind (repeated round bottom' rounds') _ middle
        unfold EStateM.bind
        rw [hrest]

/-- A repetition that goes on behind a round with one round less. -/
theorem Loops.of_rounds {loop : Nat → Parse (List α)} (used : loop 0 = pure [])
    (goes : ∀ rounds, loop (rounds + 1) = do followedBy (loop rounds) (← round))
    (advances : Advances (·.isSome) round) : Loops loop round := by
  have repeats (rounds : Nat) : loop rounds = repeated round (pure []) rounds := by
    induction rounds with
    | zero => exact used
    | succ rounds ih => rw [goes, ih, repeated]
  refine ⟨repeats, advances, fun bottom rounds cursor h => ?_⟩
  rw [repeats]
  exact repeated_eq advances h (Nat.lt_succ_self _)

theorem loops_commaList {item : Parse α} (close : Symbol) (h : Progresses item) :
    Loops (commaListWithin close item) (commaRound close item) := by
  refine .of_rounds rfl (fun rounds => ?_) ?_
  · rw [commaListWithin, commaRound, bind_assoc]
    refine bind_congr fun closed => ?_
    cases closed with
    | true => rfl
    | false =>
      simp only [Bool.false_eq_true, if_false, bind_assoc]
      refine bind_congr fun first => bind_congr fun more => ?_
      cases more <;> simp [followedBy]
  · refine (keeps_atSign close).before fun closed => ?_
    split
    · exact advances_pure Bool.false_ne_true
    · refine h.bind fun first => (keeps_atSign .comma).bind fun more => ?_
      split
      · exact keeps_advance.bind fun _ => keeps_pure _
      · exact keeps_pure _

theorem loops_block {statement : Parse Stmt} (h : Progresses statement) :
    Loops (blockWithin statement) (blockRound statement) := by
  refine .of_rounds rfl (fun rounds => ?_) ?_
  · rw [blockWithin, blockRound, bind_assoc]
    refine bind_congr fun closed => ?_
    cases closed with
    | true => rfl
    | false =>
      simp only [Bool.false_eq_true, if_false, bind_assoc]
      refine bind_congr fun kind => ?_
      split <;> simp [followedBy]
  · have hitem : Advances (·.isSome) (do return some (← statement, true) : Parse _) :=
      h.bind fun first => keeps_pure _
    refine (keeps_atSign _).before fun closed => ?_
    split
    · exact advances_pure Bool.false_ne_true
    · refine keeps_peek.before fun kind => ?_
      split
      · exact Keeps.before (fun _ _ _ h => absurd h unexpected_ne_ok) fun _ => hitem
      · exact hitem

theorem loops_statements {statement : Parse Stmt} (h : Progresses statement) :
    Loops (statementsWithin statement) (statementsRound statement) := by
  refine .of_rounds rfl (fun rounds => ?_) ?_
  · rw [statementsWithin, statementsRound, bind_assoc]
    refine bind_congr fun kind => ?_
    split <;> simp [followedBy]
  · refine keeps_peek.before fun kind => ?_
    split
    · exact advances_pure Bool.false_ne_true
    · exact h.bind fun first => keeps_pure _

theorem loops_declarators {value : Parse Expr} (h : Keeps value) :
    Loops (declaratorsWithin value) (declaratorsRound value) := by
  refine .of_rounds rfl (fun rounds => ?_) ?_
  · rw [declaratorsWithin, declaratorsRound, bind_assoc]
    refine bind_congr fun first => ?_
    rw [bind_assoc]
    refine bind_congr fun more => ?_
    cases more <;> simp [followedBy]
  · refine (progresses_declarator h).bind fun first => (keeps_atSign .comma).bind fun more => ?_
    split
    · exact keeps_advance.bind fun _ => keeps_pure _
    · exact keeps_pure _

end Repetitions

/-! ## Chains -/

/-- The operator between operands that a token is. -/
def connectiveOf (kind : Option TokenKind) : Option Connective :=
  kind.bind fun | .symbol sign => sign.connective? | _ => none

/-- A round of a chain of operators: the operand joined to what stands before the operator, or
nothing where the chain ends. -/
def chainRound (operand : Nat → Parse Expr) (level : Nat) (left : Expr) : Parse (Option Expr) := do
  match connectiveOf (← peek) with
  | none => return none
  | some connective =>
    if connective.level < level then return none
    descend linkCost
    advance
    return some (connective.join left (← operand (connective.level + 1)))

/-- A round of suffixes: the expression with one more of them and whether others may follow, or
nothing where they end. -/
def suffixRound (expression : Parse Expr) (value : Expr) : Parse (Option (Expr × Bool)) := do
  match ← peek with
  | some (.symbol .dot) =>
    descend linkCost
    advance
    return some (.member value (← propertyName), true)
  | some (.symbol .openBracket) =>
    descend linkCost
    advance
    let key ← expression
    expectSign .closeBracket
    return some (.index value key, true)
  | some (.symbol .openParen) =>
    descend linkCost
    advance
    return some (.call value (← commaList .closeParen expression), true)
  | some (.symbol .increment) =>
    if ← newlineBefore then return none
    return some (← updateBehind .increment value, false)
  | some (.symbol .decrement) =>
    if ← newlineBefore then return none
    return some (← updateBehind .decrement value, false)
  | _ => return none

section Chains

variable {fuel : Nat}

theorem chain_eq_chainRound (level : Nat) (left : Expr) :
    chain (fuel + 1) level left = (do
      match ← chainRound (climb fuel) level left with
      | none => return left
      | some joined => chain fuel level joined) := by
  have hchain : chain (fuel + 1) level left = (do
      match connectiveOf (← peek) with
      | none => return left
      | some connective =>
        if connective.level < level then return left
        descend linkCost
        advance
        let right ← climb fuel (connective.level + 1)
        chain fuel level (connective.join left right)) := rfl
  rw [hchain, chainRound, bind_assoc]
  refine bind_congr fun kind => ?_
  cases connectiveOf kind with
  | none => rfl
  | some connective =>
    dsimp only
    split
    · rfl
    · simp only [bind_assoc, pure_bind]

theorem suffixes_eq_suffixRound (value : Expr) :
    suffixes (fuel + 1) value = (do
      match ← suffixRound (assignment fuel) value with
      | none => return value
      | some (suffixed, false) => return suffixed
      | some (suffixed, true) => suffixes fuel suffixed) := by
  rw [suffixes, suffixRound, bind_assoc]
  refine bind_congr fun kind => ?_
  split
  · simp only [bind_assoc, pure_bind]
  · simp only [bind_assoc, pure_bind]
  · simp only [bind_assoc, pure_bind]
  · rw [bind_assoc]
    refine bind_congr fun newline => ?_
    cases newline <;> simp
  · rw [bind_assoc]
    refine bind_congr fun newline => ?_
    cases newline <;> simp
  · simp [*]

theorem advances_chainRound (level : Nat) (left : Expr) :
    Advances (·.isSome) (chainRound (climb fuel) level left) := by
  refine keeps_peek.before fun kind => ?_
  split
  · exact advances_pure Bool.false_ne_true
  · split
    · exact advances_pure Bool.false_ne_true
    · exact (keeps_descend _).before fun _ => keeps_advance.before fun _ =>
        ((progresses_recursion fuel).climb _).bind fun _ => keeps_pure _

theorem keeps_commaListWithin {α : Type} {close : Symbol} {item : Parse α} (h : Keeps item)
    (rounds : Nat) : Keeps (commaListWithin close item rounds) := by
  induction rounds with
  | zero => exact keeps_pure _
  | succ rounds ih =>
    refine (keeps_atSign close).bind fun closed => ?_
    split
    · exact keeps_pure _
    · refine h.bind fun first => (keeps_atSign .comma).bind fun more => ?_
      split
      · exact keeps_advance.bind fun _ => ih.bind fun _ => keeps_pure _
      · exact keeps_pure _

/-- A list is read to its closing sign. -/
theorem progresses_commaList {α : Type} (close : Symbol) {item : Parse α} (h : Keeps item) :
    Progresses (commaList close item) :=
  Keeps.before (.of_reads fun _ => gives_rounds) fun rounds =>
    (keeps_commaListWithin h rounds).before fun _ =>
      (progresses_expectSign close).bind fun _ => keeps_pure _

theorem advancesAt_updateBehind (op : UpdateOp) (target : Expr) :
    AdvancesAt (fun _ => True) (updateBehind op target) := by
  unfold updateBehind
  split
  · exact advancesAt_advance (keeps_pure _)
  · intro cursor b after _ h
    obtain ⟨position, middle, -, hthrow⟩ := bind_eq_ok.mp h
    cases hthrow

theorem advances_suffixRound (value : Expr) :
    Advances (·.isSome) (suffixRound (assignment fuel) value) := by
  have hassignment := (progresses_recursion fuel).assignment
  have hnone : Advances (·.isSome) (pure none : Parse (Option (Expr × Bool))) :=
    advances_pure Bool.false_ne_true
  have hlink {rest : Parse (Option (Expr × Bool))} (h : Advances (·.isSome) rest) :
      AdvancesAt (·.isSome) (do descend linkCost; advance; rest) :=
    ((keeps_descend _).before fun _ => keeps_advance.before fun _ => h).atToken
  have hupdate (op : UpdateOp) :
      AdvancesAt (fun answer : Option (Expr × Bool) => answer.isSome = true)
        (do return some (← updateBehind op value, false)) :=
    (advancesAt_updateBehind op value).bind fun _ => keeps_pure _
  refine advances_peek hnone fun kind => ?_
  split
  · exact hlink (progresses_propertyName.bind fun _ => keeps_pure _)
  · exact hlink (hassignment.bind fun _ => (keeps_expectSign _).bind fun _ => keeps_pure _)
  · exact hlink ((progresses_commaList _ (keeps_assignment fuel)).bind fun _ => keeps_pure _)
  · exact (hupdate _).unlessBroken
  · exact (hupdate _).unlessBroken
  · exact hnone.atToken

end Chains

/-! ## The grammar -/

section Grammar

variable {fuel : Nat}

theorem still_restoring {α : Type} (step : Parse α) : Still (restoring step) := by
  intro cursor
  unfold restoring
  cases step cursor <;> rfl

/-- Constructs that leave the depth as it was, whether or not they fail, with the given fuel. -/
structure StillWithin (fuel : Nat) : Prop where
  statement : Still (Source.statement fuel)
  block : Still (Source.block (Source.statement fuel))
  declaration : Still (Source.declaration (Source.assignment fuel))
  function : Still (functionDef (Source.statement fuel))
  branching : Still (ifStatement (Source.assignment fuel) (Source.statement fuel))
  looping : Still (forStatement (Source.assignment fuel) (Source.statement fuel))
  assignment : Still (Source.assignment fuel)
  conditional : Still (Source.conditional (Source.climb fuel loosestLevel) (Source.assignment fuel))
  climb : ∀ level, Still (Source.climb fuel level)
  unary : Still (Source.unary fuel)
  suffixed : ∀ value, Still ((Steps.plain fuel).suffixed value)
  list : ∀ close, Still (commaList close (Source.assignment fuel))
  primary : Still (Source.primary fuel)
  object : Still (commaList .closeBrace (property (Source.assignment fuel)))

theorem still_statement (fuel : Nat) : Still (statement fuel) := by
  cases fuel with
  | zero => exact still_tooDeep
  | succ fuel => exact still_restoring _

theorem still_assignment (fuel : Nat) : Still (assignment fuel) := by
  cases fuel with
  | zero => exact still_tooDeep
  | succ fuel => exact still_restoring _

theorem still_climb (fuel level : Nat) : Still (climb fuel level) := by
  cases fuel with
  | zero => exact still_tooDeep
  | succ fuel => exact still_restoring _

theorem still_primary (fuel : Nat) : Still (primary fuel) := by
  cases fuel with
  | zero => exact still_tooDeep
  | succ fuel =>
    have haround : Still (Steps.plain fuel).aroundPrimary := still_of_balances fun _ =>
      balances_aroundPrimary (still_statement fuel).balances (still_assignment fuel).balances
    exact haround

theorem still_unary (fuel : Nat) : Still (unary fuel) := by
  cases fuel with
  | zero => exact still_tooDeep
  | succ fuel =>
    have haround : Still ((Steps.plain fuel).aroundUnary (nested (unary fuel))) :=
      still_of_balances fun _ => balances_aroundUnary (still_restoring _).balances
        (still_primary fuel).balances fun _ => (still_restoring _).balances
    exact haround

/-- **Every construct leaves the depth as it was,** also one that is put together from others. -/
theorem still_recursion (fuel : Nat) : StillWithin fuel := by
  have hs (depth : Nat) : Balances depth (statement fuel) (statement fuel) :=
    (still_statement fuel).balances
  have he (depth : Nat) : Balances depth (assignment fuel) (assignment fuel) :=
    (still_assignment fuel).balances
  exact
    { statement := still_statement fuel
      block := still_of_balances fun depth => balances_block (hs depth)
      declaration := still_of_balances fun depth => balances_declaration (he depth)
      function := still_of_balances fun depth => balances_functionDef (hs depth)
      branching := still_of_balances fun depth => balances_ifStatement (he depth) (hs depth)
      looping := still_of_balances fun depth => balances_forStatement (he depth) (hs depth)
      assignment := still_assignment fuel
      conditional := still_of_balances fun depth =>
        balances_conditional (still_climb fuel loosestLevel).balances (he depth)
      climb := still_climb fuel
      unary := still_unary fuel
      suffixed := fun _ => still_restoring _
      list := fun close => still_of_balances fun depth => balances_commaList close (he depth)
      primary := still_primary fuel
      object := still_of_balances fun depth =>
        balances_commaList .closeBrace (balances_property (he depth)) }

/-- Repetitions and chains whose rounds leave fewer tokens, with the given fuel. The rounds of a
chain use up the fuel of the grammar, and those of a list have a number of their own. -/
structure LoopsWithin (fuel : Nat) : Prop where
  program : Loops (statementsWithin (Source.statement fuel))
    (statementsRound (Source.statement fuel))
  block : Loops (blockWithin (Source.statement fuel)) (blockRound (Source.statement fuel))
  declarations : Loops (declaratorsWithin (Source.assignment fuel))
    (declaratorsRound (Source.assignment fuel))
  parameters : Loops (commaListWithin .closeParen identifier) (commaRound .closeParen identifier)
  list : ∀ close, Loops (commaListWithin close (Source.assignment fuel))
    (commaRound close (Source.assignment fuel))
  object : Loops (commaListWithin .closeBrace (property (Source.assignment fuel)))
    (commaRound .closeBrace (property (Source.assignment fuel)))
  chain : ∀ level left, Advances (·.isSome) (chainRound (climb fuel) level left) ∧
    Source.chain (fuel + 1) level left = (do
      match ← chainRound (climb fuel) level left with
      | none => return left
      | some joined => Source.chain fuel level joined)
  suffixes : ∀ value, Advances (·.isSome) (suffixRound (Source.assignment fuel) value) ∧
    Source.suffixes (fuel + 1) value = (do
      match ← suffixRound (Source.assignment fuel) value with
      | none => return value
      | some (suffixed, false) => return suffixed
      | some (suffixed, true) => Source.suffixes fuel suffixed)

theorem loops_recursion (fuel : Nat) : LoopsWithin fuel := by
  have hprogress := progresses_recursion fuel
  exact
    { program := loops_statements hprogress.statement
      block := loops_block hprogress.statement
      declarations := loops_declarators (keeps_assignment fuel)
      parameters := loops_commaList _ progresses_identifier
      list := fun close => loops_commaList close hprogress.assignment
      object := loops_commaList _ (progresses_property hprogress.assignment)
      chain := fun level left => ⟨advances_chainRound level left, chain_eq_chainRound level left⟩
      suffixes := fun value => ⟨advances_suffixRound value, suffixes_eq_suffixRound value⟩ }

end Grammar

end Formulary.Source

namespace Formulary

/-- **Reading a text comes to an end within the nesting budget.** It is the same as metered reading,
whatever would end that where the budget is not kept or the fuel is used up; every construct leaves
fewer tokens than it finds, and so does every round of a repetition; and every construct leaves the
depth as it was. -/
theorem Program.parse_ends (text : String) :
    (∀ fault, Source.meteredProgram fault (Source.tokenize text.toList) = Program.parse text) ∧
      ∀ fuel, Source.ProgressesWithin fuel ∧ Source.LoopsWithin fuel ∧ Source.StillWithin fuel :=
  ⟨fun fault => Source.meteredProgram_eq fault _, fun fuel => ⟨Source.progresses_recursion fuel,
    Source.loops_recursion fuel, Source.still_recursion fuel⟩⟩

end Formulary
