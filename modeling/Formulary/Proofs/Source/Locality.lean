import Formulary.Proofs.Source.Following

/-!
# What follows a text does not count

* `proceeds_commaList`, `proceeds_block`, ... : constructs around parts that read the same in a
  longer text;
* `carries_recursion` : expressions leave what follows, and statements leave all but a semicolon;
* `statementsWithin_followed` : the statements of a text are read first in the longer text.
-/

namespace Formulary.Source

/-! ## Repetitions -/

section Repetitions

variable {α : Type} {sequel : Sequel} {item : Parse α} {value : Parse Expr}
  {statement : Parse Stmt} {fuel fuel' : Nat}

/-- A round that ends with a sign has one token less to go on with. -/
theorem length_lt_of_advance {cursor after : Cursor} {a : Unit}
    (h : AtToken (fun tokens => tokens.length < fuel + 1) cursor.tokens)
    (hstep : advance cursor = .ok a after) : after.tokens.length < fuel := by
  obtain ⟨-, rfl⟩ := advance_eq_ok.mp hstep
  obtain ⟨token, rest, htokens⟩ := List.exists_cons_of_ne_nil h.1
  have hlength := h.2
  rw [htokens, List.length_cons] at hlength
  simpa [htokens] using hlength

/-- A step behind an item of a repetition, whose rounds are bounded by the number of tokens. -/
theorem Carries.within {β : Type} {r : Cursor → Cursor → Prop} {more more' : α → Parse β}
    (h : Proceeds sequel item) (keeps : Keeps item)
    (second : ∀ a, Carries sequel (fun tokens => tokens.length < fuel) r (more a) (more' a)) :
    Carries sequel (fun tokens => tokens.length < fuel) r (item >>= more) (item >>= more') :=
  Carries.bind h.at
    (fun cursor a after hlt hstep => Nat.lt_of_le_of_lt (keeps cursor a after hstep).length_le hlt)
    second

theorem carries_commaListWithin {close : Symbol} (hclose : close ≠ .semicolon)
    (h : Proceeds sequel item) (keeps : Keeps item) (more : fuel ≤ fuel') :
    Carries sequel (fun tokens => tokens.length < fuel) (Cursor.Followed sequel)
      (commaListWithin close item fuel) (commaListWithin close item fuel') := by
  induction fuel generalizing fuel' with
  | zero => exact fun _ _ _ _ _ hpre _ => absurd hpre (Nat.not_lt_zero _)
  | succ fuel ih =>
    obtain ⟨fuel', rfl⟩ := Nat.exists_eq_add_one_of_ne_zero (by omega : fuel' ≠ 0)
    have hih := ih (by omega : fuel ≤ fuel')
    refine carries_ifSign hclose (carries_pure _) (Carries.within h keeps fun first => ?_)
    exact carries_ifSign (by decide)
      (carries_advance.bind (fun _ _ _ => length_lt_of_advance) fun _ => hih.map) (carries_pure _)

theorem proceeds_commaList {close : Symbol} (hclose : close ≠ .semicolon)
    (h : Proceeds sequel item) (keeps : Keeps item) : Proceeds sequel (commaList close item) :=
  carries_rounds fun _ _ more => (carries_commaListWithin hclose h keeps more).next fun _ =>
    (proceeds_expectSign close).next fun _ => carries_pure _

theorem proceeds_declarator (h : Proceeds sequel value) : Proceeds sequel (declarator value) :=
  proceeds_identifier.next fun _ =>
    carries_ifSign (by decide) (carries_advance.next fun _ => h.map) (carries_pure _)

theorem carries_declaratorsWithin (h : Proceeds sequel value) (keeps : Keeps value)
    (more : fuel ≤ fuel') :
    Carries sequel (fun tokens => tokens.length < fuel) (Cursor.Followed sequel)
      (declaratorsWithin value fuel) (declaratorsWithin value fuel') := by
  induction fuel generalizing fuel' with
  | zero => exact fun _ _ _ _ _ hpre _ => absurd hpre (Nat.not_lt_zero _)
  | succ fuel ih =>
    obtain ⟨fuel', rfl⟩ := Nat.exists_eq_add_one_of_ne_zero (by omega : fuel' ≠ 0)
    have hih := ih (by omega : fuel ≤ fuel')
    refine Carries.within (proceeds_declarator h) (keeps_declarator keeps) fun first => ?_
    exact carries_ifSign (by decide)
      (carries_advance.bind (fun _ _ _ => length_lt_of_advance) fun _ => hih.map) (carries_pure _)

theorem carries_declaration {pre : List Token → Prop} (h : Proceeds sequel value)
    (keeps : Keeps value) :
    Carries sequel (AtToken pre) (Cursor.Followed sequel) (declaration value)
      (declaration value) :=
  carries_advance.next fun _ => carries_rounds fun _ _ more =>
    (carries_declaratorsWithin h keeps more).map

/-- Without a closing brace a block is not read to its end. -/
theorem blockWithin_ne_ok {cursor after : Cursor} {body : List Stmt} (ended : cursor.tokens = []) :
    blockWithin statement (fuel + 1) cursor ≠ .ok body after := by
  intro h
  obtain ⟨tokens, ending, depth⟩ := cursor
  cases ended
  have hunexpected : (do
      unexpected "'\x7d'"
      return (← statement) :: (← blockWithin statement fuel) : Parse (List Stmt))
        ⟨[], ending, depth⟩ = .ok body after := h
  exact (refuses_unexpected _).bind _ body after rfl hunexpected

/-- Where the end of a text ends a statement, no brace closes the block around it. -/
theorem carries_blockWithin (h : Concludes sequel statement) (opens : Opens statement)
    (keeps : Keeps statement) (more : fuel ≤ fuel') :
    Carries sequel (fun tokens => tokens.length < fuel) (Cursor.Followed sequel)
      (blockWithin statement fuel) (blockWithin statement fuel') := by
  induction fuel generalizing fuel' with
  | zero => exact fun _ _ _ _ _ hpre _ => absurd hpre (Nat.not_lt_zero _)
  | succ fuel ih =>
    obtain ⟨fuel', rfl⟩ := Nat.exists_eq_add_one_of_ne_zero (by omega : fuel' ≠ 0)
    have hih := ih (by omega : fuel ≤ fuel')
    have hrest : Carries sequel (fun tokens => tokens.length < fuel + 1) (Cursor.Followed sequel)
        (do return (← statement) :: (← blockWithin statement fuel))
        (do return (← statement) :: (← blockWithin statement fuel')) := by
      intro cursor other body after followed hpre hrun
      obtain ⟨first, middle, hfirst, hbody⟩ := bind_eq_ok.mp hrun
      obtain ⟨middle', hfirst', joined⟩ := h cursor other first middle followed trivial hfirst
      have hlength : middle.tokens.length < fuel := by
        have hlt := opens.length_lt keeps hfirst
        omega
      cases joined with
      | followed hmiddle =>
        obtain ⟨after', hbody', hafter⟩ := hih.map middle middle' body after hmiddle hlength hbody
        exact ⟨after', bind_eq_ok.mpr ⟨first, middle', hfirst', hbody'⟩, hafter⟩
      | past newline beside ended semicolon =>
        -- A brace is still to come, and so the text has no answer here.
        obtain ⟨fuel, rfl⟩ := Nat.exists_eq_add_one_of_ne_zero (by omega : fuel ≠ 0)
        obtain ⟨rest, last, hrest, -⟩ := bind_eq_ok.mp hbody
        exact absurd hrest (blockWithin_ne_ok ended)
    refine carries_ifSign (by decide) (carries_pure _) (carries_peek (fun kind => ?_) ?_)
    · exact hrest.weaken fun _ h => h.2
    · exact (refuses_unexpected _).bind

theorem proceeds_block (h : Concludes sequel statement) (opens : Opens statement)
    (keeps : Keeps statement) : Proceeds sequel (block statement) :=
  (proceeds_expectSign _).next fun _ => carries_rounds fun _ _ more =>
    (carries_blockWithin h opens keeps more).next fun _ =>
      (proceeds_expectSign _).next fun _ => carries_pure _

end Repetitions

/-! ## Constructs around their parts -/

section Parts

variable {sequel : Sequel} {pre : List Token → Prop} {expression branch value : Parse Expr}
  {statement : Parse Stmt}

theorem proceeds_stringValue (raw : String) : Proceeds sequel (stringValue raw) := by
  unfold stringValue
  split
  · exact carries_pure _
  · exact carries_throwAt _

theorem proceeds_numberValue (text : String) : Proceeds sequel (numberValue text) := by
  unfold numberValue
  split
  · exact carries_pure _
  · exact carries_throwAt _

theorem proceeds_propertyName : Proceeds sequel propertyName := by
  refine carries_peek (fun kind => ?_) (refuses_unexpected _)
  split
  · exact carries_taken _
  · exact carries_taken _
  · exact carries_unexpected _

theorem proceeds_propertyKey : Proceeds sequel propertyKey := by
  refine carries_peek (fun kind => ?_) (refuses_unexpected _)
  split
  · exact carries_taken _
  · exact carries_taken _
  · exact Carries.looking (proceeds_stringValue _) (looks_stringValue _) fun _ => carries_taken _
  · exact carries_taken _
  · exact carries_unexpected _

theorem proceeds_property (h : Proceeds sequel value) : Proceeds sequel (property value) :=
  proceeds_propertyKey.next fun _ => (proceeds_expectSign _).next fun _ => h.map

theorem carries_functionDef (h : Concludes sequel statement) (opens : Opens statement)
    (keeps : Keeps statement) :
    Carries sequel (AtToken pre) (Cursor.Followed sequel) (functionDef statement)
      (functionDef statement) := by
  have hrest : ∀ name, Proceeds sequel (do
      expectSign .openParen
      let parameters ← commaList .closeParen identifier
      return FunctionDef.mk name parameters (← block statement)) := fun name =>
    (proceeds_expectSign _).next fun _ =>
      (proceeds_commaList (by decide) proceeds_identifier keeps_identifier).next fun _ =>
        (proceeds_block h opens keeps).map
  refine carries_advance.next fun _ => carries_peek (fun kind => ?_) ?_
  · split
    · exact carries_advance.next fun _ => hrest _
    · exact (hrest _).at
  · exact (opens_expectSign _).needs.bind

theorem proceeds_parenthesized (h : Proceeds sequel expression) :
    Proceeds sequel (parenthesized expression) :=
  (proceeds_expectSign _).next fun _ => h.next fun _ => (proceeds_expectSign _).next fun _ =>
    carries_pure _

theorem proceeds_conditional (h : Proceeds sequel expression) (hbranch : Proceeds sequel branch) :
    Proceeds sequel (conditional expression branch) :=
  h.next fun _ => carries_ifSign (by decide)
    (carries_advance.next fun _ => hbranch.next fun _ => (proceeds_expectSign _).next fun _ =>
      hbranch.map)
    (carries_pure _)

theorem proceeds_assignmentTo (h : Proceeds sequel expression) (hvalue : Proceeds sequel value) :
    Proceeds sequel (assignmentTo expression value) := by
  refine h.next fun target => carries_peekEnd (fun kind => ?_) rfl (carries_pure _)
  split
  · exact carries_pure _
  · split
    · exact carries_advance.next fun _ => hvalue.map
    · exact carries_throwAt _

theorem carries_updateBefore (op : UpdateOp) (h : Proceeds sequel expression) :
    Carries sequel (AtToken pre) (Cursor.Followed sequel) (updateBefore op expression)
      (updateBefore op expression) := by
  refine carries_position fun start start' => carries_advance.next fun _ => h.next fun target => ?_
  split
  · exact carries_pure _
  · exact carries_of_ne_ok fun _ _ _ h => nomatch h

theorem carries_updateBehind (op : UpdateOp) (target : Expr) :
    Carries sequel (AtToken pre) (Cursor.Followed sequel) (updateBehind op target)
      (updateBehind op target) := by
  unfold updateBehind
  split
  · exact carries_taken _
  · exact carries_throwAt _

theorem carries_unaryOf (op : UnaryOp) (h : Proceeds sequel expression) :
    Carries sequel (AtToken pre) (Cursor.Followed sequel) (unaryOf op expression)
      (unaryOf op expression) :=
  carries_advance.next fun _ => h.map

/-! ### Statements -/

theorem carries_declarationStatement (h : Proceeds sequel value) (keeps : Keeps value) :
    Carries sequel (AtToken pre) (Cursor.Joined sequel) (declarationStatement value)
      (declarationStatement value) :=
  (carries_declaration h keeps).next fun _ => concludes_endStatement.map

/-- A word that is not there is not taken. -/
theorem ifWord_of_ne {α : Type} {word : Keyword} {yes no : Parse α} {cursor : Cursor}
    (h : cursor.tokens.head?.map Token.kind ≠ some (.keyword word)) :
    (do if ← atWord word then yes else no : Parse α) cursor = no cursor := by
  show (if cursor.tokens.head?.map Token.kind == some (.keyword word) then yes else no) cursor = _
  rw [if_neg (by simpa using h)]

/-- No `else` behind the semicolon of a sequel belongs to a condition before it. -/
theorem Sequel.not_else {newline : Bool} {tokens : List Token}
    (h : sequel.aspects = (.symbol .semicolon, newline) :: tokens.map Token.aspect) :
    tokens.head?.map Token.kind ≠ some (.keyword .elseWord) := by
  rcases sequel.begins with hnil | ⟨newline', rest, hcons, hword⟩
  · rw [hnil] at h
    cases h
  · rw [hcons] at h
    obtain ⟨-, rfl⟩ := List.cons.inj h
    simpa [Function.comp_def, Token.aspect] using hword

theorem carries_ifStatement (h : Proceeds sequel expression)
    (hstatement : Concludes sequel statement) :
    Carries sequel (AtToken pre) (Cursor.Joined sequel) (ifStatement expression statement)
      (ifStatement expression statement) := by
  refine carries_advance.next fun _ => (proceeds_parenthesized h).next fun test => ?_
  have hbranch : ∀ consequent, Concludes sequel (do
      if ← atWord .elseWord then
        advance
        return .ifElse test consequent (some (← statement))
      else return .ifElse test consequent none : Parse Stmt) := fun _ =>
    carries_ifWord (carries_advance.next fun _ => hstatement.map) (carries_pure _).joined
  intro cursor other result after followed _ hrun
  obtain ⟨consequent, middle, hfirst, hlast⟩ := bind_eq_ok.mp hrun
  obtain ⟨middle', hfirst', joined⟩ :=
    hstatement cursor other consequent middle followed trivial hfirst
  cases joined with
  | followed hmiddle =>
    obtain ⟨after', hlast', hafter⟩ := hbranch consequent middle middle' result after hmiddle
      trivial hlast
    exact ⟨after', bind_eq_ok.mpr ⟨consequent, middle', hfirst', hlast'⟩, hafter⟩
  | past newline beside ended semicolon =>
    rw [ifWord_of_ne (by rw [ended]; simp)] at hlast
    cases hlast
    refine ⟨middle', bind_eq_ok.mpr ⟨consequent, middle', hfirst', ?_⟩,
      .past newline beside ended semicolon⟩
    rw [ifWord_of_ne (Sequel.not_else semicolon)]
    rfl

theorem carries_whileStatement (h : Proceeds sequel expression)
    (hstatement : Concludes sequel statement) :
    Carries sequel (AtToken pre) (Cursor.Joined sequel) (whileStatement expression statement)
      (whileStatement expression statement) :=
  carries_advance.next fun _ => (proceeds_parenthesized h).next fun _ => hstatement.map

theorem proceeds_optionalBefore (sign : Symbol) (h : Proceeds sequel expression)
    (needs : Needs expression) : Proceeds sequel (optionalBefore sign expression) :=
  carries_ifSignElse (carries_pure _) h.map needs.bind

theorem proceeds_forStart (h : Proceeds sequel expression) (needs : Needs expression)
    (keeps : Keeps expression) : Proceeds sequel (forStart expression) := by
  refine carries_peek (fun kind => ?_) needs.bind
  split
  · exact carries_pure _
  · exact (carries_declaration h keeps).map
  · exact (carries_declaration h keeps).map
  · exact (carries_declaration h keeps).map
  · exact h.map.at

theorem carries_forStatement (h : Proceeds sequel expression) (needs : Needs expression)
    (keeps : Keeps expression) (hstatement : Concludes sequel statement) :
    Carries sequel (AtToken pre) (Cursor.Joined sequel) (forStatement expression statement)
      (forStatement expression statement) :=
  carries_advance.next fun _ => (proceeds_expectSign _).next fun _ =>
    (proceeds_forStart h needs keeps).next fun _ => (proceeds_expectSign _).next fun _ =>
      (proceeds_optionalBefore _ h needs).next fun _ => (proceeds_expectSign _).next fun _ =>
        (proceeds_optionalBefore _ h needs).next fun _ => (proceeds_expectSign _).next fun _ =>
          hstatement.map

/-- At the end of the text a `return` has no value, and it has none at a semicolon. -/
theorem carries_returnStatement (h : Proceeds sequel expression) :
    Carries sequel (AtToken pre) (Cursor.Joined sequel) (returnStatement expression)
      (returnStatement expression) := by
  have hrest : ∀ value, Concludes sequel (do endStatement; return Stmt.ret value) := fun _ =>
    concludes_endStatement.map
  refine carries_advance.next fun _ => carries_peekEnd (fun kind => ?_) rfl (hrest none)
  split
  · exact (hrest none).at
  · exact (hrest none).at
  · exact (hrest none).at
  · have hvalue : Proceeds sequel (some <$> expression) := by
      rw [map_eq_pure_bind]
      exact h.map
    exact carries_ifNewline (hrest none).at (hvalue.next hrest).at

theorem carries_functionStatement {suffixes : Expr → Parse Expr}
    (hstatement : Concludes sequel statement) (opens : Opens statement) (keeps : Keeps statement)
    (h : ∀ value, Proceeds sequel (suffixes value)) :
    Carries sequel (AtToken pre) (Cursor.Joined sequel) (functionStatement statement suffixes)
      (functionStatement statement suffixes) := by
  refine (carries_functionDef hstatement opens keeps).next fun definition => ?_
  split
  · exact (carries_pure _).joined
  · exact (h _).next fun _ => concludes_endStatement.map

theorem concludes_expressionStatement (h : Proceeds sequel expression) :
    Concludes sequel (expressionStatement expression) :=
  h.next fun _ => concludes_endStatement.map

theorem carries_wordStatement (result : Stmt) :
    Carries sequel (AtToken pre) (Cursor.Joined sequel) (wordStatement result)
      (wordStatement result) :=
  carries_advance.next fun _ => concludes_endStatement.map

end Parts

/-! ## The grammar -/

/-- What constructs of the grammar read in a text with a sequel, with the given fuel. -/
structure CarriesWithin (sequel : Sequel) (fuel : Nat) : Prop where
  statement : Concludes sequel (statement fuel)
  assignment : Proceeds sequel (assignment fuel)
  climb : ∀ level, Proceeds sequel (climb fuel level)
  chain : ∀ level left, Proceeds sequel (chain fuel level left)
  unary : Proceeds sequel (unary fuel)
  suffixes : ∀ value, Proceeds sequel (suffixes fuel value)
  primary : Proceeds sequel (primary fuel)

section Recursion

variable {sequel : Sequel} {fuel : Nat}

theorem concludes_statement (h : CarriesWithin sequel fuel) :
    Concludes sequel (statement (fuel + 1)) := by
  have opens := (opens_recursion fuel).statement
  have keeps := keeps_statement fuel
  have needs := (opens_recursion fuel).assignment.needs
  have keeps' := keeps_assignment fuel
  refine Concludes.nested (carries_peek (fun kind => ?_) (refuses_unexpected _))
  split
  · exact carries_unexpected _
  · exact (carries_taken _).joined
  · exact (proceeds_block h.statement opens keeps).map.joined.at
  · exact carries_declarationStatement h.assignment keeps'
  · exact carries_declarationStatement h.assignment keeps'
  · exact carries_declarationStatement h.assignment keeps'
  · exact carries_functionStatement h.statement opens keeps fun value =>
      (h.suffixes value).restoring
  · exact carries_returnStatement h.assignment
  · exact carries_ifStatement h.assignment h.statement
  · exact carries_whileStatement h.assignment h.statement
  · exact carries_forStatement h.assignment needs keeps' h.statement
  · exact carries_wordStatement _
  · exact carries_wordStatement _
  · exact (concludes_expressionStatement h.assignment).at

theorem proceeds_chain (h : CarriesWithin sequel fuel) (level : Nat) (left : Expr) :
    Proceeds sequel (chain (fuel + 1) level left) := by
  refine carries_peekEnd (fun kind => ?_) rfl (carries_pure _)
  split
  · exact carries_pure _
  · split
    · exact carries_pure _
    · exact Carries.descend
        (carries_advance.next fun _ => (h.climb _).next fun _ => h.chain level _) linkCost

theorem proceeds_unary (h : CarriesWithin sequel fuel) :
    Proceeds sequel (unary (fuel + 1)) := by
  refine carries_peek (fun kind => ?_) (opens_recursion fuel).primary.needs.bind
  split
  · exact carries_unaryOf _ h.unary.nested
  · exact carries_unaryOf _ h.unary.nested
  · exact carries_unaryOf _ h.unary.nested
  · exact carries_unaryOf _ h.unary.nested
  · exact carries_updateBefore _ h.unary.nested
  · exact carries_updateBefore _ h.unary.nested
  · exact Carries.at (h.primary.next fun value => (h.suffixes value).restoring)

theorem proceeds_suffixes (h : CarriesWithin sequel fuel) (value : Expr) :
    Proceeds sequel (suffixes (fuel + 1) value) := by
  have keeps := keeps_assignment fuel
  refine carries_peekEnd (fun kind => ?_) rfl (carries_pure _)
  split
  · exact Carries.descend (carries_advance.next fun _ => proceeds_propertyName.next fun _ =>
      h.suffixes _) linkCost
  · exact Carries.descend (carries_advance.next fun _ => h.assignment.next fun _ =>
      (proceeds_expectSign _).next fun _ => h.suffixes _) linkCost
  · exact Carries.descend (carries_advance.next fun _ =>
      (proceeds_commaList (by decide) h.assignment keeps).next fun _ => h.suffixes _) linkCost
  · exact carries_ifNewline (carries_pure _) (carries_updateBehind _ value)
  · exact carries_ifNewline (carries_pure _) (carries_updateBehind _ value)
  · exact carries_pure _

theorem proceeds_primary (h : CarriesWithin sequel fuel) :
    Proceeds sequel (primary (fuel + 1)) := by
  have keeps := keeps_assignment fuel
  refine carries_peek (fun kind => ?_) (refuses_unexpected _)
  split
  · exact Carries.looking (proceeds_numberValue _) (looks_numberValue _) fun _ => carries_taken _
  · exact Carries.looking (proceeds_stringValue _) (looks_stringValue _) fun _ => carries_taken _
  · exact carries_taken _
  · exact carries_taken _
  · exact carries_taken _
  · exact carries_taken _
  · exact (carries_functionDef h.statement (opens_recursion fuel).statement
      (keeps_statement fuel)).map
  · exact carries_taken _
  · exact (proceeds_parenthesized h.assignment).at
  · exact carries_advance.next fun _ => (proceeds_commaList (by decide) h.assignment keeps).map
  · exact carries_advance.next fun _ => (proceeds_commaList (by decide)
      (proceeds_property h.assignment) (keeps_property keeps)).map
  · exact carries_unexpected _

/-- **What follows a text does not count:** an expression is read the same, and so is a statement,
which may take the semicolon behind the text where the text ended before. -/
theorem carries_recursion (sequel : Sequel) (fuel : Nat) : CarriesWithin sequel fuel := by
  induction fuel with
  | zero =>
    have never : ∀ {α : Type} {r : Cursor → Cursor → Prop},
        Carries sequel (fun _ => True) r (tooDeep : Parse α) tooDeep := fun {α r} =>
      carries_of_ne_ok fun _ _ _ => tooDeep_ne_ok
    exact ⟨never, never, fun _ => never, fun _ _ => never, never, fun _ => never, never⟩
  | succ fuel ih =>
    exact ⟨concludes_statement ih,
      Proceeds.nested
        (proceeds_assignmentTo (proceeds_conditional (ih.climb _) ih.assignment) ih.assignment),
      fun level => Proceeds.restoring (ih.unary.next fun left => ih.chain level left),
      proceeds_chain ih, proceeds_unary ih, proceeds_suffixes ih, proceeds_primary ih⟩

end Recursion

/-! ## The statements of a text -/

section Statements

variable {cursor other after : Cursor} {fuel fuel' steps : Nat} {body : List Stmt}

theorem statementsWithin_of_ended (statement : Parse Stmt) (fuel : Nat)
    (ended : cursor.tokens = []) :
    statementsWithin statement (fuel + 1) cursor = .ok [] cursor := by
  obtain ⟨tokens, ending, depth⟩ := cursor
  cases ended
  rfl

theorem statementsWithin_of_present (statement : Parse Stmt) (fuel : Nat)
    (present : cursor.tokens ≠ []) :
    statementsWithin statement (fuel + 1) cursor =
      (do return (← statement) :: (← statementsWithin statement fuel) : Parse (List Stmt))
        cursor := by
  obtain ⟨tokens, ending, depth⟩ := cursor
  obtain ⟨token, rest, rfl⟩ := List.exists_cons_of_ne_nil present
  rfl

/-- A statement gives back what it took from the nesting budget. -/
theorem depth_of_statement {s : Stmt} (h : statement steps cursor = .ok s after) :
    after.depth = cursor.depth := by
  cases steps with
  | zero => exact absurd h tooDeep_ne_ok
  | succ steps =>
    obtain ⟨inner, -, rfl⟩ := restoring_eq_ok.mp h
    rfl

/-- **The statements of a text are read first in the text with a sequel.** They end with the text,
and behind them the sequel is read, or what follows its semicolon. -/
theorem statementsWithin_followed {sequel : Sequel} (followed : cursor.Followed sequel other)
    (enough : cursor.tokens.length < fuel) (enough' : fuel + sequel.aspects.length ≤ fuel')
    (h : statementsWithin (statement steps) fuel cursor = .ok body after) :
    after.tokens = [] ∧ after.depth = cursor.depth ∧ ∃ other' left,
      after.Joined sequel other' ∧ sequel.aspects.length < left ∧
      ∀ rest last, statementsWithin (statement steps) left other' = .ok rest last →
        statementsWithin (statement steps) fuel' other = .ok (body ++ rest) last := by
  -- On the rounds that are left: every statement leaves fewer tokens, so that they never run out.
  induction fuel generalizing cursor other fuel' body with
  | zero => exact absurd enough (Nat.not_lt_zero _)
  | succ fuel ih =>
    obtain ⟨fuel', rfl⟩ := Nat.exists_eq_add_one_of_ne_zero (by omega : fuel' ≠ 0)
    by_cases ended : cursor.tokens = []
    · rw [statementsWithin_of_ended _ _ ended] at h
      cases h
      exact ⟨ended, rfl, other, fuel' + 1, .followed followed, by omega, fun _ _ hrest => hrest⟩
    · rw [statementsWithin_of_present _ _ ended] at h
      obtain ⟨first, middle, hfirst, hmap⟩ := bind_eq_ok.mp h
      obtain ⟨others, last, hothers, hpure⟩ := bind_eq_ok.mp hmap
      cases hpure
      have hlength := (opens_recursion steps).statement.length_lt (keeps_statement steps) hfirst
      have hdepth := depth_of_statement hfirst
      obtain ⟨middle', hfirst', joined⟩ := (carries_recursion sequel steps).statement cursor other
        first middle followed trivial hfirst
      have present : other.tokens ≠ [] := by
        intro hnil
        have htokens := followed.length
        rw [hnil, List.length_nil] at htokens
        exact ended (List.eq_nil_of_length_eq_zero (by omega))
      have hrun : ∀ rest last, statementsWithin (statement steps) fuel' middle' = .ok rest last →
          statementsWithin (statement steps) (fuel' + 1) other = .ok (first :: rest) last := by
        intro rest last hrest
        rw [statementsWithin_of_present _ _ present]
        exact bind_eq_ok.mpr ⟨first, middle', hfirst', bind_eq_ok.mpr ⟨rest, last, hrest, rfl⟩⟩
      cases joined with
      | followed hmiddle =>
        obtain ⟨hended, hdepth', other', left, hjoined, hleft, hagain⟩ :=
          ih hmiddle (by omega) (by omega : fuel + sequel.aspects.length ≤ fuel') hothers
        exact ⟨hended, hdepth'.trans hdepth, other', left, hjoined, hleft,
          fun rest last hrest => hrun _ last (hagain rest last hrest)⟩
      | past newline beside hended semicolon =>
        obtain ⟨fuel, rfl⟩ := Nat.exists_eq_add_one_of_ne_zero (by omega : fuel ≠ 0)
        rw [statementsWithin_of_ended _ _ hended] at hothers
        cases hothers
        exact ⟨hended, hdepth, middle', fuel', .past newline beside hended semicolon, by omega,
          hrun⟩

end Statements

end Formulary.Source
