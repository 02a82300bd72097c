import Formulary.Proofs.Sequence
import Formulary.Proofs.Source.Expressions
import Formulary.Source.Grammar

/-!
# What is read from tokens

* `CallSite` : a place in tokens where a name is called;
* `Reads` : what a reading step comes to among the tokens of a text;
* `Grounded` : expressions whose calls of names have such places among the tokens read;
* `reads_recursion` : every construct of the grammar reads such expressions;
* `callSite_of_program` : a name that a program calls is called in its tokens.
-/

namespace Formulary.Source

/-! ## Places -/

/-- A place where a name is called: its token, closing parentheses behind it, if any, and the
opening parenthesis of the call. -/
structure CallSite (all : List Token) (name : String) where
  before : List Token
  callee : Token
  closings : List Token
  opening : Token
  after : List Token
  tokens : all = before ++ callee :: (closings ++ opening :: after)
  callee_kind : callee.kind = .identifier name
  closings_kind : ∀ token ∈ closings, token.kind = .symbol .closeParen
  opening_kind : opening.kind = .symbol .openParen

/-- Whether the tokens read so far end with a name and closing parentheses behind it. -/
def EndsIn (all : List Token) (name : String) (tokens : List Token) : Prop :=
  ∃ before callee closings, all = before ++ callee :: (closings ++ tokens) ∧
    callee.kind = .identifier name ∧ ∀ token ∈ closings, token.kind = .symbol .closeParen

theorem EndsIn.close {all tokens : List Token} {name : String} {token : Token}
    (h : EndsIn all name (token :: tokens)) (kind : token.kind = .symbol .closeParen) :
    EndsIn all name tokens := by
  obtain ⟨before, callee, closings, rfl, hcallee, hclosings⟩ := h
  refine ⟨before, callee, closings ++ [token], by simp, hcallee, ?_⟩
  intro other hother
  rcases List.mem_append.mp hother with h | h
  · exact hclosings other h
  · rw [List.mem_singleton.mp h, kind]

theorem EndsIn.callSite {all tokens : List Token} {name : String} {token : Token}
    (h : EndsIn all name (token :: tokens)) (kind : token.kind = .symbol .openParen) :
    Nonempty (CallSite all name) := by
  obtain ⟨before, callee, closings, hall, hcallee, hclosings⟩ := h
  exact ⟨⟨before, callee, closings, token, tokens, hall, hcallee, hclosings, kind⟩⟩

/-- Whether every name that is called among expressions is called in the tokens. -/
def Sited (all : List Token) (expressions : List Expr) : Prop :=
  ∀ name arguments, .call (.identifier name) arguments ∈ expressions →
    Nonempty (CallSite all name)

/-- Whether the calls in an expression have their places, and so would a call of the expression that
begins with the next token. -/
structure Grounded (all : List Token) (e : Expr) (tokens : List Token) : Prop where
  sited : Sited all e.expressions
  ends : ∀ name, e = .identifier name → EndsIn all name tokens

section Sited

variable {all tokens : List Token} {e : Expr} {first rest : List Expr}

theorem sited_nil : Sited all [] := fun _ _ h => (nomatch h)

theorem sited_append : Sited all (first ++ rest) ↔ Sited all first ∧ Sited all rest := by
  constructor
  · exact fun h => ⟨fun name arguments hmem => h name arguments (List.mem_append_left _ hmem),
      fun name arguments hmem => h name arguments (List.mem_append_right _ hmem)⟩
  · rintro ⟨hfirst, hrest⟩ name arguments hmem
    exact (List.mem_append.mp hmem).elim (hfirst name arguments) (hrest name arguments)

theorem sited_cons (called : ∀ name arguments, e = .call (.identifier name) arguments →
    Nonempty (CallSite all name)) (h : Sited all rest) : Sited all (e :: rest) := by
  intro name arguments hmem
  rcases List.mem_cons.mp hmem with heq | hmem
  · exact called name arguments heq.symm
  · exact h name arguments hmem

/-- An expression that is no name is grounded when its calls have their places. -/
theorem grounded_of_sited (h : Sited all e.expressions) (noName : ∀ name, e ≠ .identifier name) :
    Grounded all e tokens :=
  ⟨h, fun name heq => absurd heq (noName name)⟩

end Sited

/-! ## Steps -/

/-- Whether a step, begun where tokens of the text with a property are still to read, stops where
others are, and its answer and they are as stated. -/
def Reads {α : Type} (all : List Token) (pre : List Token → Prop) (step : Parse α)
    (post : α → List Token → Prop) : Prop :=
  ∀ cursor a after, cursor.tokens <:+ all → pre cursor.tokens → step cursor = .ok a after →
    after.tokens <:+ all ∧ post a after.tokens

/-- Whether the answer of a step is as stated wherever it is begun. -/
abbrev Gives {α : Type} (all : List Token) (step : Parse α) (Q : α → Prop) : Prop :=
  Reads all (fun _ => True) step fun a _ => Q a

section Steps

variable {α β : Type} {all : List Token} {pre pre' : List Token → Prop} {step : Parse α}
  {next : α → Parse β} {post : α → List Token → Prop} {post' : β → List Token → Prop}
  {Q : α → Prop}

theorem reads_pure {a : α} (h : ∀ tokens, pre tokens → post a tokens) :
    Reads all pre (pure a) post := by
  rintro cursor _ _ hsuffix hpre ⟨⟩
  exact ⟨hsuffix, h _ hpre⟩

theorem reads_throw (e : SyntaxError) : Reads all pre (throw e : Parse α) post :=
  fun _ _ _ _ _ h => (nomatch h)

theorem Reads.bind (first : Reads all pre step post)
    (second : ∀ a, Reads all (post a) (next a) post') : Reads all pre (step >>= next) post' := by
  intro cursor b after hsuffix hpre h
  obtain ⟨a, middle, hstep, h⟩ := bind_eq_ok.mp h
  obtain ⟨hmiddle, hpost⟩ := first cursor a middle hsuffix hpre hstep
  exact second a middle b after hmiddle hpost h

theorem Reads.weaken {post₂ : α → List Token → Prop} (h : Reads all pre step post)
    (hpre : ∀ tokens, pre' tokens → pre tokens)
    (hpost : ∀ a tokens, post a tokens → post₂ a tokens) : Reads all pre' step post₂ := by
  intro cursor a after hsuffix hpre' hstep
  obtain ⟨hafter, hp⟩ := h cursor a after hsuffix (hpre _ hpre') hstep
  exact ⟨hafter, hpost _ _ hp⟩

/-- A fact about the tokens to begin with that outlives them. -/
theorem Reads.of_fact {P : Prop} (fact : ∀ tokens, tokens <:+ all → pre tokens → P)
    (h : P → Reads all (fun _ => True) step post) : Reads all pre step post :=
  fun cursor a after hsuffix hpre hstep =>
    h (fact _ hsuffix hpre) cursor a after hsuffix trivial hstep

/-- A step behind one whose answer is known. -/
theorem Gives.bind (first : Gives all step Q)
    (second : ∀ a, Q a → Reads all (fun _ => True) (next a) post') :
    Reads all (fun _ => True) (step >>= next) post' :=
  Reads.bind first fun a => .of_fact (fun _ _ h => h) (second a)

theorem Gives.map {Q' : β → Prop} {f : α → β} (first : Gives all step Q)
    (h : ∀ a, Q a → Q' (f a)) : Gives all (do return f (← step)) Q' :=
  first.bind fun a ha => reads_pure fun _ _ => h a ha

/-! ### Looking at tokens -/

theorem reads_peek : Reads all pre peek fun kind tokens =>
    pre tokens ∧ kind = tokens.head?.map Token.kind := by
  rintro cursor _ _ hsuffix hpre ⟨⟩
  exact ⟨hsuffix, hpre, rfl⟩

theorem reads_position : Reads all pre position fun _ => pre := by
  rintro cursor _ _ hsuffix hpre ⟨⟩
  exact ⟨hsuffix, hpre⟩

theorem reads_newlineBefore : Reads all pre newlineBefore fun _ => pre := by
  rintro cursor _ _ hsuffix hpre ⟨⟩
  exact ⟨hsuffix, hpre⟩

theorem reads_atSign (sign : Symbol) : Reads all pre (atSign sign) fun _ => pre :=
  reads_peek.bind fun _ => reads_pure fun _ h => h.1

theorem reads_atWord (word : Keyword) : Reads all pre (atWord word) fun _ => pre :=
  reads_peek.bind fun _ => reads_pure fun _ h => h.1

theorem reads_unexpected (expected : String) : Reads all pre (unexpected expected) post := by
  refine reads_peek.bind fun kind => ?_
  cases kind with
  | some kind => exact reads_position.bind fun _ => reads_throw _
  | none => exact reads_throw _

theorem reads_unexpected_bind (expected : String) :
    Reads all pre (unexpected expected >>= next) post' :=
  have never : Reads all pre (unexpected expected) fun _ _ => False := reads_unexpected expected
  never.bind fun _ => .of_fact (fun _ _ h => h) False.elim

/-- The current token is left behind. -/
theorem reads_advance : Reads all pre advance fun _ tokens =>
    ∃ before, before <:+ all ∧ pre before ∧ tokens = before.tail := by
  intro cursor _ after hsuffix hpre h
  have hafter : after.tokens = cursor.tokens.tail := by
    unfold advance Cursor.moveTo at h
    split at h
    · next next hmove =>
      cases h
      split at hmove <;> cases hmove
      rfl
    · cases h
  rw [hafter]
  exact ⟨(List.tail_suffix _).trans hsuffix, cursor.tokens, hsuffix, hpre, rfl⟩

theorem gives_advance : Gives all advance fun _ => True :=
  reads_advance.weaken (fun _ h => h) fun _ _ _ => trivial

/-- What is read off the current token, which is left behind. -/
theorem reads_taken (a : α) : Reads all pre (do advance; return a) fun _ _ => True :=
  reads_advance.bind fun _ => reads_pure fun _ _ => trivial

/-- The sign that is expected is left behind. -/
theorem reads_expectSign (sign : Symbol) : Reads all pre (expectSign sign) fun _ tokens =>
    ∃ token : Token, token.kind = .symbol sign ∧ pre (token :: tokens) := by
  have hat : Reads all pre (atSign sign) fun found tokens =>
      pre tokens ∧ (found = true → tokens.head?.map Token.kind = some (.symbol sign)) := by
    refine reads_peek.bind fun kind => reads_pure ?_
    rintro tokens ⟨hpre, rfl⟩
    exact ⟨hpre, fun h => by simpa using h⟩
  refine hat.bind fun found => ?_
  split
  · next hfound =>
    refine reads_advance.weaken (fun _ h => h) ?_
    rintro _ _ ⟨before, -, ⟨hpre, hhead⟩, rfl⟩
    specialize hhead hfound
    cases before with
    | nil => cases hhead
    | cons token before => exact ⟨token, Option.some.inj hhead, hpre⟩
  · exact reads_unexpected _

theorem gives_expectSign (sign : Symbol) : Gives all (expectSign sign) fun _ => True :=
  (reads_expectSign sign).weaken (fun _ h => h) fun _ _ _ => trivial

/-! ### The nesting budget -/

theorem reads_tooDeep : Reads all pre (tooDeep : Parse α) post :=
  reads_position.bind fun _ => reads_throw _

theorem reads_descend (cost : Nat) : Reads all pre (descend cost) fun _ => pre := by
  intro cursor a after hsuffix hpre h
  change (if nestingLimit < cursor.depth + cost then tooDeep
    else set { cursor with depth := cursor.depth + cost } : Parse Unit) cursor = .ok a after at h
  split at h
  · have htooDeep : Reads all pre (tooDeep : Parse Unit) fun _ => pre := reads_tooDeep
    exact htooDeep cursor a after hsuffix hpre h
  · cases h
    exact ⟨hsuffix, hpre⟩

theorem Reads.restoring (h : Reads all pre step post) : Reads all pre (restoring step) post := by
  intro cursor a after hsuffix hpre hrun
  unfold Source.restoring at hrun
  split at hrun
  · next a middle hstep =>
    cases hrun
    exact h cursor a middle hsuffix hpre hstep
  · cases hrun

theorem Reads.nested (h : Reads all pre step post) : Reads all pre (nested step) post :=
  ((reads_descend descentCost).bind fun _ => h).restoring

/-! ### Repetitions -/

theorem gives_rounds : Gives all rounds fun _ => True := by
  rintro cursor _ _ hsuffix _ ⟨⟩
  exact ⟨hsuffix, trivial⟩

theorem gives_commaList (close : Symbol) (item : Gives all step Q) :
    Gives all (commaList close step) fun items => ∀ a ∈ items, Q a := by
  have hwithin : ∀ fuel, Gives all (commaListWithin close step fuel) fun items =>
      ∀ a ∈ items, Q a := by
    intro fuel
    induction fuel with
    | zero => exact reads_pure fun _ _ _ h => (nomatch h)
    | succ fuel ih =>
      refine (reads_atSign close).bind fun closed => ?_
      split
      · exact reads_pure fun _ _ _ h => (nomatch h)
      · refine item.bind fun first hfirst => (reads_atSign .comma).bind fun more => ?_
        split
        · exact gives_advance.bind fun _ _ => ih.map fun rest hrest =>
            List.forall_mem_cons.mpr ⟨hfirst, hrest⟩
        · exact reads_pure fun _ _ => List.forall_mem_singleton.mpr hfirst
  refine gives_rounds.bind fun fuel _ => ?_
  exact (hwithin fuel).bind fun items hitems =>
    (gives_expectSign close).bind fun _ _ => reads_pure fun _ _ => hitems

end Steps

/-! ## Constructs around their parts -/

section Parts

variable {all : List Token} {expression : Parse Expr} {statement : Parse Stmt}
  {pre : List Token → Prop}

theorem gives_identifier : Gives all identifier fun _ => True := by
  refine reads_peek.bind fun kind => ?_
  split
  · exact reads_taken _
  · exact reads_unexpected _

theorem gives_endStatement : Gives all endStatement fun _ => True := by
  refine reads_peek.bind fun kind => ?_
  split
  · exact gives_advance.weaken (fun _ _ => trivial) fun _ _ h => h
  · exact reads_pure fun _ _ => trivial
  · exact reads_pure fun _ _ => trivial
  · refine reads_newlineBefore.bind fun newline => ?_
    split
    · exact reads_pure fun _ _ => trivial
    · exact reads_unexpected _

theorem gives_stringValue (raw : String) : Gives all (stringValue raw) fun _ => True := by
  unfold stringValue
  split
  · exact reads_pure fun _ h => h
  · exact reads_position.bind fun _ => reads_throw _

theorem gives_numberValue (text : String) : Gives all (numberValue text) fun _ => True := by
  unfold numberValue
  split
  · exact reads_pure fun _ h => h
  · exact reads_position.bind fun _ => reads_throw _

/-! ### Lists -/

theorem sited_ofAll {elements : List Expr} (h : ∀ e ∈ elements, Sited all e.expressions) :
    Sited all (expressionsOfAll elements) := by
  induction elements with
  | nil => exact sited_nil
  | cons e rest ih =>
    obtain ⟨he, hrest⟩ := List.forall_mem_cons.mp h
    exact sited_append.mpr ⟨he, ih hrest⟩

theorem sited_ofProperties {properties : List (String × Expr)}
    (h : ∀ property ∈ properties, Sited all property.2.expressions) :
    Sited all (expressionsOfProperties properties) := by
  induction properties with
  | nil => exact sited_nil
  | cons property rest ih =>
    obtain ⟨hproperty, hrest⟩ := List.forall_mem_cons.mp h
    exact sited_append.mpr ⟨hproperty, ih hrest⟩

theorem gives_declaration (value : Gives all expression fun e => Sited all e.expressions) :
    Gives all (declaration expression) fun s => Sited all s.expressions := by
  have hdeclarator : Gives all (declarator expression) fun d =>
      Sited all (expressionsOfOption d.2) := by
    refine gives_identifier.bind fun name _ => (reads_atSign .assign).bind fun initial => ?_
    split
    · exact gives_advance.bind fun _ _ => value.map fun e he => he
    · exact reads_pure fun _ _ => sited_nil
  have hwithin : ∀ fuel, Gives all (declaratorsWithin expression fuel) fun declarators =>
      Sited all (expressionsOfDeclarators declarators) := by
    intro fuel
    induction fuel with
    | zero => exact reads_pure fun _ _ => sited_nil
    | succ fuel ih =>
      refine hdeclarator.bind fun first hfirst => (reads_atSign .comma).bind fun more => ?_
      split
      · exact gives_advance.bind fun _ _ => ih.map fun rest hrest =>
          sited_append.mpr ⟨hfirst, hrest⟩
      · exact reads_pure fun _ _ => sited_append.mpr ⟨hfirst, sited_nil⟩
  exact gives_advance.bind fun _ _ => gives_rounds.bind fun fuel _ =>
    (hwithin fuel).map fun _ h => h

theorem gives_block (h : Gives all statement fun s => Sited all s.expressions) :
    Gives all (block statement) fun body => Sited all (expressionsOfBody body) := by
  have hwithin : ∀ fuel, Gives all (blockWithin statement fuel) fun body =>
      Sited all (expressionsOfBody body) := by
    intro fuel
    induction fuel with
    | zero => exact reads_pure fun _ _ => sited_nil
    | succ fuel ih =>
      refine (reads_atSign .closeBrace).bind fun closed => ?_
      split
      · exact reads_pure fun _ _ => sited_nil
      · refine reads_peek.bind fun kind => ?_
        split
        · exact reads_unexpected_bind _
        · exact .of_fact (fun _ _ _ => trivial) fun _ => h.bind fun first hfirst =>
            ih.map fun rest hrest => sited_append.mpr ⟨hfirst, hrest⟩
  exact (gives_expectSign _).bind fun _ _ => gives_rounds.bind fun fuel _ =>
    (hwithin fuel).bind fun body hbody => (gives_expectSign _).bind fun _ _ =>
      reads_pure fun _ _ => hbody

theorem gives_statementsWithin (h : Gives all statement fun s => Sited all s.expressions)
    (fuel : Nat) : Gives all (statementsWithin statement fuel) fun body =>
      Sited all (expressionsOfBody body) := by
  induction fuel with
  | zero => exact reads_pure fun _ _ => sited_nil
  | succ fuel ih =>
    refine reads_peek.bind fun kind => ?_
    split
    · exact reads_pure fun _ _ => sited_nil
    · exact .of_fact (fun _ _ _ => trivial) fun _ => h.bind fun first hfirst =>
        ih.map fun rest hrest => sited_append.mpr ⟨hfirst, hrest⟩

/-! ### Expressions -/

/-- Whether a step reads a grounded expression wherever it is begun. -/
abbrev Grounds (all : List Token) (step : Parse Expr) : Prop :=
  Reads all (fun _ => True) step (Grounded all)

theorem Grounds.gives {step : Parse Expr} (h : Grounds all step) :
    Gives all step fun e => Sited all e.expressions :=
  h.weaken (fun _ h => h) fun _ _ h => h.sited

theorem gives_functionDef (h : Gives all statement fun s => Sited all s.expressions) :
    Gives all (functionDef statement) fun d => Sited all d.expressions := by
  have hrest : ∀ name, Gives all (do
      expectSign .openParen
      let parameters ← commaList .closeParen identifier
      return FunctionDef.mk name parameters (← block statement)) fun d =>
        Sited all d.expressions := fun name =>
    (gives_expectSign _).bind fun _ _ => (gives_commaList _ gives_identifier).bind fun _ _ =>
      (gives_block h).map fun _ hbody => hbody
  refine gives_advance.bind fun _ _ => reads_peek.bind fun kind => ?_
  split
  · exact .of_fact (fun _ _ _ => trivial) fun _ => gives_advance.bind fun _ _ => hrest _
  · exact .of_fact (fun _ _ _ => trivial) fun _ => hrest _

theorem grounds_parenthesized (h : Grounds all expression) :
    Grounds all (parenthesized expression) := by
  refine (gives_expectSign _).bind fun _ _ => h.bind fun inner =>
    (reads_expectSign .closeParen).bind fun _ => reads_pure ?_
  rintro tokens ⟨token, kind, grounded⟩
  exact ⟨grounded.sited, fun name heq => (grounded.ends name heq).close kind⟩

theorem grounds_conditional {branch : Parse Expr} (h : Grounds all expression)
    (hbranch : Grounds all branch) : Grounds all (conditional expression branch) := by
  refine h.bind fun test => (reads_atSign .question).bind fun question => ?_
  split
  · refine .of_fact (fun _ _ grounded => grounded.sited) fun htest => gives_advance.bind fun _ _ =>
      hbranch.gives.bind fun consequent hconsequent => (gives_expectSign _).bind fun _ _ =>
        hbranch.gives.bind fun alternate halternate => reads_pure fun _ _ =>
          grounded_of_sited ?_ (by simp)
    exact sited_cons (by simp)
      (sited_append.mpr ⟨sited_append.mpr ⟨htest, hconsequent⟩, halternate⟩)
  · exact reads_pure fun _ h => h

theorem grounds_assignmentTo {value : Parse Expr} (h : Grounds all expression)
    (hvalue : Grounds all value) : Grounds all (assignmentTo expression value) := by
  refine h.bind fun target => reads_peek.bind fun kind => ?_
  split
  · exact reads_pure fun _ h => h.1
  · split
    · refine .of_fact (fun _ _ grounded => grounded.1.sited) fun htarget =>
        gives_advance.bind fun _ _ => hvalue.gives.bind fun value hvalue => reads_pure fun _ _ =>
          grounded_of_sited ?_ (by simp)
      exact sited_cons (by simp) (sited_append.mpr ⟨htarget, hvalue⟩)
    · exact reads_position.bind fun _ => reads_throw _

theorem grounds_updateBefore (op : UpdateOp) (h : Grounds all expression) :
    Grounds all (updateBefore op expression) := by
  refine reads_position.bind fun start => gives_advance.bind fun _ _ =>
    h.gives.bind fun target htarget => ?_
  split
  · exact reads_pure fun _ _ => grounded_of_sited (sited_cons (by simp) htarget) (by simp)
  · exact reads_throw _

theorem reads_updateBehind (op : UpdateOp) (target : Expr) :
    Reads all (Grounded all target) (updateBehind op target) (Grounded all) := by
  unfold updateBehind
  split
  · refine .of_fact (fun _ _ grounded => grounded.sited) fun htarget =>
      gives_advance.bind fun _ _ => reads_pure fun _ _ => grounded_of_sited ?_ (by simp)
    exact sited_cons (by simp) htarget
  · exact reads_position.bind fun _ => reads_throw _

/-- A step by one behind its target must stand on the same line. -/
theorem reads_updateSuffix (op : UpdateOp) (target : Expr) :
    Reads all (Grounded all target)
      (do if ← newlineBefore then return target else updateBehind op target) (Grounded all) := by
  refine reads_newlineBefore.bind fun newline => ?_
  split
  · exact reads_pure fun _ h => h
  · exact reads_updateBehind op target

theorem grounds_unaryOf (op : UnaryOp) (h : Grounds all expression) :
    Grounds all (unaryOf op expression) :=
  gives_advance.bind fun _ _ => h.gives.bind fun _ hoperand =>
    reads_pure fun _ _ => grounded_of_sited (sited_cons (by simp) hoperand) (by simp)

theorem gives_propertyName : Gives all propertyName fun _ => True := by
  refine reads_peek.bind fun kind => ?_
  split
  · exact reads_taken _
  · exact reads_taken _
  · exact reads_unexpected _

theorem gives_propertyKey : Gives all propertyKey fun _ => True := by
  refine reads_peek.bind fun kind => ?_
  split
  · exact reads_taken _
  · exact reads_taken _
  · exact .of_fact (fun _ _ _ => trivial) fun _ => (gives_stringValue _).bind fun _ _ =>
      gives_advance.bind fun _ _ => reads_pure fun _ h => h
  · exact reads_taken _
  · exact reads_unexpected _

theorem gives_property (h : Grounds all expression) :
    Gives all (property expression) fun entry => Sited all entry.2.expressions :=
  gives_propertyKey.bind fun _ _ => (gives_expectSign _).bind fun _ _ =>
    h.gives.map fun _ hvalue => hvalue

/-! ### Statements -/

/-- Whether a step reads a statement whose calls have their places wherever it is begun. -/
abbrev Sites (all : List Token) (step : Parse Stmt) : Prop :=
  Gives all step fun s => Sited all s.expressions

theorem sites_declarationStatement (h : Grounds all expression) :
    Sites all (declarationStatement expression) :=
  (gives_declaration h.gives).bind fun _ hresult => gives_endStatement.bind fun _ _ =>
    reads_pure fun _ _ => hresult

theorem sites_ifStatement (h : Grounds all expression) (hstatement : Sites all statement) :
    Sites all (ifStatement expression statement) := by
  refine gives_advance.bind fun _ _ => (grounds_parenthesized h).gives.bind fun test htest => ?_
  refine hstatement.bind fun consequent hconsequent => (reads_atWord .elseWord).bind fun found => ?_
  split
  · exact gives_advance.bind fun _ _ => Gives.bind hstatement fun alternate halternate =>
      reads_pure fun _ _ => sited_append.mpr ⟨sited_append.mpr ⟨htest, hconsequent⟩, halternate⟩
  · exact reads_pure fun _ _ =>
      sited_append.mpr ⟨sited_append.mpr ⟨htest, hconsequent⟩, sited_nil⟩

theorem sites_whileStatement (h : Grounds all expression) (hstatement : Sites all statement) :
    Sites all (whileStatement expression statement) :=
  gives_advance.bind fun _ _ => (grounds_parenthesized h).gives.bind fun _ htest =>
    Gives.bind hstatement fun _ hbody => reads_pure fun _ _ => sited_append.mpr ⟨htest, hbody⟩

theorem gives_optionalBefore (sign : Symbol) (h : Grounds all expression) :
    Gives all (optionalBefore sign expression) fun e => Sited all (expressionsOfOption e) := by
  refine (reads_atSign sign).bind fun found => ?_
  split
  · exact reads_pure fun _ _ => sited_nil
  · exact h.gives.map fun _ hvalue => hvalue

theorem gives_forStart (h : Grounds all expression) :
    Gives all (forStart expression) fun start => Sited all (expressionsOfBranch start) := by
  refine reads_peek.bind fun kind => ?_
  split
  · exact reads_pure fun _ _ => sited_nil
  all_goals refine .of_fact (fun _ _ _ => trivial) fun _ => ?_
  · exact (gives_declaration h.gives).map fun _ hresult => hresult
  · exact (gives_declaration h.gives).map fun _ hresult => hresult
  · exact (gives_declaration h.gives).map fun _ hresult => hresult
  · exact h.gives.map fun _ hvalue => hvalue

theorem sites_forStatement (h : Grounds all expression) (hstatement : Sites all statement) :
    Sites all (forStatement expression statement) :=
  gives_advance.bind fun _ _ => (gives_expectSign _).bind fun _ _ =>
    (gives_forStart h).bind fun _ hstart => (gives_expectSign _).bind fun _ _ =>
      (gives_optionalBefore _ h).bind fun _ htest => (gives_expectSign _).bind fun _ _ =>
        (gives_optionalBefore _ h).bind fun _ hstep => (gives_expectSign _).bind fun _ _ =>
          Gives.map hstatement fun _ hbody => sited_append.mpr
            ⟨sited_append.mpr ⟨sited_append.mpr ⟨hstart, htest⟩, hstep⟩, hbody⟩

theorem sites_returnStatement (h : Grounds all expression) :
    Sites all (returnStatement expression) := by
  have hrest : ∀ value, Sited all (expressionsOfOption value) → Sites all (do
      endStatement
      return Stmt.ret value) := fun _ hvalue =>
    gives_endStatement.bind fun _ _ => reads_pure fun _ _ => hvalue
  refine gives_advance.bind fun _ _ => reads_peek.bind fun kind => ?_
  split
  all_goals refine .of_fact (fun _ _ _ => trivial) fun _ => ?_
  · exact hrest none sited_nil
  · exact hrest none sited_nil
  · exact hrest none sited_nil
  · refine reads_newlineBefore.bind fun newline => ?_
    split
    · exact hrest none sited_nil
    · have hvalue : Gives all (some <$> expression) fun value =>
          Sited all (expressionsOfOption value) := by
        rw [map_eq_pure_bind]
        exact h.gives.map fun _ hvalue => hvalue
      exact hvalue.bind hrest

theorem sites_functionStatement {suffixes : Expr → Parse Expr} (hstatement : Sites all statement)
    (h : ∀ value, Reads all (Grounded all value) (suffixes value) (Grounded all)) :
    Sites all (functionStatement statement suffixes) := by
  refine (gives_functionDef hstatement).bind fun definition hdefinition => ?_
  split
  · exact reads_pure fun _ _ => hdefinition
  · have hvalue : Grounds all (suffixes (.function definition)) :=
      (h _).weaken (fun _ _ => grounded_of_sited (sited_cons (by simp) hdefinition) (by simp))
        fun _ _ h => h
    exact hvalue.gives.bind fun _ hvalue => gives_endStatement.bind fun _ _ =>
      reads_pure fun _ _ => hvalue

theorem sites_expressionStatement (h : Grounds all expression) :
    Sites all (expressionStatement expression) :=
  h.gives.bind fun _ hvalue => gives_endStatement.bind fun _ _ => reads_pure fun _ _ => hvalue

theorem sites_wordStatement {result : Stmt} (h : Sited all result.expressions) :
    Sites all (wordStatement result) :=
  gives_advance.bind fun _ _ => gives_endStatement.bind fun _ _ => reads_pure fun _ _ => h

end Parts

/-! ## The grammar -/

section Recursion

variable (all : List Token)

/-- What every construct of the grammar reads with the given fuel. -/
structure ReadsWithin (fuel : Nat) : Prop where
  statement : Sites all (statement fuel)
  assignment : Grounds all (assignment fuel)
  climb : ∀ level, Grounds all (climb fuel level)
  chain : ∀ level left, Reads all (Grounded all left) (chain fuel level left) (Grounded all)
  unary : Grounds all (unary fuel)
  suffixes : ∀ value, Reads all (Grounded all value) (suffixes fuel value) (Grounded all)
  primary : Grounds all (primary fuel)

theorem sites_statement {fuel : Nat} (h : ReadsWithin all fuel) :
    Sites all (statement (fuel + 1)) := by
  refine Reads.nested (reads_peek.bind fun kind => ?_)
  split
  · exact reads_unexpected _
  all_goals refine .of_fact (fun _ _ _ => trivial) fun _ => ?_
  · exact gives_advance.bind fun _ _ => reads_pure fun _ _ => sited_nil
  · exact (gives_block h.statement).map fun _ hbody => hbody
  · exact sites_declarationStatement h.assignment
  · exact sites_declarationStatement h.assignment
  · exact sites_declarationStatement h.assignment
  · exact sites_functionStatement h.statement fun value => (h.suffixes value).restoring
  · exact sites_returnStatement h.assignment
  · exact sites_ifStatement h.assignment h.statement
  · exact sites_whileStatement h.assignment h.statement
  · exact sites_forStatement h.assignment h.statement
  · exact sites_wordStatement sited_nil
  · exact sites_wordStatement sited_nil
  · exact sites_expressionStatement h.assignment

theorem grounds_assignment {fuel : Nat} (h : ReadsWithin all fuel) :
    Grounds all (assignment (fuel + 1)) :=
  Reads.nested (grounds_assignmentTo (grounds_conditional (h.climb _) h.assignment) h.assignment)

theorem reads_chain {fuel : Nat} (h : ReadsWithin all fuel) (level : Nat) (left : Expr) :
    Reads all (Grounded all left) (chain (fuel + 1) level left) (Grounded all) := by
  refine reads_peek.bind fun kind => ?_
  split
  · exact reads_pure fun _ h => h.1
  · next connective _ =>
    split
    · exact reads_pure fun _ h => h.1
    · refine .of_fact (fun _ _ grounded => grounded.1.sited) fun hleft =>
        (reads_descend _).bind fun _ => gives_advance.bind fun _ _ =>
          (h.climb _).gives.bind fun right hright => ?_
      refine (h.chain level _).weaken (fun _ _ => ?_) fun _ _ h => h
      cases connective <;>
        exact grounded_of_sited (sited_cons (by simp) (sited_append.mpr ⟨hleft, hright⟩))
          (by simp [Connective.join])

theorem grounds_unary {fuel : Nat} (h : ReadsWithin all fuel) :
    Grounds all (unary (fuel + 1)) := by
  refine reads_peek.bind fun kind => ?_
  refine .of_fact (fun _ _ _ => trivial) fun _ => ?_
  split
  · exact grounds_unaryOf _ h.unary.nested
  · exact grounds_unaryOf _ h.unary.nested
  · exact grounds_unaryOf _ h.unary.nested
  · exact grounds_unaryOf _ h.unary.nested
  · exact grounds_updateBefore _ h.unary.nested
  · exact grounds_updateBefore _ h.unary.nested
  · exact Reads.bind h.primary fun value => (h.suffixes value).restoring

theorem reads_suffixes {fuel : Nat} (h : ReadsWithin all fuel) (value : Expr) :
    Reads all (Grounded all value) (suffixes (fuel + 1) value) (Grounded all) := by
  refine reads_peek.bind fun kind => ?_
  split
  · refine .of_fact (fun _ _ grounded => grounded.1.sited) fun hvalue =>
      (reads_descend _).bind fun _ => gives_advance.bind fun _ _ =>
        gives_propertyName.bind fun name _ => ?_
    exact (h.suffixes _).weaken
      (fun _ _ => grounded_of_sited (sited_cons (by simp) hvalue) (by simp)) fun _ _ h => h
  · refine .of_fact (fun _ _ grounded => grounded.1.sited) fun hvalue =>
      (reads_descend _).bind fun _ => gives_advance.bind fun _ _ =>
        h.assignment.gives.bind fun key hkey => (gives_expectSign _).bind fun _ _ => ?_
    refine (h.suffixes _).weaken (fun _ _ => grounded_of_sited ?_ (by simp)) fun _ _ h => h
    exact sited_cons (by simp) (sited_append.mpr ⟨hvalue, hkey⟩)
  · -- The only place where a call is read: a name before the parenthesis ends the tokens so far.
    refine Reads.of_fact (P := Sited all value.expressions ∧
      ∀ name, value = .identifier name → Nonempty (CallSite all name)) ?_ ?_
    · rintro tokens - ⟨grounded, hhead⟩
      refine ⟨grounded.sited, fun name heq => ?_⟩
      cases tokens with
      | nil => cases hhead
      | cons token tokens => exact (grounded.ends name heq).callSite (Option.some.inj hhead).symm
    · rintro ⟨hvalue, hcalled⟩
      refine (reads_descend _).bind fun _ => gives_advance.bind fun _ _ =>
        (gives_commaList _ h.assignment.gives).bind fun arguments harguments => ?_
      refine (h.suffixes _).weaken (fun _ _ => grounded_of_sited ?_ (by simp)) fun _ _ h => h
      refine sited_cons ?_ (sited_append.mpr ⟨hvalue, sited_ofAll harguments⟩)
      rintro name _ ⟨⟩
      exact hcalled name rfl
  · exact (reads_updateSuffix _ value).weaken (fun _ h => h.1) fun _ _ h => h
  · exact (reads_updateSuffix _ value).weaken (fun _ h => h.1) fun _ _ h => h
  · exact reads_pure fun _ h => h.1

theorem grounds_literal (value : Literal) : Grounds all (literal value) :=
  gives_advance.bind fun _ _ => reads_pure fun _ _ =>
    grounded_of_sited (sited_cons (by simp) sited_nil) (by simp)

theorem grounds_primary {fuel : Nat} (h : ReadsWithin all fuel) :
    Grounds all (primary (fuel + 1)) := by
  refine reads_peek.bind fun kind => ?_
  split
  case h_8 name =>
    refine reads_advance.bind fun _ => reads_pure ?_
    rintro _ ⟨before, hsuffix, ⟨-, hhead⟩, rfl⟩
    cases before with
    | nil => cases hhead
    | cons token before =>
      refine ⟨sited_cons (by simp) sited_nil, ?_⟩
      rintro _ ⟨⟩
      obtain ⟨start, hall⟩ := hsuffix
      exact ⟨start, token, [], hall.symm, (Option.some.inj hhead).symm, fun _ h => (nomatch h)⟩
  all_goals refine .of_fact (fun _ _ _ => trivial) fun _ => ?_
  · exact (gives_numberValue _).bind fun _ _ => grounds_literal all _
  · exact (gives_stringValue _).bind fun _ _ => grounds_literal all _
  · exact grounds_literal all _
  · exact grounds_literal all _
  · exact grounds_literal all _
  · exact grounds_literal all _
  · exact (gives_functionDef h.statement).bind fun _ hdefinition => reads_pure fun _ _ =>
      grounded_of_sited (sited_cons (by simp) hdefinition) (by simp)
  · exact grounds_parenthesized h.assignment
  · exact gives_advance.bind fun _ _ =>
      (gives_commaList _ h.assignment.gives).bind fun _ helements => reads_pure fun _ _ =>
        grounded_of_sited (sited_cons (by simp) (sited_ofAll helements)) (by simp)
  · exact gives_advance.bind fun _ _ =>
      (gives_commaList _ (gives_property h.assignment)).bind fun _ hproperties =>
        reads_pure fun _ _ =>
          grounded_of_sited (sited_cons (by simp) (sited_ofProperties hproperties)) (by simp)
  · exact reads_unexpected _

theorem reads_recursion (fuel : Nat) : ReadsWithin all fuel := by
  induction fuel with
  | zero =>
    exact ⟨reads_tooDeep, reads_tooDeep, fun _ => reads_tooDeep, fun _ _ => reads_tooDeep,
      reads_tooDeep, fun _ => reads_tooDeep, reads_tooDeep⟩
  | succ fuel ih =>
    exact ⟨sites_statement all ih, grounds_assignment all ih,
      fun level => Reads.restoring (Reads.bind ih.unary fun left => ih.chain level left),
      reads_chain all ih, grounds_unary all ih, reads_suffixes all ih, grounds_primary all ih⟩

end Recursion

/-- **A name that a program calls is called in the tokens of its text.** -/
theorem callSite_of_program {lexed : Lexed} {result : Program} {name : String}
    {arguments : List Expr} (parses : program lexed = .ok result)
    (calls : .call (.identifier name) arguments ∈ result.expressions) :
    Nonempty (CallSite lexed.tokens name) := by
  unfold program at parses
  cases hmove : Cursor.moveTo ⟨lexed.tokens, lexed.ending, 0⟩ lexed.tokens with
  | error e =>
    rw [hmove] at parses
    cases parses
  | ok cursor =>
    have hcursor : cursor.tokens = lexed.tokens := by
      unfold Cursor.moveTo at hmove
      split at hmove <;> cases hmove
      rfl
    rw [hmove] at parses
    simp only [bind, Except.bind] at parses
    split at parses
    · next body after hbody =>
      cases parses
      have hreads := gives_statementsWithin (reads_recursion lexed.tokens recursionFuel).statement
        (lexed.tokens.length + 1)
      exact (hreads cursor body after (hcursor ▸ List.suffix_rfl) trivial hbody).2 name arguments
        calls
    · cases parses

end Formulary.Source
