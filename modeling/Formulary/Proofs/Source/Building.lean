import Formulary.Proofs.Sequence
import Formulary.Proofs.Source.Lawful
import Formulary.Proofs.Source.Spacing

/-!
# What the grammar builds

* `Leads`, `Makes` : what a reading step comes to when it has an answer;
* `Expr.Built` : lawful expressions that are deeper than their links by a given number at most;
* `makes_recursion` : every construct of the grammar builds such expressions, and fewer levels of
  them the less there is left of the nesting budget;
* `Program.lawful_of_parse` : what a text is read as is lawful.
-/

namespace Formulary

/-! ## Lawful expressions of bounded depth -/

/-- Whether an expression is made of what the grammar has. -/
abbrev Expr.Sound (e : Expr) : Prop :=
  e.All Expr.Lawful fun s => s.Lawful ∧ s.Shallow

/-- Whether a statement is made of what the grammar has. -/
abbrev Stmt.Sound (s : Stmt) : Prop :=
  s.All Expr.Lawful fun s => s.Lawful ∧ s.Shallow

/-- Whether an expression is made of what the grammar has, and is deeper than its links by `spare`
levels at most. -/
structure Expr.Built (spare : Nat) (e : Expr) : Prop where
  sound : e.Sound
  depth : e.depth ≤ e.links + spare

namespace Expr.Built

variable {n m : Nat} {e key callee operand left right test consequent alternate : Expr}
  {target value : Expr} {elements arguments : List Expr} {properties : List (String × Expr)}
  {name : String}

theorem mono (h : e.Built n) (le : n ≤ m) : e.Built m :=
  ⟨h.sound, Nat.le_trans h.depth (Nat.add_le_add_left le _)⟩

theorem literal (value : Literal) : (Expr.literal value).Built 1 :=
  ⟨all_literal.mpr trivial, Nat.le_refl _⟩

theorem identifier (h : Source.IsName name) : (Expr.identifier name).Built 1 :=
  ⟨all_identifier.mpr h, Nat.le_refl _⟩

theorem array (h : ∀ e ∈ elements, e.Built n) : (Expr.array elements).Built (n + 1) := by
  refine ⟨all_array.mpr ⟨trivial, fun e he => (h e he).sound⟩, ?_⟩
  have hdepth := heightOfAll_le fun e he => (h e he).depth
  simp only [Expr.depth, Expr.links, Expr.height, Expr.link] at hdepth ⊢
  omega

theorem object (h : ∀ property ∈ properties, property.2.Built n) :
    (Expr.object properties).Built (n + 1) := by
  refine ⟨all_object.mpr ⟨trivial, fun property hp => (h property hp).sound⟩, ?_⟩
  have hvalues : ∀ e ∈ properties.map Prod.snd, e.Built n := List.forall_mem_map.mpr h
  have hdepth := heightOfAll_le fun e he => (hvalues e he).depth
  simp only [Expr.depth, Expr.links, Expr.height, Expr.link, heightOfProperties_eq] at hdepth ⊢
  omega

theorem member (h : e.Built n) (hname : Source.IsWord name) : (Expr.member e name).Built n := by
  refine ⟨all_member.mpr ⟨hname, h.sound⟩, ?_⟩
  have := h.depth
  simp only [Expr.depth, Expr.links, Expr.height, Expr.link] at *
  omega

theorem index (h : e.Built n) (hkey : key.Built n) : (Expr.index e key).Built n := by
  refine ⟨all_index.mpr ⟨trivial, h.sound, hkey.sound⟩, ?_⟩
  have := h.depth
  have := hkey.depth
  simp only [Expr.depth, Expr.links, Expr.height, Expr.link] at *
  omega

theorem call (h : callee.Built n) (harguments : ∀ e ∈ arguments, e.Built n) :
    (Expr.call callee arguments).Built n := by
  refine ⟨all_call.mpr ⟨trivial, h.sound, fun e he => (harguments e he).sound⟩, ?_⟩
  have := h.depth
  have hdepth := heightOfAll_le fun e he => (harguments e he).depth
  simp only [Expr.depth, Expr.links, Expr.height, Expr.link] at *
  omega

theorem unary (op : UnaryOp) (h : operand.Built n) : (Expr.unary op operand).Built (n + 1) := by
  refine ⟨all_unary.mpr ⟨trivial, h.sound⟩, ?_⟩
  have := h.depth
  simp only [Expr.depth, Expr.links, Expr.height, Expr.link] at *
  omega

theorem join (op : Source.Connective) (hleft : left.Built n) (hright : right.Built n) :
    (op.join left right).Built n := by
  have := hleft.depth
  have := hright.depth
  cases op with
  | binary op =>
    refine ⟨all_binary.mpr ⟨trivial, hleft.sound, hright.sound⟩, ?_⟩
    simp only [Source.Connective.join, Expr.depth, Expr.links, Expr.height, Expr.link] at *
    omega
  | logical op =>
    refine ⟨all_logical.mpr ⟨trivial, hleft.sound, hright.sound⟩, ?_⟩
    simp only [Source.Connective.join, Expr.depth, Expr.links, Expr.height, Expr.link] at *
    omega

theorem conditional (htest : test.Built n) (hconsequent : consequent.Built n)
    (halternate : alternate.Built n) :
    (Expr.conditional test consequent alternate).Built (n + 1) := by
  refine ⟨all_conditional.mpr ⟨trivial, htest.sound, hconsequent.sound, halternate.sound⟩, ?_⟩
  have := htest.depth
  have := hconsequent.depth
  have := halternate.depth
  simp only [Expr.depth, Expr.links, Expr.height, Expr.link] at *
  omega

theorem assign (op : AssignOp) (htarget : target.Built n) (place : target.isAssignable = true)
    (hvalue : value.Built n) : (Expr.assign op target value).Built (n + 1) := by
  refine ⟨all_assign.mpr ⟨place, htarget.sound, hvalue.sound⟩, ?_⟩
  have := htarget.depth
  have := hvalue.depth
  simp only [Expr.depth, Expr.links, Expr.height, Expr.link] at *
  omega

theorem update (op : UpdateOp) (before : Bool) (htarget : target.Built n)
    (place : target.isAssignable = true) : (Expr.update op before target).Built (n + 1) := by
  refine ⟨all_update.mpr ⟨place, htarget.sound⟩, ?_⟩
  have := htarget.depth
  simp only [Expr.depth, Expr.links, Expr.height, Expr.link] at *
  omega

theorem function {definition : FunctionDef} (hnamed : definition.Named)
    (hbody : ∀ s ∈ definition.body, s.Sound) : (Expr.function definition).Built 1 := by
  obtain ⟨name, parameters, body⟩ := definition
  exact ⟨all_function.mpr ⟨hnamed, FunctionDef.all_mk.mpr hbody⟩, Nat.le_refl _⟩

end Expr.Built

namespace Source

/-! ## Steps -/

/-- Whether the tokens still to read stand for themselves, and how much of the nesting budget is
taken. -/
structure Cursor.Standing (depth : Nat) (cursor : Cursor) : Prop where
  tokens : ∀ token ∈ cursor.tokens, token.kind.Standalone
  depth : cursor.depth = depth

/-- Whether a step that has an answer, begun at a cursor with a property, stops at a cursor as
stated, and so is its answer. -/
def Leads {α : Type} (pre : Cursor → Prop) (step : Parse α) (post : α → Cursor → Prop) : Prop :=
  ∀ cursor a after, pre cursor → step cursor = .ok a after → post a after

/-- Whether the answer of a step is as stated, and as much of the budget is taken after it as
before. -/
abbrev Makes {α : Type} (depth : Nat) (step : Parse α) (Q : α → Prop) : Prop :=
  Leads (Cursor.Standing depth) step fun a after => after.Standing depth ∧ Q a

/-- Whether the answer of a step is as stated, however much of the budget it takes. -/
abbrev Chains {α : Type} (depth : Nat) (step : Parse α) (Q : α → Prop) : Prop :=
  Leads (Cursor.Standing depth) step fun a after => (∃ deeper, after.Standing deeper) ∧ Q a

section Steps

variable {α β : Type} {pre : Cursor → Prop} {step : Parse α} {next : α → Parse β}
  {post post' : α → Cursor → Prop} {post₂ : β → Cursor → Prop} {Q Q' : α → Prop} {d : Nat}

theorem leads_pure {a : α} (h : ∀ cursor, pre cursor → post a cursor) :
    Leads pre (pure a) post := by
  rintro cursor _ _ hpre ⟨⟩
  exact h cursor hpre

theorem leads_throw (e : SyntaxError) : Leads pre (throw e : Parse α) post :=
  fun _ _ _ _ h => nomatch h

theorem Leads.bind (first : Leads pre step post) (second : ∀ a, Leads (post a) (next a) post₂) :
    Leads pre (step >>= next) post₂ := by
  intro cursor b after hpre h
  obtain ⟨a, middle, hstep, h⟩ := bind_eq_ok.mp h
  exact second a middle b after (first cursor a middle hpre hstep) h

theorem Leads.imp (h : Leads pre step post) (himp : ∀ a cursor, post a cursor → post' a cursor) :
    Leads pre step post' :=
  fun cursor a after hpre hstep => himp a after (h cursor a after hpre hstep)

/-- A fact about the cursor to begin with that outlives it. -/
theorem Leads.of_fact {P : Prop} {pre' : Cursor → Prop} (h : P → Leads pre' step post)
    (fact : ∀ cursor, pre cursor → P ∧ pre' cursor) : Leads pre step post :=
  fun cursor a after hpre hstep =>
    have ⟨hP, hpre'⟩ := fact cursor hpre
    h hP cursor a after hpre' hstep

theorem makes_pure {a : α} (h : Q a) : Makes d (pure a) Q :=
  leads_pure fun _ standing => ⟨standing, h⟩

/-- A step behind one whose answer is known. -/
theorem Makes.bind (first : Makes d step Q)
    (second : ∀ a, Q a → Leads (Cursor.Standing d) (next a) post₂) :
    Leads (Cursor.Standing d) (step >>= next) post₂ :=
  Leads.bind first fun a => .of_fact (second a) fun _ h => h.symm

theorem Makes.imp (h : Makes d step Q) (himp : ∀ a, Q a → Q' a) : Makes d step Q' :=
  Leads.imp h fun a _ hpost => ⟨hpost.1, himp a hpost.2⟩

theorem Chains.imp (h : Chains d step Q) (himp : ∀ a, Q a → Q' a) : Chains d step Q' :=
  Leads.imp h fun a _ hpost => ⟨hpost.1, himp a hpost.2⟩

theorem Makes.chains (h : Makes d step Q) : Chains d step Q :=
  Leads.imp h fun _ _ hpost => ⟨⟨d, hpost.1⟩, hpost.2⟩

/-! ### Looking at tokens -/

theorem makes_peek : Makes d peek fun kind => ∀ k ∈ kind, k.Standalone := by
  rintro cursor _ _ standing ⟨⟩
  refine ⟨standing, fun k hk => ?_⟩
  obtain ⟨token, htoken, rfl⟩ := Option.map_eq_some_iff.mp hk
  exact standing.tokens token (List.mem_of_head? htoken)

theorem makes_position : Makes d position fun _ => True := by
  rintro cursor _ _ standing ⟨⟩
  exact ⟨standing, trivial⟩

theorem makes_newlineBefore : Makes d newlineBefore fun _ => True := by
  rintro cursor _ _ standing ⟨⟩
  exact ⟨standing, trivial⟩

theorem makes_rounds : Makes d rounds fun _ => True := by
  rintro cursor _ _ standing ⟨⟩
  exact ⟨standing, trivial⟩

theorem makes_atSign (sign : Symbol) : Makes d (atSign sign) fun _ => True :=
  makes_peek.bind fun _ _ => makes_pure trivial

theorem makes_unexpected (expected : String) : Leads pre (unexpected expected) post := by
  have hpeek : Leads pre peek fun _ _ => True := fun _ _ _ _ _ => trivial
  have hposition : Leads (fun _ => True) position fun _ _ => True := fun _ _ _ _ _ => trivial
  refine hpeek.bind fun kind => ?_
  cases kind with
  | some kind => exact hposition.bind fun _ => leads_throw _
  | none => exact leads_throw _

theorem makes_throwAt (e : Nat → SyntaxError) : Makes d (do throw (e (← position)) : Parse α) Q :=
  makes_position.bind fun _ _ => leads_throw _

theorem makes_advance : Makes d advance fun _ => True := by
  intro cursor _ after standing h
  unfold advance Cursor.moveTo at h
  split at h
  · next next hmove =>
    cases h
    split at hmove <;> cases hmove
    exact ⟨⟨fun token hmem => standing.tokens token (List.mem_of_mem_tail hmem), standing.depth⟩,
      trivial⟩
  · cases h

/-- What is read off the current token, which is left behind. -/
theorem makes_taken {a : α} (h : Q a) : Makes d (do advance; return a) Q :=
  makes_advance.bind fun _ _ => makes_pure h

theorem makes_expectSign (sign : Symbol) : Makes d (expectSign sign) fun _ => True := by
  refine (makes_atSign sign).bind fun found _ => ?_
  split
  · exact makes_advance
  · exact makes_unexpected _

theorem makes_identifier : Makes d identifier IsName := by
  refine makes_peek.bind fun kind hkind => ?_
  split
  · exact makes_taken (isName_of_standalone (hkind _ rfl))
  · exact makes_unexpected _

theorem makes_endStatement : Makes d endStatement fun _ => True := by
  refine makes_peek.bind fun kind _ => ?_
  split
  · exact makes_advance
  · exact makes_pure trivial
  · exact makes_pure trivial
  · refine makes_newlineBefore.bind fun newline _ => ?_
    split
    · exact makes_pure trivial
    · exact makes_unexpected _

/-! ### The nesting budget -/

theorem leads_tooDeep : Leads pre (tooDeep : Parse α) post := by
  intro cursor a after _ h
  cases h

theorem leads_descend (cost : Nat) : Leads (Cursor.Standing d) (descend cost) fun _ after =>
    after.Standing (d + cost) ∧ d + cost ≤ nestingLimit := by
  intro cursor _ after standing h
  obtain rfl := standing.depth
  change (if nestingLimit < cursor.depth + cost then tooDeep
    else set { cursor with depth := cursor.depth + cost } : Parse Unit) cursor = _ at h
  split at h
  · cases h
  · next hroom =>
    cases h
    exact ⟨⟨standing.tokens, rfl⟩, Nat.not_lt.mp hroom⟩

/-- A step behind one that takes from the budget. -/
theorem leads_within {cost : Nat} {next : Parse β} (h : d + cost ≤ nestingLimit →
    Leads (Cursor.Standing (d + cost)) next post₂) :
    Leads (Cursor.Standing d) (do descend cost; next) post₂ :=
  (leads_descend cost).bind fun _ => .of_fact h fun _ hdeep => hdeep.symm

theorem leads_restoring (h : Leads (Cursor.Standing d) step post) :
    Leads (Cursor.Standing d) (restoring step) fun a after =>
      ∃ last, post a last ∧ after = { last with depth := d } := by
  intro cursor a after standing hrun
  unfold restoring at hrun
  split at hrun
  · next b last hstep =>
    cases hrun
    exact ⟨last, h cursor a last standing hstep, by rw [standing.depth]⟩
  · cases hrun

theorem Chains.restoring (h : Chains d step Q) : Makes d (restoring step) Q := by
  refine (leads_restoring h).imp ?_
  rintro a _ ⟨last, ⟨⟨deeper, standing⟩, hQ⟩, rfl⟩
  exact ⟨⟨standing.tokens, rfl⟩, hQ⟩

theorem makes_nested (h : d + descentCost ≤ nestingLimit → Makes (d + descentCost) step Q) :
    Makes d (nested step) Q :=
  Chains.restoring (leads_within fun hroom => (h hroom).chains)

/-! ### Repetitions -/

theorem makes_commaList (close : Symbol) (item : Makes d step Q) :
    Makes d (commaList close step) fun items => ∀ a ∈ items, Q a := by
  have hwithin : ∀ fuel, Makes d (commaListWithin close step fuel) fun items =>
      ∀ a ∈ items, Q a := by
    intro fuel
    induction fuel with
    | zero => exact makes_pure fun _ h => (nomatch h)
    | succ fuel ih =>
      refine (makes_atSign close).bind fun closed _ => ?_
      split
      · exact makes_pure fun _ h => (nomatch h)
      · refine item.bind fun first hfirst => (makes_atSign .comma).bind fun more _ => ?_
        split
        · exact makes_advance.bind fun _ _ => ih.bind fun rest hrest =>
            makes_pure (List.forall_mem_cons.mpr ⟨hfirst, hrest⟩)
        · exact makes_pure (List.forall_mem_singleton.mpr hfirst)
  exact makes_rounds.bind fun fuel _ => (hwithin fuel).bind fun items hitems =>
    (makes_expectSign close).bind fun _ _ => makes_pure hitems

end Steps

/-! ## Constructs around their parts -/

section Parts

variable {α : Type} {d n : Nat} {expression branch operand value : Parse Expr}
  {statement : Parse Stmt} {Q : Expr → Prop}

/-- Whether no `else` follows a statement that it would belong to. -/
def Cursor.Behind (s : Stmt) (cursor : Cursor) : Prop :=
  s.endsOpen = true → cursor.tokens.head?.map Token.kind ≠ some (.keyword .elseWord)

/-- Whether a step reads a statement that is made of what the grammar has. -/
abbrev Sets (depth : Nat) (step : Parse Stmt) : Prop :=
  Leads (Cursor.Standing depth) step fun s after =>
    after.Standing depth ∧ s.Sound ∧ after.Behind s

theorem Sets.makes (h : Sets d statement) : Makes d statement Stmt.Sound :=
  Leads.imp h fun _ _ hpost => ⟨hpost.1, hpost.2.1⟩

/-- A statement that no `else` belongs to. -/
theorem sets_of_makes (h : Makes d statement fun s => s.Sound ∧ s.endsOpen = false) :
    Sets d statement :=
  Leads.imp h fun _ _ hpost => ⟨hpost.1, hpost.2.1, fun hopen => by simp [hpost.2.2] at hopen⟩

theorem makes_stringValue (raw : String) : Makes d (stringValue raw) fun _ => True := by
  unfold stringValue
  split
  · exact makes_pure trivial
  · exact makes_throwAt _

theorem makes_numberValue (text : String) : Makes d (numberValue text) fun _ => True := by
  unfold numberValue
  split
  · exact makes_pure trivial
  · exact makes_throwAt _

/-! ### Lists -/

theorem makes_blockWithin (h : Makes d statement Stmt.Sound) (fuel : Nat) :
    Makes d (blockWithin statement fuel) fun body => ∀ s ∈ body, s.Sound := by
  induction fuel with
  | zero => exact makes_pure fun _ h => (nomatch h)
  | succ fuel ih =>
    refine (makes_atSign .closeBrace).bind fun closed _ => ?_
    split
    · exact makes_pure fun _ h => (nomatch h)
    · refine makes_peek.bind fun kind _ => ?_
      have hrest : Makes d (do return (← statement) :: (← blockWithin statement fuel))
          fun body => ∀ s ∈ body, s.Sound :=
        h.bind fun first hfirst => ih.bind fun rest hrest =>
          makes_pure (List.forall_mem_cons.mpr ⟨hfirst, hrest⟩)
      split
      · have hend : Makes d (unexpected "'\x7d'" : Parse Unit) fun _ => True := makes_unexpected _
        exact hend.bind fun _ _ => hrest
      · exact hrest

theorem makes_block (h : Makes d statement Stmt.Sound) :
    Makes d (block statement) fun body => ∀ s ∈ body, s.Sound :=
  (makes_expectSign _).bind fun _ _ => makes_rounds.bind fun fuel _ =>
    (makes_blockWithin h fuel).bind fun _ hbody => (makes_expectSign _).bind fun _ _ =>
      makes_pure hbody

theorem makes_statementsWithin (h : Makes d statement Stmt.Sound) (fuel : Nat) :
    Makes d (statementsWithin statement fuel) fun body => ∀ s ∈ body, s.Sound := by
  induction fuel with
  | zero => exact makes_pure fun _ h => (nomatch h)
  | succ fuel ih =>
    refine makes_peek.bind fun kind _ => ?_
    split
    · exact makes_pure fun _ h => (nomatch h)
    · exact h.bind fun first hfirst => ih.bind fun rest hrest =>
        makes_pure (List.forall_mem_cons.mpr ⟨hfirst, hrest⟩)

/-- A variable is a name, and its initial value is as stated. -/
def Declares (Q : Expr → Prop) (declarator : String × Option Expr) : Prop :=
  IsName declarator.1 ∧ ∀ initial ∈ declarator.2, Q initial

theorem makes_declarator (h : Makes d value Q) : Makes d (declarator value) (Declares Q) := by
  refine makes_identifier.bind fun name hname => (makes_atSign .assign).bind fun initial _ => ?_
  split
  · refine makes_advance.bind fun _ _ => h.bind fun e he => makes_pure ⟨hname, ?_⟩
    rintro _ ⟨⟩
    exact he
  · exact makes_pure ⟨hname, fun _ hnone => (nomatch hnone)⟩

/-- At least one variable is declared, since there is fuel for one more round than tokens. -/
theorem makes_declaration (h : Makes d value Q) : Makes d (declaration value) fun s =>
    ∃ declarators, s = .declaration declarators ∧ declarators ≠ [] ∧
      ∀ declarator ∈ declarators, Declares Q declarator := by
  have hwithin : ∀ fuel, Makes d (declaratorsWithin value fuel) fun declarators =>
      (fuel ≠ 0 → declarators ≠ []) ∧ ∀ declarator ∈ declarators, Declares Q declarator := by
    intro fuel
    induction fuel with
    | zero => exact makes_pure ⟨fun hfuel => absurd rfl hfuel, fun _ h => (nomatch h)⟩
    | succ fuel ih =>
      refine (makes_declarator h).bind fun first hfirst =>
        (makes_atSign .comma).bind fun more _ => ?_
      split
      · exact makes_advance.bind fun _ _ => ih.bind fun rest hrest =>
          makes_pure ⟨fun _ => List.cons_ne_nil _ _, List.forall_mem_cons.mpr ⟨hfirst, hrest.2⟩⟩
      · exact makes_pure ⟨fun _ => List.cons_ne_nil _ _, List.forall_mem_singleton.mpr hfirst⟩
  have hrounds : Makes d rounds fun fuel => fuel ≠ 0 := by
    rintro cursor _ _ standing ⟨⟩
    exact ⟨standing, Nat.succ_ne_zero _⟩
  exact makes_advance.bind fun _ _ => hrounds.bind fun fuel hfuel =>
    (hwithin fuel).bind fun declarators hdeclarators =>
      makes_pure ⟨declarators, rfl, hdeclarators.1 hfuel, hdeclarators.2⟩

/-! ### Expressions -/

theorem makes_functionDef (h : Makes d statement Stmt.Sound) :
    Makes d (functionDef statement) fun definition =>
      definition.Named ∧ ∀ s ∈ definition.body, s.Sound := by
  have hrest : ∀ name : Option String, (∀ n ∈ name, IsName n) → Makes d (do
      expectSign .openParen
      let parameters ← commaList .closeParen identifier
      return FunctionDef.mk name parameters (← block statement)) fun definition =>
        definition.Named ∧ ∀ s ∈ definition.body, s.Sound := fun name hname =>
    (makes_expectSign _).bind fun _ _ => (makes_commaList _ makes_identifier).bind
      fun _ hparameters => (makes_block h).bind fun _ hbody =>
        makes_pure ⟨⟨hname, hparameters⟩, hbody⟩
  refine makes_advance.bind fun _ _ => makes_peek.bind fun kind hkind => ?_
  split
  · next name =>
    refine makes_advance.bind fun _ _ => hrest (some name) ?_
    rintro _ ⟨⟩
    exact isName_of_standalone (hkind _ rfl)
  · exact hrest none fun _ hnone => (nomatch hnone)

theorem makes_parenthesized (h : Makes d expression Q) : Makes d (parenthesized expression) Q :=
  (makes_expectSign _).bind fun _ _ => h.bind fun _ hinner => (makes_expectSign _).bind fun _ _ =>
    makes_pure hinner

/-- A condition is no place to write to, so that what is one is less deep. -/
theorem makes_conditional (h : Makes d operand (Expr.Built n))
    (hbranch : Makes d branch (Expr.Built n)) : Makes d (conditional operand branch) fun e =>
      e.Built (n + 1) ∧ (e.isAssignable = true → e.Built n) := by
  refine h.bind fun test htest => (makes_atSign _).bind fun question _ => ?_
  split
  · exact makes_advance.bind fun _ _ => hbranch.bind fun consequent hconsequent =>
      (makes_expectSign _).bind fun _ _ => hbranch.bind fun alternate halternate =>
        makes_pure ⟨htest.conditional hconsequent halternate, fun place => (nomatch place)⟩
  · exact makes_pure ⟨htest.mono (Nat.le_succ n), fun _ => htest⟩

theorem makes_assignmentTo (h : Makes d operand fun e =>
      e.Built (n + 1) ∧ (e.isAssignable = true → e.Built n))
    (hvalue : Makes d value (Expr.Built n)) :
    Makes d (assignmentTo operand value) (Expr.Built (n + 1)) := by
  refine h.bind fun target htarget => makes_peek.bind fun kind _ => ?_
  split
  · exact makes_pure htarget.1
  · split
    · next op _ place =>
      exact makes_advance.bind fun _ _ => hvalue.bind fun value hvalue =>
        makes_pure ((htarget.2 place).assign op place hvalue)
    · exact makes_throwAt _

theorem makes_updateBefore (op : UpdateOp) (h : Makes d operand (Expr.Built n)) :
    Makes d (updateBefore op operand) (Expr.Built (n + 1)) := by
  refine makes_position.bind fun _ _ => makes_advance.bind fun _ _ =>
    h.bind fun target htarget => ?_
  split
  · next place => exact makes_pure (htarget.update op true place)
  · exact leads_throw _

theorem makes_updateBehind (op : UpdateOp) {target : Expr} (h : target.Built n) :
    Makes d (updateBehind op target) (Expr.Built (n + 1)) := by
  unfold updateBehind
  split
  · next place => exact makes_taken (h.update op false place)
  · exact makes_throwAt _

/-- A step by one behind its target must stand on the same line. -/
theorem makes_updateSuffix (op : UpdateOp) {target : Expr} (h : target.Built n) :
    Makes d (do if ← newlineBefore then return target else updateBehind op target)
      (Expr.Built (n + 1)) := by
  refine makes_newlineBefore.bind fun newline _ => ?_
  split
  · exact makes_pure (h.mono (Nat.le_succ n))
  · exact makes_updateBehind op h

theorem makes_unaryOf (op : UnaryOp) (h : Makes d operand (Expr.Built n)) :
    Makes d (unaryOf op operand) (Expr.Built (n + 1)) :=
  makes_advance.bind fun _ _ => h.bind fun _ hoperand => makes_pure (hoperand.unary op)

theorem makes_propertyName : Makes d propertyName IsWord := by
  refine makes_peek.bind fun kind hkind => ?_
  split
  · exact makes_taken (isName_of_standalone (hkind _ rfl)).word
  · exact makes_taken (isWord_keyword _)
  · exact makes_unexpected _

theorem makes_propertyKey : Makes d propertyKey fun _ => True := by
  refine makes_peek.bind fun kind _ => ?_
  split
  · exact makes_taken trivial
  · exact makes_taken trivial
  · exact (makes_stringValue _).bind fun _ _ => makes_taken trivial
  · exact makes_taken trivial
  · exact makes_unexpected _

theorem makes_property (h : Makes d value Q) :
    Makes d (property value) fun property => Q property.2 :=
  makes_propertyKey.bind fun _ _ => (makes_expectSign _).bind fun _ _ =>
    h.bind fun _ hvalue => makes_pure hvalue

/-! ### Statements -/

/-- Expressions that a statement can have. -/
abbrev IsRoot (e : Expr) : Prop :=
  e.Built rootSpare

theorem sound_declaration {declarators : List (String × Option Expr)} (nonempty : declarators ≠ [])
    (h : ∀ declarator ∈ declarators, Declares IsRoot declarator) :
    (Stmt.declaration declarators).Sound := by
  refine Stmt.all_declaration.mpr ⟨⟨⟨nonempty, fun declarator hmem => (h declarator hmem).1⟩, ?_⟩,
    fun declarator hmem initial hinitial => ((h declarator hmem).2 initial hinitial).sound⟩
  intro e he
  obtain ⟨declarator, hmem, hinitial⟩ := List.mem_filterMap.mp he
  exact ((h declarator hmem).2 e hinitial).depth

theorem sound_expression {e : Expr} (h : IsRoot e) : (Stmt.expression e).Sound :=
  Stmt.all_expression.mpr ⟨⟨trivial, List.forall_mem_singleton.mpr h.depth⟩, h.sound⟩

theorem sound_ret {value : Option Expr} (h : ∀ e ∈ value, IsRoot e) : (Stmt.ret value).Sound :=
  Stmt.all_ret.mpr ⟨⟨trivial, fun e he => (h e (Option.mem_toList.mp he)).depth⟩,
    fun e he => (h e he).sound⟩

theorem sound_function {definition : FunctionDef} (hname : definition.name.isSome = true)
    (hnamed : definition.Named) (hbody : ∀ s ∈ definition.body, s.Sound) :
    (Stmt.function definition).Sound := by
  obtain ⟨name, parameters, body⟩ := definition
  exact Stmt.all_function.mpr ⟨⟨⟨hname, hnamed⟩, fun _ h => (nomatch h)⟩,
    FunctionDef.all_mk.mpr hbody⟩

theorem sets_declarationStatement (h : Makes d value IsRoot) :
    Sets d (declarationStatement value) := by
  refine sets_of_makes ((makes_declaration h).bind ?_)
  rintro _ ⟨declarators, rfl, nonempty, hdeclarators⟩
  exact makes_endStatement.bind fun _ _ => makes_pure ⟨sound_declaration nonempty hdeclarators, rfl⟩

/-- An `else` is read with the innermost condition that it can belong to. -/
theorem sets_ifStatement (h : Makes d expression IsRoot) (hstatement : Sets d statement) :
    Sets d (ifStatement expression statement) := by
  refine makes_advance.bind fun _ _ => (makes_parenthesized h).bind fun test htest => ?_
  have hroots : ∀ e ∈ [test], e.depth ≤ e.links + rootSpare :=
    List.forall_mem_singleton.mpr htest.depth
  refine Leads.bind hstatement fun consequent => ?_
  have hat : Leads (fun cursor => cursor.Standing d ∧ consequent.Sound ∧ cursor.Behind consequent)
      (atWord .elseWord) fun found after =>
        (consequent.Sound ∧ (found = true → consequent.endsOpen = false)) ∧ after.Standing d ∧
          (found = false → after.tokens.head?.map Token.kind ≠ some (.keyword .elseWord)) := by
    rintro cursor _ _ ⟨standing, sound, behind⟩ ⟨⟩
    refine ⟨⟨sound, fun hfound => ?_⟩, standing, fun hfound => by simpa using hfound⟩
    by_contra hopen
    exact behind (by simpa using hopen) (by simpa using hfound)
  refine hat.bind fun found => .of_fact (fun hconsequent => ?_) fun _ h => h
  split
  · next hfound =>
    refine .of_fact (fun _ => makes_advance.bind fun _ _ => Leads.bind hstatement fun alternate =>
      leads_pure ?_) fun cursor h => ⟨trivial, h.1⟩
    rintro last ⟨standing, halternate, hbehind⟩
    refine ⟨standing, Stmt.all_ifElse.mpr
      ⟨⟨hconsequent.2 hfound, hroots⟩, htest.sound, hconsequent.1, ?_⟩, hbehind⟩
    rintro _ ⟨⟩
    exact halternate
  · next hfound =>
    refine leads_pure ?_
    rintro cursor ⟨standing, hnext⟩
    refine ⟨standing, Stmt.all_ifElse.mpr ⟨⟨trivial, hroots⟩, htest.sound, hconsequent.1, ?_⟩,
      fun _ => hnext (by simpa using hfound)⟩
    exact fun _ hnone => (nomatch hnone)

theorem sets_whileStatement (h : Makes d expression IsRoot) (hstatement : Sets d statement) :
    Sets d (whileStatement expression statement) := by
  refine makes_advance.bind fun _ _ => (makes_parenthesized h).bind fun test htest =>
    Leads.bind hstatement fun body => leads_pure ?_
  rintro cursor ⟨standing, hbody, hbehind⟩
  exact ⟨standing, Stmt.all_whileLoop.mpr
    ⟨⟨trivial, List.forall_mem_singleton.mpr htest.depth⟩, htest.sound, hbody⟩, hbehind⟩

theorem makes_optionalBefore (sign : Symbol) (h : Makes d expression Q) :
    Makes d (optionalBefore sign expression) fun e => ∀ inner ∈ e, Q inner := by
  refine (makes_atSign sign).bind fun found _ => ?_
  split
  · exact makes_pure fun _ hnone => (nomatch hnone)
  · refine h.bind fun value hvalue => makes_pure ?_
    rintro _ ⟨⟩
    exact hvalue

theorem makes_forStart (h : Makes d expression IsRoot) :
    Makes d (forStart expression) fun start =>
      ∀ s ∈ start, s.Sound ∧ s.isStart = true := by
  have hdeclaration : Makes d (do return some (← declaration expression))
      fun start => ∀ s ∈ start, s.Sound ∧ s.isStart = true := by
    refine (makes_declaration h).bind ?_
    rintro _ ⟨declarators, rfl, nonempty, hdeclarators⟩
    refine makes_pure ?_
    rintro _ ⟨⟩
    exact ⟨sound_declaration nonempty hdeclarators, rfl⟩
  refine makes_peek.bind fun kind _ => ?_
  split
  · exact makes_pure fun _ hnone => (nomatch hnone)
  · exact hdeclaration
  · exact hdeclaration
  · exact hdeclaration
  · refine h.bind fun value hvalue => makes_pure ?_
    rintro _ ⟨⟩
    exact ⟨sound_expression hvalue, rfl⟩

theorem sets_forStatement (h : Makes d expression IsRoot) (hstatement : Sets d statement) :
    Sets d (forStatement expression statement) := by
  refine makes_advance.bind fun _ _ => (makes_expectSign _).bind fun _ _ =>
    (makes_forStart h).bind fun start hstart => (makes_expectSign _).bind fun _ _ =>
      (makes_optionalBefore _ h).bind fun test htest => (makes_expectSign _).bind fun _ _ =>
        (makes_optionalBefore _ h).bind fun step hstep => (makes_expectSign _).bind fun _ _ =>
          Leads.bind hstatement fun body => leads_pure ?_
  rintro cursor ⟨standing, hbody, hbehind⟩
  have hroots : ∀ e ∈ test.toList ++ step.toList, e.depth ≤ e.links + rootSpare := by
    refine List.forall_mem_append.mpr ⟨fun e he => ?_, fun e he => ?_⟩
    · exact (htest e (Option.mem_toList.mp he)).depth
    · exact (hstep e (Option.mem_toList.mp he)).depth
  refine ⟨standing, Stmt.all_forLoop.mpr ⟨⟨?_, hroots⟩, fun s hs => (hstart s hs).1,
    fun e he => (htest e he).sound, fun e he => (hstep e he).sound, hbody⟩, hbehind⟩
  cases start with
  | none => trivial
  | some start => exact (hstart start rfl).2

theorem sets_returnStatement (h : Makes d expression IsRoot) :
    Sets d (returnStatement expression) := by
  have hrest : ∀ value : Option Expr, (∀ e ∈ value, IsRoot e) → Makes d (do
      endStatement
      return Stmt.ret value) fun s => s.Sound ∧ s.endsOpen = false := fun _ hvalue =>
    makes_endStatement.bind fun _ _ => makes_pure ⟨sound_ret hvalue, rfl⟩
  have hnone : ∀ e ∈ (none : Option Expr), IsRoot e := fun _ h => (nomatch h)
  refine sets_of_makes (makes_advance.bind fun _ _ => makes_peek.bind fun kind _ => ?_)
  split
  · exact hrest none hnone
  · exact hrest none hnone
  · exact hrest none hnone
  · refine makes_newlineBefore.bind fun newline _ => ?_
    split
    · exact hrest none hnone
    · have hvalue : Makes d (some <$> expression) fun value => ∀ e ∈ value, IsRoot e := by
        rw [map_eq_pure_bind]
        refine h.bind fun e he => makes_pure ?_
        rintro _ ⟨⟩
        exact he
      exact hvalue.bind hrest

theorem sets_functionStatement {suffixes : Expr → Parse Expr}
    (hstatement : Makes d statement Stmt.Sound)
    (h : ∀ value : Expr, value.Built 1 → Makes d (suffixes value) IsRoot) :
    Sets d (functionStatement statement suffixes) := by
  refine sets_of_makes ((makes_functionDef hstatement).bind fun definition hdefinition => ?_)
  obtain ⟨hnamed, hbody⟩ := hdefinition
  split
  · next hname => exact makes_pure ⟨sound_function hname hnamed hbody, rfl⟩
  · exact (h _ (.function hnamed hbody)).bind fun value hvalue =>
      makes_endStatement.bind fun _ _ => makes_pure ⟨sound_expression hvalue, rfl⟩

theorem sets_expressionStatement (h : Makes d expression IsRoot) :
    Sets d (expressionStatement expression) :=
  sets_of_makes (h.bind fun _ hvalue => makes_endStatement.bind fun _ _ =>
    makes_pure ⟨sound_expression hvalue, rfl⟩)

theorem sets_wordStatement {result : Stmt} (h : result.Sound) (closed : result.endsOpen = false) :
    Sets d (wordStatement result) :=
  sets_of_makes (makes_advance.bind fun _ _ => makes_endStatement.bind fun _ _ =>
    makes_pure ⟨h, closed⟩)

end Parts

/-! ## The grammar -/

/-- What every construct of the grammar builds with the given fuel. Where `d` of the budget is
taken, it has `nestingLimit - d` levels left for expressions inside one another, and a link of a
chain takes no more than the level that it adds. -/
structure MakesWithin (fuel : Nat) : Prop where
  statement : ∀ d, Sets d (statement fuel)
  assignment : ∀ d, Makes d (assignment fuel) (Expr.Built (nestingLimit - d))
  climb : ∀ d level, d ≤ nestingLimit →
    Makes d (climb fuel level) (Expr.Built (nestingLimit + 2 - d))
  chain : ∀ d n level left, nestingLimit + 2 ≤ n + d → left.Built n →
    Chains d (chain fuel level left) (Expr.Built n)
  unary : ∀ d, d ≤ nestingLimit → Makes d (unary fuel) (Expr.Built (nestingLimit + 2 - d))
  suffixes : ∀ d n value, nestingLimit ≤ n + d + 1 → value.Built n →
    Chains d (suffixes fuel value) (Expr.Built (n + 1))
  primary : ∀ d, d ≤ nestingLimit → Makes d (primary fuel) (Expr.Built (nestingLimit + 1 - d))

section Recursion

variable {fuel d n : Nat}

theorem sets_statement (h : MakesWithin fuel) (d : Nat) : Sets d (statement (fuel + 1)) := by
  have hexpression : Makes (d + descentCost) (assignment fuel) IsRoot :=
    (h.assignment _).imp fun e he =>
      he.mono (by simp only [nestingLimit, descentCost, rootSpare]; omega)
  have hstatement := h.statement (d + descentCost)
  have hstep : Leads (Cursor.Standing d) (statement (fuel + 1)) fun s after =>
      ∃ last : Cursor, (last.Standing (d + descentCost) ∧ s.Sound ∧ last.Behind s) ∧
        after = { last with depth := d } := by
    refine leads_restoring (leads_within fun _ => makes_peek.bind fun kind _ => ?_)
    split
    · exact makes_unexpected _
    · exact sets_of_makes (makes_taken ⟨Stmt.all_empty.mpr ⟨trivial, fun _ h => (nomatch h)⟩, rfl⟩)
    · exact sets_of_makes ((makes_block hstatement.makes).bind fun body hbody => makes_pure
        ⟨Stmt.all_block.mpr ⟨⟨trivial, fun _ h => (nomatch h)⟩, hbody⟩, rfl⟩)
    · exact sets_declarationStatement hexpression
    · exact sets_declarationStatement hexpression
    · exact sets_declarationStatement hexpression
    · refine sets_functionStatement hstatement.makes fun value hvalue => ?_
      refine Chains.restoring (h.suffixes _ 252 value ?_ (hvalue.mono (by decide)))
      simp only [nestingLimit, descentCost]
      omega
    · exact sets_returnStatement hexpression
    · exact sets_ifStatement hexpression hstatement
    · exact sets_whileStatement hexpression hstatement
    · exact sets_forStatement hexpression hstatement
    · exact sets_wordStatement (Stmt.all_breakLoop.mpr ⟨trivial, fun _ h => (nomatch h)⟩) rfl
    · exact sets_wordStatement (Stmt.all_continueLoop.mpr ⟨trivial, fun _ h => (nomatch h)⟩) rfl
    · exact sets_expressionStatement hexpression
  refine hstep.imp ?_
  rintro s _ ⟨last, ⟨standing, sound, behind⟩, rfl⟩
  exact ⟨⟨standing.tokens, rfl⟩, sound, behind⟩

theorem makes_assignment (h : MakesWithin fuel) (d : Nat) :
    Makes d (assignment (fuel + 1)) (Expr.Built (nestingLimit - d)) := by
  refine makes_nested fun hroom => ?_
  have hvalue : Makes (d + descentCost) (assignment fuel)
      (Expr.Built (nestingLimit + 2 - (d + descentCost))) :=
    (h.assignment _).imp fun e he => he.mono (by omega)
  refine (makes_assignmentTo (makes_conditional (h.climb _ _ hroom) hvalue) hvalue).imp
    fun e he => he.mono ?_
  simp only [descentCost] at hroom ⊢
  omega

theorem chains_chain (h : MakesWithin fuel) (level : Nat) {left : Expr}
    (hn : nestingLimit + 2 ≤ n + d) (hleft : left.Built n) :
    Chains d (chain (fuel + 1) level left) (Expr.Built n) := by
  refine makes_peek.bind fun kind _ => ?_
  split
  · exact (makes_pure hleft).chains
  · next connective _ =>
    split
    · exact (makes_pure hleft).chains
    · refine leads_within fun hroom => makes_advance.bind fun _ _ =>
        (h.climb _ _ hroom).bind fun right hright => ?_
      refine h.chain _ n level _ (by omega) (.join connective hleft (hright.mono ?_))
      omega

theorem makes_unary (h : MakesWithin fuel) (hd : d ≤ nestingLimit) :
    Makes d (unary (fuel + 1)) (Expr.Built (nestingLimit + 2 - d)) := by
  have hnested : Makes d (nested (unary fuel)) (Expr.Built (nestingLimit - d)) :=
    makes_nested fun hroom => (h.unary _ hroom).imp fun e he => he.mono (by
      simp only [descentCost]
      omega)
  have hmono : ∀ e : Expr, e.Built (nestingLimit - d + 1) → e.Built (nestingLimit + 2 - d) :=
    fun e he => he.mono (by omega)
  refine makes_peek.bind fun kind _ => ?_
  split
  · exact (makes_unaryOf _ hnested).imp hmono
  · exact (makes_unaryOf _ hnested).imp hmono
  · exact (makes_unaryOf _ hnested).imp hmono
  · exact (makes_unaryOf _ hnested).imp hmono
  · exact (makes_updateBefore _ hnested).imp hmono
  · exact (makes_updateBefore _ hnested).imp hmono
  · refine (h.primary d hd).bind fun value hvalue => Chains.restoring ?_
    exact (h.suffixes d _ value (by omega) hvalue).imp fun e he => he.mono (by omega)

theorem chains_suffixes (h : MakesWithin fuel) {value : Expr} (hn : nestingLimit ≤ n + d + 1)
    (hvalue : value.Built n) : Chains d (suffixes (fuel + 1) value) (Expr.Built (n + 1)) := by
  have hinner : Makes (d + linkCost) (assignment fuel) (Expr.Built n) :=
    (h.assignment _).imp fun e he => he.mono (by
      simp only [linkCost]
      omega)
  have hnext : ∀ next : Expr, next.Built n →
      Chains (d + linkCost) (suffixes fuel next) (Expr.Built (n + 1)) := fun next hnext =>
    h.suffixes _ n next (by omega) hnext
  refine makes_peek.bind fun kind _ => ?_
  split
  · exact leads_within fun _ => makes_advance.bind fun _ _ =>
      makes_propertyName.bind fun name hname => hnext _ (hvalue.member hname)
  · exact leads_within fun _ => makes_advance.bind fun _ _ => hinner.bind fun key hkey =>
      (makes_expectSign _).bind fun _ _ => hnext _ (hvalue.index hkey)
  · exact leads_within fun _ => makes_advance.bind fun _ _ =>
      (makes_commaList _ hinner).bind fun arguments harguments =>
        hnext _ (hvalue.call harguments)
  · exact (makes_updateSuffix _ hvalue).chains
  · exact (makes_updateSuffix _ hvalue).chains
  · exact (makes_pure (hvalue.mono (Nat.le_succ n))).chains

theorem makes_primary (h : MakesWithin fuel) (hd : d ≤ nestingLimit) :
    Makes d (primary (fuel + 1)) (Expr.Built (nestingLimit + 1 - d)) := by
  have hleast : 1 ≤ nestingLimit + 1 - d := by omega
  have heq : nestingLimit - d + 1 = nestingLimit + 1 - d := by omega
  have hliteral : ∀ value : Literal,
      Makes d (literal value) (Expr.Built (nestingLimit + 1 - d)) := fun value =>
    makes_taken ((Expr.Built.literal value).mono hleast)
  refine makes_peek.bind fun kind hkind => ?_
  split
  · exact (makes_numberValue _).bind fun _ _ => hliteral _
  · exact (makes_stringValue _).bind fun _ _ => hliteral _
  · exact hliteral _
  · exact hliteral _
  · exact hliteral _
  · exact hliteral _
  · exact (makes_functionDef (h.statement d).makes).bind fun definition hdefinition =>
      makes_pure ((Expr.Built.function hdefinition.1 hdefinition.2).mono hleast)
  · exact makes_taken ((Expr.Built.identifier (isName_of_standalone (hkind _ rfl))).mono hleast)
  · exact makes_parenthesized ((h.assignment d).imp fun e he => he.mono (by omega))
  · exact makes_advance.bind fun _ _ => (makes_commaList _ (h.assignment d)).bind
      fun elements helements => makes_pure (heq ▸ .array helements)
  · exact makes_advance.bind fun _ _ => (makes_commaList _ (makes_property (h.assignment d))).bind
      fun properties hproperties => makes_pure (heq ▸ .object hproperties)
  · exact makes_unexpected _

/-- **Every construct of the grammar builds what is lawful,** and no deeper than its links and the
rest of the budget allow. -/
theorem makes_recursion (fuel : Nat) : MakesWithin fuel := by
  induction fuel with
  | zero =>
    exact ⟨fun _ => leads_tooDeep, fun _ => leads_tooDeep, fun _ _ _ => leads_tooDeep,
      fun _ _ _ _ _ _ => leads_tooDeep, fun _ _ => leads_tooDeep, fun _ _ _ _ _ => leads_tooDeep,
      fun _ _ => leads_tooDeep⟩
  | succ fuel ih =>
    refine ⟨sets_statement ih, makes_assignment ih, fun d level hd => ?_,
      fun d n level left hn hleft => chains_chain ih level hn hleft,
      fun d hd => makes_unary ih hd, fun d n value hn hvalue => chains_suffixes ih hn hvalue,
      fun d hd => makes_primary ih hd⟩
    refine Chains.restoring (Makes.bind (ih.unary d hd) fun left hleft => ?_)
    exact ih.chain d _ level left (by omega) hleft

end Recursion

end Source

open Source

/-- **What a text is read as is lawful.** -/
theorem Program.lawful_of_parse {text : String} {program : Program}
    (parses : Program.parse text = .ok program) : program.Lawful := by
  unfold Program.parse Source.program at parses
  cases hmove : Cursor.moveTo ⟨(tokenize text.toList).tokens, (tokenize text.toList).ending, 0⟩
      (tokenize text.toList).tokens with
  | error e =>
    rw [hmove] at parses
    cases parses
  | ok cursor =>
    have hcursor : cursor.Standing 0 := by
      unfold Cursor.moveTo at hmove
      split at hmove <;> cases hmove
      exact ⟨standalone_of_tokenizeFrom, rfl⟩
    rw [hmove] at parses
    simp only [bind, Except.bind] at parses
    split at parses
    · next body after hbody =>
      cases parses
      have hmakes := makes_statementsWithin ((makes_recursion recursionFuel).statement 0).makes
        ((tokenize text.toList).tokens.length + 1)
      exact Program.all_iff.mpr (hmakes cursor body after hcursor hbody).2
    · cases parses

end Formulary
