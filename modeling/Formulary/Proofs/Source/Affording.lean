import Formulary.Proofs.Source.Opening
import Formulary.Proofs.Source.RoundTrip

/-!
# Reading given tokens where there is room

* `Affords` : steps that read given tokens as a given answer where the nesting budget has room;
* `Stopped` : tokens that no expression goes on with;
* `affords_assignment` : an operand before such tokens is an expression;
* `Writes`, `affords_written` : tokens that are an expression by themselves;
* `affords_keyed`, `affords_indexed` : objects with one property, and a property by key;
* `program_of_statement` : tokens that are one statement are a program.
-/

namespace Formulary.Source

/-- Whether a step begun before some tokens has a given answer and stops before others, and leaves
the depth as it was, wherever there is so much room below the nesting limit. -/
def Affords {α : Type} (room : Nat) (step : Parse α) (before after : List TokenKind) (a : α) :
    Prop :=
  ∀ cursor : Cursor, cursor.Before before → cursor.depth + room ≤ nestingLimit →
    ∃ last : Cursor, step cursor = .ok a last ∧ last.Before after ∧ last.depth = cursor.depth

section Steps

variable {α β : Type} {step : Parse α} {next : α → Parse β} {before middle after : List TokenKind}
  {kind : TokenKind} {sign : Symbol} {a : α} {b : β} {room cost : Nat}

theorem affords_pure (a : α) : Affords room (pure a) before before a :=
  fun cursor h _ => ⟨cursor, rfl, h, rfl⟩

theorem Affords.bind (first : Affords room step before middle a)
    (second : Affords room (next a) middle after b) :
    Affords room (step >>= next) before after b := by
  intro cursor h hroom
  obtain ⟨between, hstep, hbetween, hdepth⟩ := first cursor h hroom
  obtain ⟨last, hnext, hlast, hdepth'⟩ := second between hbetween (hdepth ▸ hroom)
  exact ⟨last, bind_eq_ok.mpr ⟨a, between, hstep, hnext⟩, hlast, hdepth'.trans hdepth⟩

theorem affords_peek : Affords room peek before before before.head? := by
  intro cursor h _
  refine ⟨cursor, ?_, h, rfl⟩
  change EStateM.Result.ok (cursor.tokens.head?.map Token.kind) cursor = _
  rw [h.head?]

theorem affords_rounds : Affords room rounds before before (before.length + 1) := by
  intro cursor h _
  refine ⟨cursor, ?_, h, rfl⟩
  change EStateM.Result.ok (cursor.tokens.length + 1) cursor = _
  rw [h.length]

theorem affords_advance : Affords room advance (kind :: after) after () := by
  intro cursor h _
  refine ⟨_, advance_eq_ok.mpr ⟨fun _ => h.ending, rfl⟩, ⟨?_, h.ending⟩, rfl⟩
  rw [List.map_tail, h.tokens]
  rfl

/-- What is read off the current token, which is left behind. -/
theorem affords_taken (a : α) : Affords room (do advance; return a) (kind :: after) after a :=
  affords_advance.bind (affords_pure a)

theorem affords_atSign (before : List TokenKind) (sign : Symbol) :
    Affords room (atSign sign) before before (before.head? == some (.symbol sign)) :=
  affords_peek.bind (affords_pure _)

theorem affords_atSign_false (h : before.head? ≠ some (.symbol sign)) :
    Affords room (atSign sign) before before false := by
  rw [← beq_eq_false_iff_ne.mpr h]
  exact affords_atSign before sign

theorem affords_expectSign : Affords room (expectSign sign) (.symbol sign :: after) after () := by
  refine (affords_atSign (.symbol sign :: after) sign).bind ?_
  rw [List.head?_cons, beq_self_eq_true]
  exact affords_advance

theorem Affords.restoring (h : Affords room step before after a) :
    Affords room (restoring step) before after a := by
  intro cursor hbefore hroom
  obtain ⟨last, hstep, hlast, hdepth⟩ := h cursor hbefore hroom
  exact ⟨_, restoring_eq_ok.mpr ⟨last, hstep, rfl⟩, ⟨hlast.tokens, hlast.ending⟩, rfl⟩

/-- What is taken from the budget comes out of the room, and is given back. -/
theorem Affords.descending (h : Affords room step before after a) (cost : Nat) :
    Affords (room + cost) (Source.restoring (descend cost >>= fun _ => step)) before after a := by
  intro cursor hbefore hroom
  obtain ⟨last, hstep, hlast, -⟩ :=
    h { cursor with depth := cursor.depth + cost } ⟨hbefore.tokens, hbefore.ending⟩
      (by dsimp only; omega)
  have hdescend : descend cost cursor = .ok () { cursor with depth := cursor.depth + cost } :=
    descend_eq_ok.mpr ⟨by omega, rfl⟩
  exact ⟨_, restoring_eq_ok.mpr ⟨last, bind_eq_ok.mpr ⟨_, _, hdescend, hstep⟩, rfl⟩,
    ⟨hlast.tokens, hlast.ending⟩, rfl⟩

/-- A step one level further inside takes its cost from the room. -/
theorem Affords.nested (h : Affords room step before after a) :
    Affords (room + descentCost) (nested step) before after a :=
  h.descending descentCost

/-- Looking at the current token changes nothing. -/
theorem Affords.peeking {next : Option TokenKind → Parse β}
    (h : Affords room (Source.restoring (next before.head?)) before after b) :
    Affords room (Source.restoring (peek >>= next)) before after b := by
  intro cursor hbefore hroom
  obtain ⟨last, hnext, hlast⟩ := h cursor hbefore hroom
  obtain ⟨inner, hinner, rfl⟩ := restoring_eq_ok.mp hnext
  refine ⟨_, restoring_eq_ok.mpr ⟨inner, bind_eq_ok.mpr ⟨_, cursor, ?_, hinner⟩, rfl⟩, hlast⟩
  change EStateM.Result.ok (cursor.tokens.head?.map Token.kind) cursor = _
  rw [hbefore.head?]

/-- One item without a comma behind it. -/
theorem affords_commaList_one {close : Symbol} {item : Parse α}
    (h : Affords room item before (.symbol close :: after) a)
    (starts : before.head? ≠ some (.symbol close)) (apart : close ≠ .comma) :
    Affords room (commaList close item) before after [a] := by
  have hcomma : (TokenKind.symbol close :: after).head? ≠ some (.symbol .comma) := by
    simpa using apart
  have hitems : Affords room (commaListWithin close item (before.length + 1)) before
      (.symbol close :: after) [a] :=
    (affords_atSign_false starts).bind
      (h.bind ((affords_atSign_false hcomma).bind (affords_pure [a])))
  exact affords_rounds.bind (hitems.bind (affords_expectSign.bind (affords_pure [a])))

end Steps

/-! ## Where an expression stops -/

/-- Tokens that no expression goes on with: none, or such a sign and more. -/
inductive Stopped : List TokenKind → Prop
  | nil : Stopped []
  | sign {sign : Symbol} (h : sign ∈ closers) (rest : List TokenKind) :
    Stopped (.symbol sign :: rest)

section Operands

variable {room fuel level : Nat} {before after : List TokenKind} {e : Expr}

theorem affords_suffixes (stopped : Stopped after) (e : Expr) :
    Affords room (suffixes (fuel + 1) e) after after e := by
  refine affords_peek.bind ?_
  cases stopped with
  | nil => exact affords_pure e
  | @sign sign h rest =>
    have hsuffix := (Symbol.closes_of_mem h).suffix
    cases sign <;> first | exact affords_pure e | cases hsuffix

theorem affords_chain (stopped : Stopped after) (e : Expr) :
    Affords room (chain (fuel + 1) level e) after after e := by
  refine affords_peek.bind ?_
  cases stopped with
  | nil => exact affords_pure e
  | sign h rest =>
    simp only [List.head?_cons, Option.bind_some, (Symbol.closes_of_mem h).connective]
    exact affords_pure e

/-- An operand before such tokens is an expression. -/
theorem affords_assignment (stopped : Stopped after)
    (operand : Affords room (unary fuel) before after e) (enough : 0 < fuel) :
    Affords (room + descentCost) (assignment (fuel + 2)) before after e := by
  obtain ⟨fuel, rfl⟩ := Nat.exists_eq_add_one.mpr enough
  have hclimb : Affords room (climb (fuel + 2) loosestLevel) before after e :=
    (operand.bind (affords_chain stopped e)).restoring
  have hquestion : after.head? ≠ some (.symbol .question) := by
    cases stopped with
    | nil => simp
    | sign h rest => simpa using (Symbol.closes_of_mem h).question
  have htarget : Affords room (conditional (climb (fuel + 2) loosestLevel)
      (assignment (fuel + 2))) before after e :=
    hclimb.bind ((affords_atSign_false hquestion).bind (affords_pure e))
  refine Affords.nested (htarget.bind (affords_peek.bind ?_))
  cases stopped with
  | nil => exact affords_pure e
  | sign h rest =>
    simp only [List.head?_cons, Option.bind_some, (Symbol.closes_of_mem h).assignment]
    exact affords_pure e

end Operands

/-! ## Expressions -/

/-- Tokens that are an expression by themselves: names, numbers and strings. -/
inductive Writes : TokenKind → Expr → Prop
  | identifier (name : String) : Writes (.identifier name) (.identifier name)
  | number {text : String} {x : Float} (value : numberValue text = pure x) :
    Writes (.number text) (.literal (.number x))
  | string {quote : Char} {raw s : String} (value : stringValue raw = pure s) :
    Writes (.string quote raw) (.literal (.string s))

section Written

variable {room fuel : Nat} {kind : TokenKind} {before middle after : List TokenKind}
  {e value : Expr}

theorem affords_primary (writes : Writes kind e) :
    Affords room (primary (fuel + 1)) (kind :: after) after e := by
  refine affords_peek.bind ?_
  cases writes with
  | identifier name => exact affords_taken _
  | @number text x value =>
    dsimp only [List.head?_cons]
    rw [value]
    exact (affords_pure x).bind (affords_taken _)
  | @string quote raw s value =>
    dsimp only [List.head?_cons]
    rw [value]
    exact (affords_pure s).bind (affords_taken _)

theorem affords_unary (writes : Writes kind e) (stopped : Stopped after) :
    Affords room (unary (fuel + 2)) (kind :: after) after e := by
  have hvalue : Affords room (do restoring (suffixes (fuel + 1) (← primary (fuel + 1))))
      (kind :: after) after e :=
    (affords_primary writes).bind (affords_suffixes stopped e).restoring
  refine affords_peek.bind ?_
  cases writes <;> exact hvalue

/-- Such a token is an expression where none goes on behind it. -/
theorem affords_written (writes : Writes kind e) (stopped : Stopped after) :
    Affords (room + descentCost) (assignment (fuel + 4)) (kind :: after) after e :=
  affords_assignment stopped (affords_unary writes stopped) (Nat.succ_pos _)

/-- An expression that begins with an opening sign, and what stands behind it. -/
theorem affords_opened {sign : Symbol} (opening : sign ∈ [.openParen, .openBracket, .openBrace])
    (first : Affords room (primary fuel) (.symbol sign :: before) middle value)
    (behind : Affords room (restoring (suffixes fuel value)) middle after e) :
    Affords room (unary (fuel + 1)) (.symbol sign :: before) after e := by
  refine affords_peek.bind ?_
  simp only [List.mem_cons, List.not_mem_nil, or_false] at opening
  rcases opening with rfl | rfl | rfl <;> exact first.bind behind

/-- An expression between parentheses. -/
theorem affords_parenthesized
    (h : Affords room (assignment fuel) before (.symbol .closeParen :: after) e) :
    Affords room (primary (fuel + 1)) (.symbol .openParen :: before) after e :=
  affords_peek.bind (affords_expectSign.bind
    (h.bind (affords_expectSign.bind (affords_pure e))))

/-- An object with one property under a number as written. -/
theorem affords_keyed {key : String}
    (h : Affords room (assignment fuel) before (.symbol .closeBrace :: after) value) :
    Affords room (primary (fuel + 1))
      (.symbol .openBrace :: .number key :: .symbol .colon :: before) after
      (.object [(key, value)]) := by
  have hkey : Affords room propertyKey (.number key :: .symbol .colon :: before)
      (.symbol .colon :: before) key := affords_peek.bind (affords_taken key)
  have hproperty : Affords room (property (assignment fuel))
      (.number key :: .symbol .colon :: before) (.symbol .closeBrace :: after) (key, value) :=
    hkey.bind (affords_expectSign.bind (h.bind (affords_pure _)))
  exact affords_peek.bind (affords_advance.bind
    ((affords_commaList_one hproperty (by simp) (by decide)).bind (affords_pure _)))

/-- A property by key, behind an expression. -/
theorem affords_indexed (writes : Writes kind e) (stopped : Stopped after) (value : Expr) :
    Affords (room + descentCost + linkCost) (restoring (suffixes (fuel + 5) value))
      (.symbol .openBracket :: kind :: .symbol .closeBracket :: after) after (.index value e) := by
  have hkey : Affords (room + descentCost) (assignment (fuel + 4))
      (kind :: .symbol .closeBracket :: after) (.symbol .closeBracket :: after) e :=
    affords_written writes (.sign (by decide) after)
  have hrest : Affords (room + descentCost) (do
      advance
      let key ← assignment (fuel + 4)
      expectSign .closeBracket
      suffixes (fuel + 4) (.index value key))
      (.symbol .openBracket :: kind :: .symbol .closeBracket :: after) after (.index value e) :=
    affords_advance.bind (hkey.bind (affords_expectSign.bind (affords_suffixes stopped _)))
  exact Affords.peeking (hrest.descending linkCost)

end Written

/-! ## Programs -/

section Programs

variable {room fuel : Nat} {kind : TokenKind} {before : List TokenKind} {e : Expr}

/-- An expression at the end of a text is a statement. -/
theorem affords_expressionStatement (h : Affords room (assignment fuel) before [] e) :
    Affords room (expressionStatement (assignment fuel)) before [] (.expression e) := by
  have hend : Affords room endStatement [] [] () := affords_peek.bind (affords_pure ())
  exact h.bind (hend.bind (affords_pure _))

theorem affords_statement (writes : Writes kind e) :
    Affords (room + descentCost + descentCost) (statement (fuel + 5)) [kind] []
      (.expression e) := by
  have hexpression : Affords (room + descentCost) (expressionStatement (assignment (fuel + 4)))
      [kind] [] (.expression e) := affords_expressionStatement (affords_written writes .nil)
  refine Affords.nested (affords_peek.bind ?_)
  cases writes <;> exact hexpression

/-- Tokens that are one statement are a program. -/
theorem program_of_statement {lexed : Lexed} {kinds : List TokenKind} {s : Stmt}
    (h : Affords room (statement recursionFuel) (kind :: kinds) [] s) (fits : room ≤ nestingLimit)
    (aspects : lexed.tokens.map Token.aspect = (kind :: kinds).map fun kind => (kind, false))
    (ending : lexed.ending.fault? = none) : program lexed = .ok ⟨[s]⟩ := by
  have hlength : lexed.tokens.length = kinds.length + 1 := by
    simpa using congrArg List.length aspects
  have hrest : Affords room (statementsWithin (statement recursionFuel) (kinds.length + 1)) [] []
      [] := affords_peek.bind (affords_pure [])
  have hbody : Affords room (statementsWithin (statement recursionFuel) (kinds.length + 2))
      (kind :: kinds) [] [s] :=
    affords_peek.bind (h.bind (hrest.bind (affords_pure _)))
  obtain ⟨last, hlast, -, -⟩ :=
    hbody ⟨lexed.tokens, lexed.ending, 0⟩ ⟨aspects, ending⟩ (by dsimp only; omega)
  rw [program_eq lexed (.inr ending), hlength, hlast]

end Programs

end Formulary.Source
