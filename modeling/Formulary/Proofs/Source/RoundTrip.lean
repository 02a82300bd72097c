import Formulary.Proofs.Source.Yielding

/-!
# Programs are read from their canonical text again

* `Symbol.Ends`, `Symbol.Closes`, `closers` : signs that operands and expressions end before;
* `YieldsWithin` : what every construct of the grammar reads of canonical tokens with given fuel;
* `yields_recursion` : it reads them as what they write, whatever the fuel;
* `Program.parse_canonical` : a program that is read from a text is read from its canonical text.
-/

namespace Formulary

/-- Whether an expression is written without an operator between operands. -/
def Expr.isOperand : Expr → Bool
  | .binary _ _ _ => false
  | .logical _ _ _ => false
  | .conditional _ _ _ => false
  | .assign _ _ _ => false
  | _ => true

/-- Whether an expression is written without an operator and a suffix. -/
def Expr.isPrimary : Expr → Bool
  | .literal _ => true
  | .identifier _ => true
  | .array _ => true
  | .object _ => true
  | .function _ => true
  | _ => false

namespace Source

/-! ## What ends an expression -/

/-- Signs that begin a suffix. -/
def Symbol.opensSuffix : Symbol → Bool
  | dot => true
  | openBracket => true
  | openParen => true
  | increment => true
  | decrement => true
  | _ => false

/-- Signs that go on with nothing that was read before them. -/
def closers : List Symbol :=
  [.closeParen, .closeBracket, .closeBrace, .comma, .semicolon, .colon]

/-- Whether an operand that operators of at least the given level could follow ends before a
sign. -/
structure Symbol.Ends (level : Nat) (sign : Symbol) : Prop where
  suffix : sign.opensSuffix = false
  chain : ∀ op ∈ sign.connective?, op.level < level

/-- Whether a sign is none of those that the grammar looks for behind an expression. -/
structure Symbol.Closes (sign : Symbol) : Prop where
  suffix : sign.opensSuffix = false
  connective : sign.connective? = none
  assignment : sign.assignment? = none
  question : sign ≠ .question

theorem Symbol.closes_of_mem {sign : Symbol} (h : sign ∈ closers) : sign.Closes := by
  have hall : ∀ sign ∈ closers, sign.opensSuffix = false ∧ sign.connective? = none ∧
      sign.assignment? = none ∧ sign ≠ .question := by decide
  obtain ⟨hsuffix, hconnective, hassignment, hquestion⟩ := hall sign h
  exact ⟨hsuffix, hconnective, hassignment, hquestion⟩

theorem Symbol.Closes.ends {sign : Symbol} (h : sign.Closes) (level : Nat) : sign.Ends level :=
  ⟨h.suffix, fun op hop => by simp [h.connective] at hop⟩

theorem Connective.opensSuffix_sign (op : Connective) : op.sign.opensSuffix = false := by
  rcases op with op | op <;> cases op <;> rfl

section Stops

variable {fuel level : Nat} {sign : Symbol} {rest : List TokenKind}

theorem yields_suffixes_stop (h : sign.opensSuffix = false) (value : Expr) :
    Yields (suffixes fuel value) (.symbol sign :: rest) (.symbol sign :: rest) value := by
  cases fuel with
  | zero => exact yields_tooDeep
  | succ fuel =>
    refine yields_peek.bind ?_
    cases sign <;> first | exact yields_pure value | cases h

theorem yields_chain_stop (h : ∀ op ∈ sign.connective?, op.level < level) (left : Expr) :
    Yields (chain fuel level left) (.symbol sign :: rest) (.symbol sign :: rest) left := by
  cases fuel with
  | zero => exact yields_tooDeep
  | succ fuel =>
    refine yields_peek.bind ?_
    simp only [List.head?_cons, Option.bind_some]
    cases hop : sign.connective? with
    | none => exact yields_pure left
    | some op =>
      dsimp only
      rw [if_pos (h op hop)]
      exact yields_pure left

end Stops

/-! ## Canonical tokens -/

section Canonical

variable (decimal : Float → String)

/-- Whether tokens write an expression as an operand: between parentheses, or without an operator
that would have to stand between them. -/
def AsOperand (e : Expr) (tokens : List TokenKind) : Prop :=
  tokens = inParens (e.tokens decimal) ∨ e.isOperand = true ∧ tokens = e.tokens decimal

/-- Whether tokens write an expression as what a suffix can stand behind. -/
def AsPrimary (e : Expr) (tokens : List TokenKind) : Prop :=
  tokens = inParens (e.tokens decimal) ∨ e.isPrimary = true ∧ tokens = e.tokens decimal

/-- Expressions that tokens behind another expression make of it. -/
inductive Suffixed : Expr → List TokenKind → Expr → Prop
  | member (object : Expr) (name : String) :
    Suffixed object [.symbol .dot, nameToken name] (.member object name)
  | index (object key : Expr) :
    Suffixed object
      (.symbol .openBracket :: inParens (key.tokens decimal) ++ [.symbol .closeBracket])
      (.index object key)
  | call (callee : Expr) (arguments : List Expr) :
    Suffixed callee
      (.symbol .openParen :: commaSeparated (tokensOfAll decimal arguments) ++
        [.symbol .closeParen])
      (.call callee arguments)
  | update (op : UpdateOp) (target : Expr) :
    Suffixed target [.symbol op.sign] (.update op false target)

/-- What every construct of the grammar reads of canonical tokens with the given fuel. -/
structure YieldsWithin (fuel : Nat) : Prop where
  statement : ∀ s : Stmt, s.Writable decimal → ∀ rest : List TokenKind,
    (s.endsOpen = true → rest.head? ≠ some (.keyword .elseWord)) →
      Yields (statement fuel) (s.tokens decimal ++ rest) rest s
  assignment : ∀ e : Expr, e.Writable decimal →
    ∀ tokens ∈ [inParens (e.tokens decimal), e.tokens decimal], ∀ sign ∈ closers, ∀ rest,
      Yields (assignment fuel) (tokens ++ .symbol sign :: rest) (.symbol sign :: rest) e
  climb : ∀ level, ∀ e : Expr, e.Writable decimal → ∀ tokens, AsOperand decimal e tokens →
    ∀ sign : Symbol, sign.Ends level → ∀ rest,
      Yields (climb fuel level) (tokens ++ .symbol sign :: rest) (.symbol sign :: rest) e
  join : ∀ op : Connective, ∀ left right : Expr, left.Writable decimal → right.Writable decimal →
    ∀ sign : Symbol, sign.Closes → ∀ rest, Yields (Source.climb fuel loosestLevel)
      (inParens (left.tokens decimal) ++ .symbol op.sign ::
        (inParens (right.tokens decimal) ++ .symbol sign :: rest))
      (.symbol sign :: rest) (op.join left right)
  link : ∀ level, ∀ op : Connective, ∀ left right : Expr, right.Writable decimal →
    level ≤ op.level → ∀ sign : Symbol, sign.Closes → ∀ rest, Yields (chain fuel level left)
      (.symbol op.sign :: (inParens (right.tokens decimal) ++ .symbol sign :: rest))
      (.symbol sign :: rest) (op.join left right)
  unary : ∀ e : Expr, e.Writable decimal → ∀ tokens, AsOperand decimal e tokens →
    ∀ sign : Symbol, sign.opensSuffix = false → ∀ rest,
      Yields (unary fuel) (tokens ++ .symbol sign :: rest) (.symbol sign :: rest) e
  suffix : ∀ object tokens, ∀ e : Expr, Suffixed decimal object tokens e → e.Writable decimal →
    ∀ sign : Symbol, sign.opensSuffix = false → ∀ rest,
      Yields (suffixes fuel object) (tokens ++ .symbol sign :: rest) (.symbol sign :: rest) e
  primary : ∀ e : Expr, e.Writable decimal → ∀ tokens, AsPrimary decimal e tokens → ∀ rest,
    Yields (primary fuel) (tokens ++ rest) rest e

end Canonical

section Parts

variable {decimal : Float → String} {fuel : Nat} {rest : List TokenKind} {sign : Symbol}

theorem tokensOfAll_eq (elements : List Expr) :
    tokensOfAll decimal elements = elements.map fun e => inParens (e.tokens decimal) := by
  induction elements with
  | nil => rfl
  | cons e rest ih => rw [tokensOfAll, ih, List.map_cons]

theorem tokensOfProperties_eq (properties : List (String × Expr)) :
    tokensOfProperties decimal properties = properties.map fun property =>
      stringToken property.1 :: .symbol .colon :: inParens (property.2.tokens decimal) := by
  induction properties with
  | nil => rfl
  | cons property rest ih => rw [tokensOfProperties, ih, List.map_cons]

theorem tokensOfDeclarators_eq (declarators : List (String × Option Expr)) :
    tokensOfDeclarators decimal declarators = declarators.map fun declarator =>
      .identifier declarator.1 :: tokensOfInitial decimal declarator.2 := by
  induction declarators with
  | nil => rfl
  | cons declarator rest ih => rw [tokensOfDeclarators, ih, List.map_cons]

theorem tokensOfBody_eq (body : List Stmt) :
    tokensOfBody decimal body = body.flatMap (Stmt.tokens decimal) := by
  induction body with
  | nil => rfl
  | cons s rest ih => rw [tokensOfBody, ih, List.flatMap_cons]

theorem inParens_append (tokens rest : List TokenKind) :
    inParens tokens ++ rest = .symbol .openParen :: (tokens ++ .symbol .closeParen :: rest) := by
  simp [inParens]

theorem startsApart_inParens {kinds tokens : List TokenKind} (h : .symbol .openParen ∉ kinds) :
    StartsApart kinds (inParens tokens) :=
  ⟨_, _, rfl, h⟩

/-- No statement begins with what ends statements or another one. -/
theorem startsApart_stmt (decimal : Float → String) (s : Stmt) :
    StartsApart [.symbol .closeBrace, .keyword .elseWord] (s.tokens decimal) := by
  cases s with
  | function definition =>
    obtain ⟨name, parameters, body⟩ := definition
    exact ⟨_, _, rfl, by simp⟩
  | _ => exact ⟨_, _, rfl, by simp⟩

theorem yields_stringValue (s : String) :
    Yields (stringValue (String.ofList (Escape.encode '\'' s.toList))) rest rest s := by
  rw [stringValue_encode (.inl rfl)]
  exact yields_pure s

theorem yields_numberValue {text : String} {x : Float} (h : ReadsAs text x) :
    Yields (numberValue text) rest rest x := by
  obtain ⟨numeral, hnumeral, rfl⟩ := h
  unfold numberValue
  rw [hnumeral]
  exact yields_pure _

theorem yields_propertyName (name : String) :
    Yields propertyName (nameToken name :: rest) rest name := by
  refine yields_peek.bind ?_
  unfold nameToken
  cases hword : Keyword.ofText? name with
  | none => exact yields_taken name
  | some word =>
    have hspelling := List.find?_some hword
    rw [← beq_iff_eq.mp hspelling]
    exact yields_taken word.text

/-! ### Lists -/

theorem yields_elements (rest : List TokenKind) (h : YieldsWithin decimal fuel) {close : Symbol}
    (hclose : close ∈ closers) (apart : close ≠ .comma) {elements : List Expr}
    (helements : ∀ e ∈ elements, e.Writable decimal) :
    Yields (commaList close (assignment fuel))
      (commaSeparated (tokensOfAll decimal elements) ++ .symbol close :: rest) rest elements := by
  rw [tokensOfAll_eq]
  refine yields_commaList apart (fun e _ => startsApart_inParens ?_) fun e he sign hsign rest => ?_
  · rw [List.mem_singleton]
    rintro ⟨⟩
    exact absurd hclose (by decide)
  · refine h.assignment e (helements e he) _ List.mem_cons_self sign ?_ rest
    rcases List.mem_cons.mp hsign with rfl | hsign
    · decide
    · exact List.mem_singleton.mp hsign ▸ hclose

theorem yields_properties (rest : List TokenKind) (h : YieldsWithin decimal fuel)
    {properties : List (String × Expr)}
    (hproperties : ∀ property ∈ properties, property.2.Writable decimal) :
    Yields (commaList .closeBrace (property (assignment fuel)))
      (commaSeparated (tokensOfProperties decimal properties) ++ .symbol .closeBrace :: rest) rest
      properties := by
  rw [tokensOfProperties_eq]
  refine yields_commaList (by decide) (fun property _ => ⟨_, _, rfl, by simp [stringToken]⟩) ?_
  rintro ⟨key, value⟩ hmem sign hsign rest
  have hkey : ∀ rest, Yields propertyKey (stringToken key :: rest) rest key := fun rest =>
    yields_peek.bind ((yields_stringValue key).bind (yields_taken key))
  have hvalue := h.assignment value (hproperties _ hmem) _ List.mem_cons_self sign
    (by revert sign; decide) rest
  exact (hkey _).bind (yields_expectSign.bind (hvalue.bind (yields_pure _)))

theorem yields_declarators (rest : List TokenKind) (h : YieldsWithin decimal fuel)
    {declarators : List (String × Option Expr)} (nonempty : declarators ≠ [])
    (hinitial : ∀ declarator ∈ declarators, ∀ e ∈ declarator.2, e.Writable decimal) :
    Yields (declaration (assignment fuel))
      (.keyword .varWord :: commaSeparated (tokensOfDeclarators decimal declarators) ++
        .symbol .semicolon :: rest) (.symbol .semicolon :: rest) (.declaration declarators) := by
  have hlength : declarators.length ≤ (commaSeparated (declarators.map fun d =>
      .identifier d.1 :: tokensOfInitial decimal d.2)).length :=
    length_le_commaSeparated fun _ _ => Nat.succ_pos _
  rw [tokensOfDeclarators_eq, List.cons_append]
  refine yields_advance.bind (yields_rounds.bind
    ((yields_declaratorsWithin nonempty ?_ ?_).bind (yields_pure _)))
  · rintro ⟨name, initial⟩ hmem sign hsign rest
    cases initial with
    | none =>
      have hassign : sign ≠ .assign := by
        revert sign
        decide
      have hhead : (TokenKind.symbol sign :: rest).head? ≠ some (.symbol .assign) := by
        simpa using hassign
      exact yields_identifier.bind ((yields_atSign_false hhead).bind (yields_pure _))
    | some e =>
      have he := h.assignment e (hinitial _ hmem e rfl) _ List.mem_cons_self sign
        (by revert sign; decide) rest
      exact yields_identifier.bind (yields_atSign_true.bind (yields_advance.bind
        (he.bind (yields_pure _))))
  · simp only [List.length_append]
    omega

theorem yields_body (rest : List TokenKind) (h : YieldsWithin decimal fuel) {body : List Stmt}
    (hbody : ∀ s ∈ body, s.Writable decimal) :
    Yields (block (statement fuel))
      (.symbol .openBrace :: tokensOfBody decimal body ++ .symbol .closeBrace :: rest) rest
      body := by
  rw [tokensOfBody_eq]
  exact yields_block (fun s _ => startsApart_stmt decimal s) fun s hs rest hrest =>
    h.statement s (hbody s hs) rest fun _ => hrest

theorem yields_functionDef (rest : List TokenKind) (h : YieldsWithin decimal fuel)
    {definition : FunctionDef} (hbody : ∀ s ∈ definition.body, s.Writable decimal) :
    Yields (functionDef (statement fuel)) (definition.tokens decimal ++ rest) rest definition := by
  obtain ⟨name, parameters, body⟩ := definition
  have hparameters : ∀ rest, Yields (commaList .closeParen identifier)
      (commaSeparated (parameters.map fun name => [.identifier name]) ++
        .symbol .closeParen :: rest)
      rest parameters := fun rest =>
    yields_commaList (by decide) (fun name _ => ⟨_, _, rfl, by simp⟩)
      fun name _ sign _ rest => yields_identifier
  have hrest : Yields (do
      expectSign .openParen
      let parameters ← commaList .closeParen identifier
      return FunctionDef.mk name parameters (← block (statement fuel)))
      (.symbol .openParen :: (commaSeparated (parameters.map fun name => [.identifier name]) ++
        .symbol .closeParen :: (.symbol .openBrace :: tokensOfBody decimal body ++
          .symbol .closeBrace :: rest))) rest (.mk name parameters body) :=
    yields_expectSign.bind ((hparameters _).bind ((yields_body _ h hbody).bind (yields_pure _)))
  rw [FunctionDef.tokens]
  simp only [List.cons_append, List.append_assoc, List.nil_append] at hrest ⊢
  refine yields_advance.bind ?_
  cases name with
  | none => exact yields_peek.bind hrest
  | some name => exact yields_peek.bind (yields_advance.bind hrest)

end Parts

/-! ## The grammar -/

section Recursion

variable {decimal : Float → String} {fuel : Nat}

theorem yields_inParens (h : YieldsWithin decimal fuel) {e : Expr} (he : e.Writable decimal)
    {sign : Symbol} (hsign : sign ∈ closers) (rest : List TokenKind) :
    Yields (assignment fuel) (inParens (e.tokens decimal) ++ .symbol sign :: rest)
      (.symbol sign :: rest) e :=
  h.assignment e he _ List.mem_cons_self sign hsign rest

theorem yields_parenthesized (h : YieldsWithin decimal fuel) {e : Expr} (he : e.Writable decimal)
    (rest : List TokenKind) :
    Yields (parenthesized (assignment fuel)) (inParens (e.tokens decimal) ++ rest) rest e := by
  have hinner := h.assignment e he (e.tokens decimal) (by simp) .closeParen (by decide) rest
  rw [inParens_append]
  exact yields_expectSign.bind (hinner.bind (yields_expectSign.bind (yields_pure e)))

theorem yields_primary (h : YieldsWithin decimal fuel) {e : Expr} (he : e.Writable decimal)
    {tokens : List TokenKind} (form : AsPrimary decimal e tokens) (rest : List TokenKind) :
    Yields (primary (fuel + 1)) (tokens ++ rest) rest e := by
  obtain rfl | ⟨hprimary, rfl⟩ := form
  · exact yields_peek.bind (yields_parenthesized h he rest)
  · cases e with
    | literal value =>
      rw [Expr.tokens]
      cases value with
      | number x =>
        have hnumber : ReadsAs (decimal x) x := (all_literal.mp he).2
        exact yields_peek.bind ((yields_numberValue hnumber).bind (yields_taken _))
      | string s => exact yields_peek.bind ((yields_stringValue s).bind (yields_taken _))
      | boolean b => cases b <;> exact yields_peek.bind (yields_taken _)
      | null => exact yields_peek.bind (yields_taken _)
      | undefined => exact yields_peek.bind (yields_taken _)
    | identifier name =>
      rw [Expr.tokens]
      exact yields_peek.bind (yields_taken _)
    | array elements =>
      have helements := yields_elements rest h
        (show .closeBracket ∈ closers by decide) (by decide) (all_array.mp he).2
      simp only [Expr.tokens, List.cons_append, List.append_assoc, List.nil_append]
      exact yields_peek.bind (yields_advance.bind (helements.bind (yields_pure _)))
    | object properties =>
      have hproperties := yields_properties rest h (all_object.mp he).2
      simp only [Expr.tokens, List.cons_append, List.append_assoc, List.nil_append]
      exact yields_peek.bind (yields_advance.bind (hproperties.bind (yields_pure _)))
    | function definition =>
      obtain ⟨name, parameters, body⟩ := definition
      have hbody : ∀ s ∈ (FunctionDef.mk name parameters body).body, s.Writable decimal :=
        FunctionDef.all_mk.mp (all_function.mp he).2
      have hdefinition := yields_functionDef rest h hbody
      exact yields_peek.bind (hdefinition.bind (yields_pure _))
    | _ => cases hprimary

theorem yields_suffixes (h : YieldsWithin decimal fuel) {object e : Expr} {tokens : List TokenKind}
    (form : Suffixed decimal object tokens e) (he : e.Writable decimal) {sign : Symbol}
    (hsign : sign.opensSuffix = false) (rest : List TokenKind) :
    Yields (suffixes (fuel + 1) object) (tokens ++ .symbol sign :: rest) (.symbol sign :: rest)
      e := by
  cases form with
  | member _ name =>
    exact yields_peek.bind ((yields_descend linkCost).bind (yields_advance.bind
      ((yields_propertyName name).bind (yields_suffixes_stop hsign _))))
  | index _ key =>
    obtain ⟨-, -, hkey⟩ := all_index.mp he
    have hinner := h.assignment key hkey _ List.mem_cons_self .closeBracket (by decide)
      (.symbol sign :: rest)
    simp only [List.cons_append, List.append_assoc, List.nil_append]
    exact yields_peek.bind ((yields_descend linkCost).bind (yields_advance.bind
      (hinner.bind (yields_expectSign.bind (yields_suffixes_stop hsign _)))))
  | call _ arguments =>
    obtain ⟨-, -, harguments⟩ := all_call.mp he
    have hinner := yields_elements (.symbol sign :: rest) h
      (show .closeParen ∈ closers by decide) (by decide) harguments
    simp only [List.cons_append, List.append_assoc, List.nil_append]
    exact yields_peek.bind ((yields_descend linkCost).bind (yields_advance.bind
      (hinner.bind (yields_suffixes_stop hsign _))))
  | update op =>
    have hplace : object.isAssignable = true := (all_update.mp he).1.1
    have hbehind : Yields (do if ← newlineBefore then return object else updateBehind op object)
        (.symbol op.sign :: .symbol sign :: rest) (.symbol sign :: rest)
        (.update op false object) := by
      refine yields_newlineBefore.bind ?_
      unfold updateBehind
      rw [if_pos hplace]
      exact yields_taken _
    cases op <;> exact yields_peek.bind hbehind

/-- A primary with no suffix. -/
theorem yields_unsuffixed (h : YieldsWithin decimal fuel) {e : Expr} (he : e.Writable decimal)
    {tokens : List TokenKind} (form : AsPrimary decimal e tokens) {sign : Symbol}
    (hsign : sign.opensSuffix = false) (rest : List TokenKind) :
    Yields (do let value ← primary fuel; restoring (suffixes fuel value))
      (tokens ++ .symbol sign :: rest) (.symbol sign :: rest) e :=
  (h.primary e he tokens form _).bind (yields_suffixes_stop hsign e).restoring

/-- A primary in parentheses with one suffix. -/
theorem yields_suffixed (h : YieldsWithin decimal fuel) {object e : Expr}
    (hobject : object.Writable decimal) {tokens : List TokenKind}
    (form : Suffixed decimal object tokens e) (he : e.Writable decimal) {sign : Symbol}
    (hsign : sign.opensSuffix = false) (rest : List TokenKind) :
    Yields (do let value ← primary fuel; restoring (suffixes fuel value))
      (inParens (object.tokens decimal) ++ (tokens ++ .symbol sign :: rest))
      (.symbol sign :: rest) e :=
  (h.primary object hobject _ (.inl rfl) _).bind (h.suffix _ _ _ form he _ hsign rest).restoring

/-- What an operator before its operand is applied to. -/
theorem yields_operand (h : YieldsWithin decimal fuel) {operand : Expr}
    (hoperand : operand.Writable decimal) {sign : Symbol} (hsign : sign.opensSuffix = false)
    (rest : List TokenKind) :
    Yields (nested (unary fuel)) (inParens (operand.tokens decimal) ++ .symbol sign :: rest)
      (.symbol sign :: rest) operand :=
  (h.unary operand hoperand _ (.inl rfl) _ hsign rest).nested

theorem yields_updateBefore (h : YieldsWithin decimal fuel) (op : UpdateOp) {target : Expr}
    (htarget : target.Writable decimal) (hplace : target.isAssignable = true) {sign : Symbol}
    (hsign : sign.opensSuffix = false) (rest : List TokenKind) :
    Yields (updateBefore op (nested (unary fuel)))
      (.symbol op.sign :: (inParens (target.tokens decimal) ++ .symbol sign :: rest))
      (.symbol sign :: rest) (.update op true target) := by
  refine .bind_any (fun cursor _ => ⟨_, rfl⟩) fun start => yields_advance.bind
    ((yields_operand h htarget hsign rest).bind ?_)
  rw [if_pos hplace]
  exact yields_pure _

theorem yields_unary (h : YieldsWithin decimal fuel) {e : Expr} (he : e.Writable decimal)
    {tokens : List TokenKind} (form : AsOperand decimal e tokens) {sign : Symbol}
    (hsign : sign.opensSuffix = false) (rest : List TokenKind) :
    Yields (unary (fuel + 1)) (tokens ++ .symbol sign :: rest) (.symbol sign :: rest) e := by
  obtain rfl | ⟨hform, rfl⟩ := form
  · exact yields_peek.bind (yields_unsuffixed h he (.inl rfl) hsign rest)
  · cases e with
    | literal value =>
      have hvalue := yields_unsuffixed h he (.inr ⟨rfl, rfl⟩) hsign rest
      rw [Expr.tokens] at hvalue ⊢
      rcases value with _ | _ | (_ | _) | _ | _ <;> exact yields_peek.bind hvalue
    | identifier name =>
      exact yields_peek.bind (yields_unsuffixed h he (.inr ⟨rfl, rfl⟩) hsign rest)
    | array elements =>
      exact yields_peek.bind (yields_unsuffixed h he (.inr ⟨rfl, rfl⟩) hsign rest)
    | object properties =>
      exact yields_peek.bind (yields_unsuffixed h he (.inr ⟨rfl, rfl⟩) hsign rest)
    | function definition =>
      obtain ⟨name, parameters, body⟩ := definition
      exact yields_peek.bind (yields_unsuffixed h he (.inr ⟨rfl, rfl⟩) hsign rest)
    | member object name =>
      have hobject := (all_member.mp he).2
      rw [Expr.tokens, List.append_assoc]
      exact yields_peek.bind (yields_suffixed h hobject (.member object name) he hsign rest)
    | index object key =>
      have hobject := (all_index.mp he).2.1
      have hindex := yields_suffixed h hobject (.index object key) he hsign rest
      simp only [Expr.tokens, List.append_assoc, List.cons_append] at hindex ⊢
      exact yields_peek.bind hindex
    | call callee arguments =>
      have hcallee := (all_call.mp he).2.1
      have hcall := yields_suffixed h hcallee (.call callee arguments) he hsign rest
      simp only [Expr.tokens, List.append_assoc, List.cons_append] at hcall ⊢
      exact yields_peek.bind hcall
    | unary op operand =>
      have hrest := yields_operand h (all_unary.mp he).2 hsign rest
      rw [Expr.tokens]
      cases op <;> exact yields_peek.bind (yields_advance.bind (hrest.bind (yields_pure _)))
    | update op before target =>
      have hplace : target.isAssignable = true := (all_update.mp he).1.1
      have htarget := (all_update.mp he).2
      cases before with
      | false =>
        rw [Expr.tokens, List.append_assoc]
        exact yields_peek.bind (yields_suffixed h htarget (.update op target) he hsign rest)
      | true =>
        have hbefore := yields_updateBefore h op htarget hplace hsign rest
        rw [Expr.tokens]
        cases op <;> exact yields_peek.bind hbefore
    | _ => cases hform

theorem yields_link (h : YieldsWithin decimal fuel) {level : Nat} {op : Connective}
    (left : Expr) {right : Expr} (hright : right.Writable decimal) (hlevel : level ≤ op.level)
    {sign : Symbol} (hsign : sign.Closes) (rest : List TokenKind) :
    Yields (chain (fuel + 1) level left)
      (.symbol op.sign :: (inParens (right.tokens decimal) ++ .symbol sign :: rest))
      (.symbol sign :: rest) (op.join left right) := by
  refine yields_peek.bind ?_
  simp only [List.head?_cons, Option.bind_some, op.connective?_sign]
  rw [if_neg (Nat.not_lt.mpr hlevel)]
  exact (yields_descend linkCost).bind (yields_advance.bind
    ((h.climb _ right hright _ (.inl rfl) sign (hsign.ends _) rest).bind
      (yields_chain_stop (hsign.ends level).chain _)))

/-- Where no sign of an assignment follows, what was read is all there is. -/
theorem yields_assignmentTo {before : List TokenKind} {target : Parse Expr} {e : Expr}
    {sign : Symbol} (hsign : sign.Closes) {rest : List TokenKind}
    (htarget : Yields target before (.symbol sign :: rest) e) :
    Yields (assignmentTo target (assignment fuel)) before (.symbol sign :: rest) e := by
  refine htarget.bind (yields_peek.bind ?_)
  simp only [List.head?_cons, Option.bind_some, hsign.assignment]
  exact yields_pure e

/-- An expression that is neither conditional nor an assignment. -/
theorem yields_climbed {before : List TokenKind} {e : Expr} {sign : Symbol} (hsign : sign.Closes)
    {rest : List TokenKind} (hclimb : Yields (climb fuel loosestLevel) before
      (.symbol sign :: rest) e) :
    Yields (assignment (fuel + 1)) before (.symbol sign :: rest) e := by
  have hquestion : (TokenKind.symbol sign :: rest).head? ≠ some (.symbol .question) := by
    simpa using hsign.question
  exact (yields_assignmentTo hsign
    (hclimb.bind ((yields_atSign_false hquestion).bind (yields_pure e)))).nested

theorem yields_conditional (h : YieldsWithin decimal fuel) {test consequent alternate : Expr}
    (htest : test.Writable decimal) (hconsequent : consequent.Writable decimal)
    (halternate : alternate.Writable decimal) {sign : Symbol} (hsign : sign ∈ closers)
    (rest : List TokenKind) :
    Yields (conditional (climb fuel loosestLevel) (assignment fuel))
      (inParens (test.tokens decimal) ++ .symbol .question ::
        (inParens (consequent.tokens decimal) ++ .symbol .colon ::
          (inParens (alternate.tokens decimal) ++ .symbol sign :: rest)))
      (.symbol sign :: rest) (.conditional test consequent alternate) := by
  have hends : Symbol.question.Ends loosestLevel := ⟨rfl, fun _ hop => nomatch hop⟩
  exact (h.climb _ test htest _ (.inl rfl) .question hends _).bind <|
    yields_atSign_true.bind <| yields_advance.bind <|
      (yields_inParens h hconsequent (by decide) _).bind <|
        yields_expectSign.bind <|
          (yields_inParens h halternate hsign rest).bind (yields_pure _)

/-- A target, the sign of an assignment and a value. -/
theorem yields_assign (h : YieldsWithin decimal fuel) (op : AssignOp) {target value : Expr}
    (htarget : target.Writable decimal) (hplace : target.isAssignable = true)
    (hvalue : value.Writable decimal) {sign : Symbol} (hsign : sign ∈ closers)
    (rest : List TokenKind) :
    Yields (assignment (fuel + 1))
      (inParens (target.tokens decimal) ++ .symbol op.sign ::
        (inParens (value.tokens decimal) ++ .symbol sign :: rest))
      (.symbol sign :: rest) (.assign op target value) := by
  have hends : op.sign.Ends loosestLevel ∧ op.sign ≠ .question := by
    cases op <;> exact ⟨⟨rfl, fun _ hop => nomatch hop⟩, by decide⟩
  have hrest : Yields (do return Expr.assign op target (← assignment fuel))
      (inParens (value.tokens decimal) ++ .symbol sign :: rest) (.symbol sign :: rest)
      (.assign op target value) :=
    (yields_inParens h hvalue hsign rest).bind (yields_pure _)
  refine Yields.nested (((h.climb _ target htarget _ (.inl rfl) op.sign hends.1 _).bind
    ((yields_atSign_false ?_).bind (yields_pure target))).bind (yields_peek.bind ?_))
  · simpa using hends.2
  · simp only [List.head?_cons, Option.bind_some, op.assignment?_sign]
    rw [if_pos hplace]
    exact yields_advance.bind hrest

theorem yields_assignment (h : YieldsWithin decimal fuel) {e : Expr} (he : e.Writable decimal)
    {tokens : List TokenKind} (form : tokens ∈ [inParens (e.tokens decimal), e.tokens decimal])
    {sign : Symbol} (hsign : sign ∈ closers) (rest : List TokenKind) :
    Yields (assignment (fuel + 1)) (tokens ++ .symbol sign :: rest) (.symbol sign :: rest) e := by
  have hcloses := Symbol.closes_of_mem hsign
  rcases List.mem_cons.mp form with rfl | hmem
  · exact yields_climbed hcloses (h.climb _ e he _ (.inl rfl) sign (hcloses.ends _) rest)
  obtain rfl := List.mem_singleton.mp hmem
  by_cases hoperand : e.isOperand = true
  · have hclimb := h.climb loosestLevel e he _ (.inr ⟨hoperand, rfl⟩) sign (hcloses.ends _) rest
    exact yields_climbed hcloses hclimb
  cases e with
  | binary op left right =>
    obtain ⟨-, hleft, hright⟩ := all_binary.mp he
    rw [Expr.tokens, List.append_assoc]
    exact yields_climbed hcloses (h.join (.binary op) left right hleft hright sign hcloses rest)
  | logical op left right =>
    obtain ⟨-, hleft, hright⟩ := all_logical.mp he
    rw [Expr.tokens, List.append_assoc]
    exact yields_climbed hcloses (h.join (.logical op) left right hleft hright sign hcloses rest)
  | conditional test consequent alternate =>
    obtain ⟨-, htest, hconsequent, halternate⟩ := all_conditional.mp he
    have hconditional := yields_conditional h htest hconsequent halternate hsign rest
    simp only [Expr.tokens, List.append_assoc, List.cons_append]
    exact (yields_assignmentTo hcloses hconditional).nested
  | assign op target value =>
    obtain ⟨-, htarget, hvalue⟩ := all_assign.mp he
    rw [Expr.tokens, List.append_assoc]
    exact yields_assign h op htarget (all_assign.mp he).1.1 hvalue hsign rest
  | _ => exact absurd rfl hoperand

/-! ### Statements -/

theorem yields_expressionStatement (h : YieldsWithin decimal fuel) {e : Expr}
    (he : e.Writable decimal) (rest : List TokenKind) :
    Yields (expressionStatement (assignment fuel))
      (inParens (e.tokens decimal) ++ .symbol .semicolon :: rest) rest (.expression e) :=
  (yields_inParens h he (by decide) rest).bind (yields_endStatement.bind (yields_pure _))

theorem yields_wordStatement (word : Keyword) (result : Stmt) (rest : List TokenKind) :
    Yields (wordStatement result) (.keyword word :: .symbol .semicolon :: rest) rest result :=
  yields_advance.bind (yields_endStatement.bind (yields_pure result))

theorem yields_functionStatement (h : YieldsWithin decimal fuel) {definition : FunctionDef}
    (hname : definition.name.isSome = true) (hbody : ∀ s ∈ definition.body, s.Writable decimal)
    (suffixes : Expr → Parse Expr) (rest : List TokenKind) :
    Yields (functionStatement (statement fuel) suffixes) (definition.tokens decimal ++ rest) rest
      (.function definition) := by
  refine (yields_functionDef rest h hbody).bind ?_
  rw [if_pos hname]
  exact yields_pure _

theorem yields_returnStatement (h : YieldsWithin decimal fuel) {value : Option Expr}
    (hvalue : ∀ e ∈ value, e.Writable decimal) (rest : List TokenKind) :
    Yields (returnStatement (assignment fuel))
      (.keyword .ret :: (tokensOfOption decimal value ++ .symbol .semicolon :: rest)) rest
      (.ret value) := by
  have hend : Yields (do endStatement; return Stmt.ret value) (.symbol .semicolon :: rest) rest
      (.ret value) := yields_endStatement.bind (yields_pure _)
  refine yields_advance.bind ?_
  cases value with
  | none => exact yields_peek.bind hend
  | some e =>
    have hsome : Yields (some <$> assignment fuel)
        (inParens (e.tokens decimal) ++ .symbol .semicolon :: rest) (.symbol .semicolon :: rest)
        (some e) := by
      rw [map_eq_pure_bind]
      exact (yields_inParens h (hvalue e rfl) (by decide) rest).bind (yields_pure _)
    exact yields_peek.bind (yields_newlineBefore.bind (hsome.bind hend))

/-- The second branch is there if and only if the word for it is, when what follows is not taken for
it. -/
theorem yields_ifStatement (h : YieldsWithin decimal fuel) {test : Expr} {consequent : Stmt}
    {alternate : Option Stmt} (hs : (Stmt.ifElse test consequent alternate).Writable decimal)
    {rest : List TokenKind} (apart : (Stmt.ifElse test consequent alternate).endsOpen = true →
      rest.head? ≠ some (.keyword .elseWord)) :
    Yields (ifStatement (assignment fuel) (statement fuel))
      (.keyword .ifWord :: (inParens (test.tokens decimal) ++
        (consequent.tokens decimal ++ (tokensOfElse decimal alternate ++ rest)))) rest
      (.ifElse test consequent alternate) := by
  obtain ⟨hlawful, htest, hconsequent, halternate⟩ := Stmt.all_ifElse.mp hs
  refine yields_advance.bind ((yields_parenthesized h htest _).bind ?_)
  cases alternate with
  | none =>
    have hnext : rest.head? ≠ some (.keyword .elseWord) := apart rfl
    have hat := yields_atWord rest .elseWord
    rw [beq_eq_false_iff_ne.mpr hnext] at hat
    exact (h.statement consequent hconsequent rest fun _ => hnext).bind
      (hat.bind (yields_pure _))
  | some alternate =>
    have hclosed : consequent.endsOpen = false := hlawful
    refine (h.statement consequent hconsequent _ fun hopen => ?_).bind
      ((yields_atWord _ .elseWord).bind (yields_advance.bind
        ((h.statement alternate (halternate alternate rfl) rest apart).bind (yields_pure _))))
    rw [hclosed] at hopen
    cases hopen

theorem yields_forStart (h : YieldsWithin decimal fuel) {start : Option Stmt}
    (hstart : ∀ s ∈ start, s.Writable decimal ∧ s.isStart = true) (rest : List TokenKind) :
    Yields (forStart (assignment fuel)) (tokensOfStart decimal start ++ rest)
      (.symbol .semicolon :: rest) start := by
  cases start with
  | none => exact yields_peek.bind (yields_pure none)
  | some s =>
    obtain ⟨hs, hform⟩ := hstart s rfl
    cases s with
    | expression e =>
      have hvalue := yields_inParens h (Stmt.all_expression.mp hs).2
        (by decide : .semicolon ∈ closers) rest
      simp only [tokensOfStart, Stmt.tokens, List.append_assoc, List.cons_append, List.nil_append]
      exact yields_peek.bind (hvalue.bind (yields_pure _))
    | declaration declarators =>
      obtain ⟨⟨nonempty, -⟩, hinitial⟩ := Stmt.all_declaration.mp hs
      have hdeclaration := yields_declarators rest h nonempty hinitial
      simp only [tokensOfStart, Stmt.tokens, List.append_assoc, List.cons_append,
        List.nil_append] at hdeclaration ⊢
      exact yields_peek.bind (hdeclaration.bind (yields_pure _))
    | _ => cases hform

theorem yields_optionalBefore (h : YieldsWithin decimal fuel) {e : Option Expr}
    (he : ∀ inner ∈ e, inner.Writable decimal) {sign : Symbol} (hsign : sign ∈ closers)
    (rest : List TokenKind) :
    Yields (optionalBefore sign (assignment fuel))
      (tokensOfOption decimal e ++ .symbol sign :: rest) (.symbol sign :: rest) e := by
  cases e with
  | none => exact yields_atSign_true.bind (yields_pure none)
  | some e =>
    have hopen : sign ≠ .openParen := by
      rintro rfl
      exact absurd hsign (by decide)
    refine (yields_atSign_false ?_).bind
      ((yields_inParens h (he e rfl) hsign rest).bind (yields_pure _))
    simpa [tokensOfOption, inParens] using hopen.symm

theorem yields_forStatement (h : YieldsWithin decimal fuel) {start : Option Stmt}
    {test step : Option Expr} {body : Stmt}
    (hs : (Stmt.forLoop start test step body).Writable decimal) {rest : List TokenKind}
    (apart : body.endsOpen = true → rest.head? ≠ some (.keyword .elseWord)) :
    Yields (forStatement (assignment fuel) (statement fuel))
      (.keyword .forWord :: .symbol .openParen :: (tokensOfStart decimal start ++
        (tokensOfOption decimal test ++ .symbol .semicolon :: (tokensOfOption decimal step ++
          .symbol .closeParen :: (body.tokens decimal ++ rest))))) rest
      (.forLoop start test step body) := by
  obtain ⟨hlawful, hstart, htest, hstep, hbody⟩ := Stmt.all_forLoop.mp hs
  have hforms : ∀ s ∈ start, s.Writable decimal ∧ s.isStart = true := by
    rintro s ⟨⟩
    exact ⟨hstart s rfl, hlawful⟩
  exact yields_advance.bind <| yields_expectSign.bind <| (yields_forStart h hforms _).bind <|
    yields_expectSign.bind <| (yields_optionalBefore h htest (by decide) _).bind <|
      yields_expectSign.bind <| (yields_optionalBefore h hstep (by decide) _).bind <|
        yields_expectSign.bind <| (h.statement body hbody rest apart).bind (yields_pure _)

theorem yields_statement (h : YieldsWithin decimal fuel) {s : Stmt} (hs : s.Writable decimal)
    {rest : List TokenKind} (apart : s.endsOpen = true → rest.head? ≠ some (.keyword .elseWord)) :
    Yields (statement (fuel + 1)) (s.tokens decimal ++ rest) rest s := by
  refine Yields.nested ?_
  cases s with
  | expression value =>
    have hvalue := yields_expressionStatement h (Stmt.all_expression.mp hs).2 rest
    simp only [Stmt.tokens, List.append_assoc, List.cons_append, List.nil_append]
    exact yields_peek.bind hvalue
  | declaration declarators =>
    obtain ⟨⟨nonempty, -⟩, hinitial⟩ := Stmt.all_declaration.mp hs
    have hdeclaration : Yields (declarationStatement (assignment fuel))
        (.keyword .varWord :: commaSeparated (tokensOfDeclarators decimal declarators) ++
          .symbol .semicolon :: rest) rest (.declaration declarators) :=
      (yields_declarators _ h nonempty hinitial).bind (yields_endStatement.bind (yields_pure _))
    simp only [Stmt.tokens, List.append_assoc, List.cons_append,
      List.nil_append] at hdeclaration ⊢
    exact yields_peek.bind hdeclaration
  | function definition =>
    obtain ⟨name, parameters, body⟩ := definition
    obtain ⟨⟨hname, -⟩, hbody⟩ := Stmt.all_function.mp hs
    have hbody : ∀ s ∈ (FunctionDef.mk name parameters body).body, s.Writable decimal :=
      FunctionDef.all_mk.mp hbody
    exact yields_peek.bind (yields_functionStatement h hname hbody _ rest)
  | ret value =>
    have hreturn := yields_returnStatement h (Stmt.all_ret.mp hs).2 rest
    simp only [Stmt.tokens, List.append_assoc, List.cons_append, List.nil_append]
    exact yields_peek.bind hreturn
  | ifElse test consequent alternate =>
    have hif := yields_ifStatement h hs apart
    simp only [Stmt.tokens, List.append_assoc, List.cons_append]
    exact yields_peek.bind hif
  | whileLoop test body =>
    obtain ⟨-, htest, hbody⟩ := Stmt.all_whileLoop.mp hs
    have hwhile : Yields (whileStatement (assignment fuel) (statement fuel))
        (.keyword .whileWord :: (inParens (test.tokens decimal) ++ (body.tokens decimal ++ rest)))
        rest (.whileLoop test body) :=
      yields_advance.bind ((yields_parenthesized h htest _).bind
        ((h.statement body hbody rest apart).bind (yields_pure _)))
    simp only [Stmt.tokens, List.append_assoc, List.cons_append]
    exact yields_peek.bind hwhile
  | forLoop start test step body =>
    have hfor := yields_forStatement h hs apart
    simp only [Stmt.tokens, List.append_assoc, List.cons_append]
    exact yields_peek.bind hfor
  | block body =>
    have hblock := yields_body rest h (Stmt.all_block.mp hs).2
    simp only [Stmt.tokens, List.append_assoc, List.cons_append, List.nil_append] at hblock ⊢
    exact yields_peek.bind (hblock.bind (yields_pure _))
  | breakLoop => exact yields_peek.bind (yields_wordStatement .breakWord .breakLoop rest)
  | continueLoop => exact yields_peek.bind (yields_wordStatement .continueWord .continueLoop rest)
  | empty => exact yields_peek.bind (yields_taken Stmt.empty)

/-- **Every construct of the grammar reads canonical tokens as what they write,** or finds no
room. -/
theorem yields_recursion (decimal : Float → String) (fuel : Nat) : YieldsWithin decimal fuel := by
  induction fuel with
  | zero =>
    exact ⟨fun _ _ _ _ => yields_tooDeep, fun _ _ _ _ _ _ _ => yields_tooDeep,
      fun _ _ _ _ _ _ _ _ => yields_tooDeep, fun _ _ _ _ _ _ _ _ => yields_tooDeep,
      fun _ _ _ _ _ _ _ _ _ => yields_tooDeep, fun _ _ _ _ _ _ _ => yields_tooDeep,
      fun _ _ _ _ _ _ _ _ => yields_tooDeep, fun _ _ _ _ _ => yields_tooDeep⟩
  | succ fuel ih =>
    refine ⟨fun s hs rest apart => yields_statement ih hs apart,
      fun e he tokens form sign hsign rest => yields_assignment ih he form hsign rest,
      fun level e he tokens form sign hsign rest => ?_,
      fun op left right hleft hright sign hsign rest => ?_,
      fun level op left right hright hlevel sign hsign rest =>
        yields_link ih left hright hlevel hsign rest,
      fun e he tokens form sign hsign rest => yields_unary ih he form hsign rest,
      fun object tokens e form he sign hsign rest => yields_suffixes ih form he hsign rest,
      fun e he tokens form rest => yields_primary ih he form rest⟩
    · exact ((ih.unary e he tokens form sign hsign.suffix rest).bind
        (yields_chain_stop hsign.chain e)).restoring
    · have hlevel : loosestLevel ≤ op.level := by
        rcases op with op | op <;> cases op <;> decide
      exact ((ih.unary left hleft _ (.inl rfl) op.sign op.opensSuffix_sign _).bind
        (ih.link loosestLevel op left right hright hlevel sign hsign rest)).restoring

end Recursion

end Source

open Source

/-! ## Programs -/

section Programs

variable {decimal : Float → String}

theorem Program.writable {program : Program} (lawful : program.Lawful)
    (reads : ∀ x, .literal (.number x) ∈ program.expressions → ReadsAs (decimal x) x) :
    ∀ s ∈ program.body, s.Writable decimal := by
  refine Program.all_iff.mp ⟨fun e he => ⟨lawful.1 e he, ?_⟩, fun s hs => (lawful.2 s hs).1⟩
  cases e with
  | literal value =>
    cases value with
    | number x => exact reads x he
    | _ => trivial
  | _ => trivial

/-- **A program that is read from a text is read from its canonical text again,** unless that is
nested too deep. The numbers of the program must be written as texts that are read as them. -/
theorem Program.parse_canonical {text : String} {program : Program}
    (accepts : Program.parse text = .ok program)
    (reads : ∀ x, .literal (.number x) ∈ program.expressions → ReadsAs (decimal x) x) :
    Program.parse (program.canonical decimal) = .ok program ∨
      ∃ position, Program.parse (program.canonical decimal) =
        .error (.nestingTooDeep nestingLimit position) := by
  have hbody := Program.writable (lawful_of_parse accepts) reads
  have hspelled : Spelled (program.tokens decimal) := spelled_body program.body hbody
  have hstandalone : ∀ aspect ∈ (program.tokens decimal).map fun kind => (kind, false),
      aspect.1.Standalone := List.forall_mem_map.mpr hspelled
  obtain ⟨haspects, hcomplete⟩ := tokenize_spaced hstandalone
  have hyields : Yields (statementsWithin (statement recursionFuel)
      ((program.tokens decimal).length + 1)) (program.tokens decimal) [] program.body := by
    unfold Program.tokens
    rw [tokensOfBody_eq]
    have hlength : program.body.length ≤ (program.body.flatMap (Stmt.tokens decimal)).length :=
      length_le_flatMap fun s _ => (startsApart_stmt decimal s).length_pos
    refine yields_statementsWithin (fun s _ => ?_) (fun s hs rest hrest => ?_) (by omega)
    · obtain ⟨kind, rest, htokens, hkind⟩ := startsApart_stmt decimal s
      exact ⟨kind, rest, htokens, fun hmem => hkind (List.mem_cons_of_mem _ hmem)⟩
    · exact (yields_recursion decimal recursionFuel).statement s (hbody s hs) rest fun _ => hrest
  unfold Program.parse Program.canonical
  rw [String.toList_ofList]
  generalize tokenize (spaced ((program.tokens decimal).map fun kind => (kind, false))) = lexed at *
  have hbefore : Cursor.Before (program.tokens decimal) ⟨lexed.tokens, lexed.ending, 0⟩ :=
    ⟨haspects, hcomplete.fault?⟩
  have hstep := hyields _ hbefore
  rw [← hbefore.length] at hstep
  rw [program_eq lexed (.inr hcomplete.fault?)]
  generalize statementsWithin (statement recursionFuel) (lexed.tokens.length + 1)
    ⟨lexed.tokens, lexed.ending, 0⟩ = result at *
  cases hstep with
  | ok _ => exact .inl rfl
  | tooDeep position _ => exact .inr ⟨position, rfl⟩

/-- The double that `1` is read as. -/
def unitNumber : Float := (Number.Numeral.mk ['1'] none none).value

/-- The program of one sum. -/
def sumProgram : Program where
  body := [.expression (.binary .add (.identifier "a") (.literal (.number unitNumber)))]

theorem parse_canonical_sum :
    Program.parse "a+1" = .ok sumProgram ∧
      (∀ x, .literal (.number x) ∈ sumProgram.expressions → ReadsAs "1" x) ∧
      sumProgram.canonical (fun _ => "1") = "( ( a ) + ( 1 ) ) ;" ∧
      Program.parse "( ( a ) + ( 1 ) ) ;" = .ok sumProgram := by
  have lexed : tokenize "a+1".toList =
      ⟨[⟨.identifier "a", 0, 1, false⟩, ⟨.symbol .plus, 1, 2, false⟩, ⟨.number "1", 2, 3, false⟩],
        .complete 3 false⟩ := by decide +kernel
  have accepts : Program.parse "a+1" = .ok sumProgram := by
    rw [Program.parse, lexed]
    rfl
  have reads : ∀ x, .literal (.number x) ∈ sumProgram.expressions → ReadsAs "1" x := by
    intro x hx
    obtain rfl : x = unitNumber := by
      simpa [sumProgram, Program.expressions, expressionsOfBody] using hx
    exact ⟨_, rfl, rfl⟩
  have written : sumProgram.canonical (fun _ => "1") = "( ( a ) + ( 1 ) ) ;" := by decide +kernel
  have parsed : (Program.parse "( ( a ) + ( 1 ) ) ;").isOk = true := by decide +kernel
  refine ⟨accepts, reads, written, ?_⟩
  rw [← written] at parsed ⊢
  obtain h | ⟨position, h⟩ := Program.parse_canonical accepts reads
  · exact h
  · rw [h] at parsed
    cases parsed

-- The `else` stays with the inner condition, and the keyword behind the dot stays a property.
example :
    (Program.parse "if (a) if (b) c.if = 1; else !\x7bk: '\\n'\x7d").toOption.map
        (·.canonical fun _ => "1") =
      some ("if ( a ) if ( b ) ( ( ( c ) . if ) = ( 1 ) ) ; " ++
        "else ( ! ( \x7b 'k' : ( '\\n' ) \x7d ) ) ;") := by
  decide +kernel

end Programs

end Formulary
