import Formulary.Proofs.Source.Building
import Formulary.Proofs.Source.Escape

/-!
# The canonical text of a program

* `Expr.tokens`, `Stmt.tokens`, `Program.tokens` : tokens that write a program, every statement with
  its end and every expression inside another one between parentheses;
* `Program.canonical` : their lexemes with spaces between them;
* `spelled_expr`, `spelled_stmt` : they are tokens of a text, when the numbers are read as themselves.

How a number is written is left open: `decimal` is the text of one.
-/

namespace Formulary

open Source

/-! ## Signs and words -/

/-- The sign of an operator between operands. -/
def Source.Connective.sign : Connective → Symbol
  | .binary .add => .plus
  | .binary .subtract => .minus
  | .binary .multiply => .times
  | .binary .divide => .slash
  | .binary .modulo => .percent
  | .binary .equal => .equal
  | .binary .notEqual => .notEqual
  | .binary .strictEqual => .strictEqual
  | .binary .strictNotEqual => .strictNotEqual
  | .binary .less => .less
  | .binary .lessEqual => .lessEqual
  | .binary .greater => .greater
  | .binary .greaterEqual => .greaterEqual
  | .logical .and => .and
  | .logical .or => .or

theorem Source.Connective.connective?_sign (op : Connective) : op.sign.connective? = some op := by
  rcases op with op | op <;> cases op <;> rfl

/-- The sign of an assignment. -/
def AssignOp.sign : AssignOp → Symbol
  | set => .assign
  | add => .plusAssign
  | subtract => .minusAssign
  | multiply => .timesAssign
  | divide => .slashAssign
  | modulo => .percentAssign

theorem AssignOp.assignment?_sign (op : AssignOp) : op.sign.assignment? = some op := by
  cases op <;> rfl

/-- The token of an operator before its operand. -/
def UnaryOp.token : UnaryOp → TokenKind
  | not => .symbol .not
  | minus => .symbol .minus
  | plus => .symbol .plus
  | typeOf => .keyword .typeOf

/-- The sign of a step by one. -/
def UpdateOp.sign : UpdateOp → Symbol
  | increment => .increment
  | decrement => .decrement

/-- A string with the sequences for what cannot stand in it. -/
def stringToken (s : String) : TokenKind :=
  .string '\'' (String.ofList (Escape.encode '\'' s.toList))

/-- The token of a value written out. -/
def Literal.token (decimal : Float → String) : Literal → TokenKind
  | number x => .number (decimal x)
  | string s => stringToken s
  | boolean true => .keyword .trueWord
  | boolean false => .keyword .falseWord
  | null => .keyword .null
  | undefined => .keyword .undefined

/-! ## Tokens of programs -/

/-- Tokens between parentheses. -/
def inParens (tokens : List TokenKind) : List TokenKind :=
  .symbol .openParen :: tokens ++ [.symbol .closeParen]

/-- Parts with commas between them. -/
def commaSeparated : List (List TokenKind) → List TokenKind
  | [] => []
  | [part] => part
  | part :: next :: rest => part ++ .symbol .comma :: commaSeparated (next :: rest)

section Tokens

variable (decimal : Float → String)

mutual

/-- Tokens that write an expression. -/
def Expr.tokens : Expr → List TokenKind
  | .literal value => [value.token decimal]
  | .identifier name => [.identifier name]
  | .array elements =>
    .symbol .openBracket :: commaSeparated (tokensOfAll elements) ++ [.symbol .closeBracket]
  | .object properties =>
    .symbol .openBrace :: commaSeparated (tokensOfProperties properties) ++ [.symbol .closeBrace]
  | .member object name => inParens object.tokens ++ [.symbol .dot, nameToken name]
  | .index object key =>
    inParens object.tokens ++ .symbol .openBracket :: inParens key.tokens ++ [.symbol .closeBracket]
  | .call callee arguments =>
    inParens callee.tokens ++ .symbol .openParen :: commaSeparated (tokensOfAll arguments) ++
      [.symbol .closeParen]
  | .unary op operand => op.token :: inParens operand.tokens
  | .binary op left right =>
    inParens left.tokens ++ .symbol (Connective.binary op).sign :: inParens right.tokens
  | .logical op left right =>
    inParens left.tokens ++ .symbol (Connective.logical op).sign :: inParens right.tokens
  | .conditional test consequent alternate =>
    inParens test.tokens ++ .symbol .question :: inParens consequent.tokens ++
      .symbol .colon :: inParens alternate.tokens
  | .assign op target value =>
    inParens target.tokens ++ .symbol op.sign :: inParens value.tokens
  | .update op true target => .symbol op.sign :: inParens target.tokens
  | .update op false target => inParens target.tokens ++ [.symbol op.sign]
  | .function definition => definition.tokens

/-- The tokens of each of some expressions. -/
def tokensOfAll : List Expr → List (List TokenKind)
  | [] => []
  | e :: rest => inParens e.tokens :: tokensOfAll rest

/-- The tokens of each of some properties, with strings as keys. -/
def tokensOfProperties : List (String × Expr) → List (List TokenKind)
  | [] => []
  | (key, value) :: rest =>
    (stringToken key :: .symbol .colon :: inParens value.tokens) :: tokensOfProperties rest

/-- The tokens of an optional expression. -/
def tokensOfOption : Option Expr → List TokenKind
  | some e => inParens e.tokens
  | none => []

/-- The tokens of an initial value. -/
def tokensOfInitial : Option Expr → List TokenKind
  | some e => .symbol .assign :: inParens e.tokens
  | none => []

/-- The tokens of each of some declarators. -/
def tokensOfDeclarators : List (String × Option Expr) → List (List TokenKind)
  | [] => []
  | (name, initial) :: rest =>
    (.identifier name :: tokensOfInitial initial) :: tokensOfDeclarators rest

/-- Tokens that write a statement. -/
def Stmt.tokens : Stmt → List TokenKind
  | .expression value => inParens value.tokens ++ [.symbol .semicolon]
  | .declaration declarators =>
    .keyword .varWord :: commaSeparated (tokensOfDeclarators declarators) ++ [.symbol .semicolon]
  | .function definition => definition.tokens
  | .ret value => .keyword .ret :: tokensOfOption value ++ [.symbol .semicolon]
  | .ifElse test consequent alternate =>
    .keyword .ifWord :: inParens test.tokens ++ consequent.tokens ++ tokensOfElse alternate
  | .whileLoop test body => .keyword .whileWord :: inParens test.tokens ++ body.tokens
  | .forLoop start test step body =>
    .keyword .forWord :: .symbol .openParen :: tokensOfStart start ++ tokensOfOption test ++
      .symbol .semicolon :: tokensOfOption step ++ .symbol .closeParen :: body.tokens
  | .block body => .symbol .openBrace :: tokensOfBody body ++ [.symbol .closeBrace]
  | .breakLoop => [.keyword .breakWord, .symbol .semicolon]
  | .continueLoop => [.keyword .continueWord, .symbol .semicolon]
  | .empty => [.symbol .semicolon]

/-- The tokens of the second branch of a condition. -/
def tokensOfElse : Option Stmt → List TokenKind
  | some s => .keyword .elseWord :: s.tokens
  | none => []

/-- The tokens of what a `for` loop begins with; a statement there brings its semicolon. -/
def tokensOfStart : Option Stmt → List TokenKind
  | some s => s.tokens
  | none => [.symbol .semicolon]

/-- The tokens of statements on end. -/
def tokensOfBody : List Stmt → List TokenKind
  | [] => []
  | s :: rest => s.tokens ++ tokensOfBody rest

/-- Tokens that write a function. -/
def FunctionDef.tokens : FunctionDef → List TokenKind
  | .mk name parameters body =>
    .keyword .function :: name.toList.map TokenKind.identifier ++ .symbol .openParen ::
      commaSeparated (parameters.map fun name => [.identifier name]) ++
        .symbol .closeParen :: .symbol .openBrace :: tokensOfBody body ++ [.symbol .closeBrace]

end

/-- Tokens that write a program. -/
def Program.tokens (program : Program) : List TokenKind :=
  tokensOfBody decimal program.body

/-- The text of a program with every statement terminated, every expression inside another one
between parentheses, strings with their sequences, and numbers as `decimal` writes them. -/
def Program.canonical (program : Program) : String :=
  String.ofList (spaced ((program.tokens decimal).map fun kind => (kind, false)))

end Tokens

attribute [simp] Expr.tokens Stmt.tokens FunctionDef.tokens

/-! ## Strings -/

theorem standalone_stringToken (s : String) : (stringToken s).Standalone :=
  standalone_string (.inl rfl) (scanQuoted_encode (.inl rfl) s.toList)

/-! ## Numbers -/

/-- Whether a text is read as a number. -/
def ReadsAs (text : String) (x : Float) : Prop :=
  ∃ numeral, Number.Numeral.ofText? text.toList = some numeral ∧ numeral.value = x

/-- A text that is a numeral is the token of one. -/
theorem ReadsAs.standalone {text : String} {x : Float} (h : ReadsAs text x) :
    (TokenKind.number text).Standalone := by
  obtain ⟨numeral, hnumeral, -⟩ := h
  obtain ⟨htext, written, hdigit⟩ := Number.Numeral.ofText?_eq_some_iff.mp hnumeral
  have heq : text = String.ofList numeral.chars := by rw [← htext, String.ofList_toList]
  rw [heq]
  exact standalone_number written hdigit

/-! ## The tokens stand for themselves -/

/-- Whether a number in an expression, apart from those inside it, is written as a text that is read
as the number. -/
def Expr.Legible (decimal : Float → String) : Expr → Prop
  | .literal (.number x) => ReadsAs (decimal x) x
  | _ => True

/-- Whether an expression is lawful and its numbers are read as themselves. -/
abbrev Expr.Writable (decimal : Float → String) (e : Expr) : Prop :=
  e.All (fun inner => inner.Lawful ∧ inner.Legible decimal) Stmt.Lawful

/-- Whether a statement is lawful and its numbers are read as themselves. -/
abbrev Stmt.Writable (decimal : Float → String) (s : Stmt) : Prop :=
  s.All (fun inner => inner.Lawful ∧ inner.Legible decimal) Stmt.Lawful

/-- Whether tokens stand for themselves. -/
def Spelled (tokens : List TokenKind) : Prop :=
  ∀ kind ∈ tokens, kind.Standalone

section Spelled

variable {tokens rest : List TokenKind} {kind : TokenKind} {parts : List (List TokenKind)}

@[simp]
theorem spelled_nil : Spelled [] := fun _ h => nomatch h

@[simp]
theorem spelled_cons : Spelled (kind :: rest) ↔ kind.Standalone ∧ Spelled rest :=
  List.forall_mem_cons

@[simp]
theorem spelled_append : Spelled (tokens ++ rest) ↔ Spelled tokens ∧ Spelled rest :=
  List.forall_mem_append

@[simp]
theorem standalone_keyword (word : Keyword) : (TokenKind.keyword word).Standalone := by
  have htoken : nameToken word.text = .keyword word := by cases word <;> decide
  exact htoken ▸ standalone_name (isWord_keyword word)

@[simp]
theorem spelled_inParens : Spelled (inParens tokens) ↔ Spelled tokens := by
  simp [inParens]

theorem spelled_commaSeparated (h : ∀ part ∈ parts, Spelled part) :
    Spelled (commaSeparated parts) := by
  fun_induction commaSeparated parts with
  | case1 => exact spelled_nil
  | case2 part => exact h part List.mem_cons_self
  | case3 part next rest ih =>
    obtain ⟨hpart, hrest⟩ := List.forall_mem_cons.mp h
    simpa using ⟨hpart, ih hrest⟩

theorem spelled_names {names : List String} (h : ∀ name ∈ names, IsName name) :
    Spelled (names.map TokenKind.identifier) :=
  List.forall_mem_map.mpr fun name hname => (h name hname).standalone

theorem UnaryOp.standalone_token (op : UnaryOp) : op.token.Standalone := by
  cases op <;> simp [UnaryOp.token]

end Spelled

section Standalone

variable {decimal : Float → String}

theorem spelled_literal {value : Literal} (h : (Expr.literal value).Writable decimal) :
    (value.token decimal).Standalone := by
  obtain ⟨-, hlegible⟩ := all_literal.mp h
  cases value with
  | number x => exact ReadsAs.standalone hlegible
  | string s => exact standalone_stringToken s
  | boolean b => cases b <;> exact standalone_keyword _
  | null => exact standalone_keyword _
  | undefined => exact standalone_keyword _

mutual

theorem spelled_expr (e : Expr) (h : e.Writable decimal) : Spelled (e.tokens decimal) := by
  cases e with
  | literal value => simpa using spelled_literal h
  | identifier name => simpa using (all_identifier.mp h).1.standalone
  | array elements =>
    simpa using spelled_commaSeparated (spelled_all elements (all_array.mp h).2)
  | object properties =>
    simpa using spelled_commaSeparated (spelled_properties properties (all_object.mp h).2)
  | member object name =>
    obtain ⟨⟨hname, -⟩, hobject⟩ := all_member.mp h
    simpa using ⟨spelled_expr object hobject, standalone_name hname⟩
  | index object key =>
    obtain ⟨-, hobject, hkey⟩ := all_index.mp h
    simpa using ⟨spelled_expr object hobject, spelled_expr key hkey⟩
  | call callee arguments =>
    obtain ⟨-, hcallee, harguments⟩ := all_call.mp h
    simpa using ⟨spelled_expr callee hcallee,
      spelled_commaSeparated (spelled_all arguments harguments)⟩
  | unary op operand =>
    simpa using ⟨op.standalone_token, spelled_expr operand (all_unary.mp h).2⟩
  | binary op left right =>
    obtain ⟨-, hleft, hright⟩ := all_binary.mp h
    simpa using ⟨spelled_expr left hleft, spelled_expr right hright⟩
  | logical op left right =>
    obtain ⟨-, hleft, hright⟩ := all_logical.mp h
    simpa using ⟨spelled_expr left hleft, spelled_expr right hright⟩
  | conditional test consequent alternate =>
    obtain ⟨-, htest, hconsequent, halternate⟩ := all_conditional.mp h
    simpa using ⟨spelled_expr test htest, spelled_expr consequent hconsequent,
      spelled_expr alternate halternate⟩
  | assign op target value =>
    obtain ⟨-, htarget, hvalue⟩ := all_assign.mp h
    simpa using ⟨spelled_expr target htarget, spelled_expr value hvalue⟩
  | update op before target =>
    have htarget := spelled_expr target (all_update.mp h).2
    cases before <;> simpa using htarget
  | function definition =>
    obtain ⟨⟨hnamed, -⟩, hbody⟩ := all_function.mp h
    simpa using spelled_function definition hnamed hbody

theorem spelled_all (elements : List Expr) (h : ∀ e ∈ elements, e.Writable decimal) :
    ∀ part ∈ tokensOfAll decimal elements, Spelled part := by
  cases elements with
  | nil => exact fun _ hpart => nomatch hpart
  | cons e rest =>
    obtain ⟨he, hrest⟩ := List.forall_mem_cons.mp h
    exact List.forall_mem_cons.mpr ⟨by simpa using spelled_expr e he, spelled_all rest hrest⟩

theorem spelled_properties (properties : List (String × Expr))
    (h : ∀ property ∈ properties, property.2.Writable decimal) :
    ∀ part ∈ tokensOfProperties decimal properties, Spelled part := by
  cases properties with
  | nil => exact fun _ hpart => nomatch hpart
  | cons property rest =>
    obtain ⟨key, value⟩ := property
    obtain ⟨hvalue, hrest⟩ := List.forall_mem_cons.mp h
    refine List.forall_mem_cons.mpr ⟨?_, spelled_properties rest hrest⟩
    simpa using ⟨standalone_stringToken key, spelled_expr value hvalue⟩

theorem spelled_option (e : Option Expr) (h : ∀ inner ∈ e, inner.Writable decimal) :
    Spelled (tokensOfOption decimal e) ∧ Spelled (tokensOfInitial decimal e) := by
  cases e with
  | none => exact ⟨spelled_nil, spelled_nil⟩
  | some e =>
    have he := spelled_expr e (h e rfl)
    exact ⟨by simpa [tokensOfOption] using he, by simpa [tokensOfInitial] using he⟩

theorem spelled_declarators (declarators : List (String × Option Expr))
    (hnames : ∀ declarator ∈ declarators, IsName declarator.1)
    (h : ∀ declarator ∈ declarators, ∀ inner ∈ declarator.2, inner.Writable decimal) :
    ∀ part ∈ tokensOfDeclarators decimal declarators, Spelled part := by
  cases declarators with
  | nil => exact fun _ hpart => nomatch hpart
  | cons declarator rest =>
    obtain ⟨name, initial⟩ := declarator
    obtain ⟨hname, hnames⟩ := List.forall_mem_cons.mp hnames
    obtain ⟨hinitial, hrest⟩ := List.forall_mem_cons.mp h
    refine List.forall_mem_cons.mpr ⟨?_, spelled_declarators rest hnames hrest⟩
    simpa using ⟨hname.standalone, (spelled_option initial hinitial).2⟩

theorem spelled_stmt (s : Stmt) (h : s.Writable decimal) : Spelled (s.tokens decimal) := by
  cases s with
  | expression value => simpa using spelled_expr value (Stmt.all_expression.mp h).2
  | declaration declarators =>
    obtain ⟨⟨-, hnames⟩, hinitial⟩ := Stmt.all_declaration.mp h
    simpa using spelled_commaSeparated (spelled_declarators declarators hnames hinitial)
  | function definition =>
    obtain ⟨⟨-, hnamed⟩, hbody⟩ := Stmt.all_function.mp h
    simpa using spelled_function definition hnamed hbody
  | ret value => simpa using (spelled_option value (Stmt.all_ret.mp h).2).1
  | ifElse test consequent alternate =>
    obtain ⟨-, htest, hconsequent, halternate⟩ := Stmt.all_ifElse.mp h
    simpa using ⟨spelled_expr test htest, spelled_stmt consequent hconsequent,
      (spelled_branch alternate halternate).1⟩
  | whileLoop test body =>
    obtain ⟨-, htest, hbody⟩ := Stmt.all_whileLoop.mp h
    simpa using ⟨spelled_expr test htest, spelled_stmt body hbody⟩
  | forLoop start test step body =>
    obtain ⟨-, hstart, htest, hstep, hbody⟩ := Stmt.all_forLoop.mp h
    simpa using ⟨(spelled_branch start hstart).2, (spelled_option test htest).1,
      (spelled_option step hstep).1, spelled_stmt body hbody⟩
  | block body => simpa using spelled_body body (Stmt.all_block.mp h).2
  | breakLoop => simp
  | continueLoop => simp
  | empty => simp

theorem spelled_branch (s : Option Stmt) (h : ∀ inner ∈ s, inner.Writable decimal) :
    Spelled (tokensOfElse decimal s) ∧ Spelled (tokensOfStart decimal s) := by
  cases s with
  | none => exact ⟨spelled_nil, by simp [tokensOfStart]⟩
  | some s =>
    have hs := spelled_stmt s (h s rfl)
    exact ⟨by simpa [tokensOfElse] using hs, hs⟩

theorem spelled_body (body : List Stmt) (h : ∀ s ∈ body, s.Writable decimal) :
    Spelled (tokensOfBody decimal body) := by
  cases body with
  | nil => exact spelled_nil
  | cons s rest =>
    obtain ⟨hs, hrest⟩ := List.forall_mem_cons.mp h
    exact spelled_append.mpr ⟨spelled_stmt s hs, spelled_body rest hrest⟩

theorem spelled_function (definition : FunctionDef) (hnamed : definition.Named)
    (h : definition.All (fun inner => inner.Lawful ∧ inner.Legible decimal) Stmt.Lawful) :
    Spelled (definition.tokens decimal) := by
  obtain ⟨name, parameters, body⟩ := definition
  obtain ⟨hname, hparameters⟩ := hnamed
  have hparts : ∀ part ∈ parameters.map fun name => [TokenKind.identifier name], Spelled part := by
    refine List.forall_mem_map.mpr fun name hmem => ?_
    simpa using (hparameters name hmem).standalone
  simpa using ⟨spelled_names fun n hn => hname n (Option.mem_toList.mp hn),
    spelled_commaSeparated hparts, spelled_body body (FunctionDef.all_mk.mp h)⟩

end

end Standalone

end Formulary
