import Formulary.Proofs.Source.Appending
import Formulary.Proofs.Source.Canonical
import Formulary.Proofs.Source.Locality

/-!
# Programs on end

* `complete_of_program` : a text that is a program ends without an error;
* `statementsWithin_grown`, `statementsWithin_rebroken` : statements are read the same with more
  rounds, and on a new line;
* `statement_semicolon` : a semicolon is an empty statement;
* `program_joined` : the tokens of two programs with a semicolon between them are a program;
* `Program.parse_joined` : a text, a semicolon on a line of its own, and another text have the
  statements of both, up to empty ones.
-/

namespace Formulary

namespace Source

variable {cursor other after : Cursor} {fuel fuel' steps : Nat} {body : List Stmt}
  {first second joined : Lexed} {p q : Program}

theorem program_eq_ok {lexed : Lexed} :
    program lexed = .ok p ↔ (lexed.tokens = [] → lexed.ending.fault? = none) ∧
      ∃ after, statementsWithin (statement recursionFuel) (lexed.tokens.length + 1)
        ⟨lexed.tokens, lexed.ending, 0⟩ = .ok p.body after := by
  by_cases h : lexed.tokens ≠ [] ∨ lexed.ending.fault? = none
  · rw [program_eq lexed h]
    have hended : lexed.tokens = [] → lexed.ending.fault? = none := fun hnil =>
      h.resolve_left fun hne => hne hnil
    cases statementsWithin (statement recursionFuel) (lexed.tokens.length + 1)
        ⟨lexed.tokens, lexed.ending, 0⟩ with
    | ok body after =>
      obtain ⟨body'⟩ := p
      constructor
      · rintro ⟨⟩
        exact ⟨hended, after, rfl⟩
      · rintro ⟨-, _, ⟨⟩⟩
        rfl
    | error e after =>
      constructor
      · rintro ⟨⟩
      · rintro ⟨-, _, ⟨⟩⟩
  · obtain ⟨tokens, ending⟩ := lexed
    obtain ⟨rfl, hfault⟩ : tokens = [] ∧ ending.fault? ≠ none := by simpa using h
    cases ending with
    | complete => exact absurd rfl hfault
    | failed e => simp [program, Cursor.moveTo, Ending.fault?, bind, Except.bind]

/-- Nothing follows. -/
def noSequel (fault : Option SyntaxError) : Sequel := ⟨[], fault, .inl rfl⟩

/-- A text that is a program ends without an error. -/
theorem complete_of_program (h : program first = .ok p) : first.ending.fault? = none := by
  obtain ⟨hended, after, hrun⟩ := program_eq_ok.mp h
  have followed : Cursor.Followed (noSequel first.ending.fault?)
      ⟨first.tokens, first.ending, 0⟩ ⟨first.tokens, first.ending, 0⟩ :=
    ⟨⟨rfl, rfl, hended, rfl⟩, (List.append_nil _).symm⟩
  obtain ⟨hnil, -, other', left, hjoined, -⟩ :=
    statementsWithin_followed followed (Nat.lt_succ_self _) (Nat.le_refl _) hrun
  cases hjoined with
  | followed h => exact h.complete hnil
  | past _ beside => exact beside.complete hnil

/-- Statements are read the same from tokens of the same kinds with the same line breaks, and with
more rounds. -/
theorem statementsWithin_grown (tokens : other.tokens.map Token.aspect =
      cursor.tokens.map Token.aspect)
    (complete : cursor.ending.fault? = none) (complete' : other.ending.fault? = none)
    (depth : other.depth = cursor.depth) (enough : cursor.tokens.length < fuel)
    (more : fuel ≤ fuel') (h : statementsWithin (statement steps) fuel cursor = .ok body after) :
    ∃ last, statementsWithin (statement steps) fuel' other = .ok body last := by
  have followed : cursor.Followed (noSequel none) other :=
    ⟨⟨complete, complete', fun _ => rfl, depth⟩, tokens.trans (List.append_nil _).symm⟩
  obtain ⟨hnil, -, other', left, hjoined, hleft, hagain⟩ :=
    statementsWithin_followed followed enough more h
  obtain ⟨left, rfl⟩ := Nat.exists_eq_add_one_of_ne_zero (Nat.ne_zero_of_lt hleft)
  have hended : other'.tokens = [] := by
    cases hjoined with
    | followed h =>
      have hlength := h.length
      rw [hnil] at hlength
      exact List.eq_nil_of_length_eq_zero hlength
    | past newline beside ended semicolon => cases semicolon
  have hrun := hagain [] other' (statementsWithin_of_ended _ left hended)
  rw [List.append_nil] at hrun
  exact ⟨other', hrun⟩

/-- Statements are read the same on a new line. -/
theorem statementsWithin_rebroken (newline : Bool)
    (h : statementsWithin (statement steps) fuel cursor = .ok body after) :
    ∃ last, statementsWithin (statement steps) fuel (cursor.rebroken newline) = .ok body last := by
  cases fuel with
  | zero =>
    cases h
    exact ⟨_, rfl⟩
  | succ fuel =>
    by_cases ended : cursor.tokens = []
    · obtain ⟨tokens, ending, depth⟩ := cursor
      cases ended
      exact ⟨after, h⟩
    · have present : (cursor.rebroken newline).tokens ≠ [] := by
        obtain ⟨tokens, ending, depth⟩ := cursor
        obtain ⟨token, rest, rfl⟩ := List.exists_cons_of_ne_nil ended
        exact List.cons_ne_nil _ _
      rw [statementsWithin_of_present _ _ ended] at h
      rw [statementsWithin_of_present _ _ present]
      have hblind : Blind (do
          return (← statement steps) :: (← statementsWithin (statement steps) fuel)) :=
        (opens_recursion steps).statement.blind.bind
      exact ⟨after, hblind cursor body after newline ended h⟩

/-- A semicolon is an empty statement. -/
theorem statement_semicolon (kind : cursor.tokens.head?.map Token.kind = some (.symbol .semicolon))
    (room : cursor.depth + descentCost ≤ nestingLimit) (complete : cursor.ending.fault? = none) :
    statement (steps + 1) cursor = .ok .empty { cursor with tokens := cursor.tokens.tail } := by
  refine restoring_eq_ok.mpr
    ⟨{ cursor with tokens := cursor.tokens.tail, depth := cursor.depth + descentCost }, ?_, rfl⟩
  refine bind_eq_ok.mpr ⟨(), _, descend_eq_ok.mpr ⟨room, rfl⟩, ?_⟩
  have hpeek : peek { cursor with depth := cursor.depth + descentCost } =
      .ok (some (.symbol .semicolon)) { cursor with depth := cursor.depth + descentCost } :=
    congrArg (EStateM.Result.ok · _) kind
  exact bind_eq_ok.mpr ⟨_, _, hpeek,
    bind_eq_ok.mpr ⟨(), _, advance_eq_ok.mpr ⟨fun _ => complete, rfl⟩, rfl⟩⟩

theorem statementsWithin_semicolon
    (kind : cursor.tokens.head?.map Token.kind = some (.symbol .semicolon))
    (room : cursor.depth + descentCost ≤ nestingLimit) (complete : cursor.ending.fault? = none)
    (h : statementsWithin (statement (steps + 1)) fuel
      { cursor with tokens := cursor.tokens.tail } = .ok body after) :
    statementsWithin (statement (steps + 1)) (fuel + 1) cursor = .ok (.empty :: body) after := by
  have present : cursor.tokens ≠ [] := by
    intro hnil
    rw [hnil] at kind
    cases kind
  rw [statementsWithin_of_present _ _ present]
  exact bind_eq_ok.mpr ⟨.empty, _, statement_semicolon kind room complete,
    bind_eq_ok.mpr ⟨body, after, h, rfl⟩⟩

theorem onNewLine_head (aspects : List (TokenKind × Bool)) :
    (onNewLine aspects).head?.map Prod.fst = aspects.head?.map Prod.fst := by
  cases aspects <;> rfl

theorem onNewLine_length (aspects : List (TokenKind × Bool)) :
    (onNewLine aspects).length = aspects.length := by
  cases aspects <;> rfl

theorem Cursor.rebroken_aspects (cursor : Cursor) :
    (cursor.rebroken true).tokens.map Token.aspect =
      onNewLine (cursor.tokens.map Token.aspect) := by
  obtain ⟨tokens, ending, depth⟩ := cursor
  cases tokens <;> rfl

/-- A program does not begin with `else`. -/
theorem head_ne_else (h : program second = .ok q) :
    second.tokens.head?.map Token.kind ≠ some (.keyword .elseWord) := by
  intro hkind
  obtain ⟨-, after, hrun⟩ := program_eq_ok.mp h
  have present : second.tokens ≠ [] := by
    intro hnil
    rw [hnil] at hkind
    cases hkind
  rw [statementsWithin_of_present _ _ present] at hrun
  obtain ⟨first, middle, hfirst, -⟩ := bind_eq_ok.mp hrun
  exact (opens_recursion recursionFuel).statement.refuses _ .elseWord _ first middle hkind hfirst

/-- A program behind a semicolon, on a new line. -/
def Sequel.ofProgram (h : program second = .ok q) : Sequel where
  aspects := (.symbol .semicolon, true) :: onNewLine (second.tokens.map Token.aspect)
  fault := none
  begins := by
    refine .inr ⟨true, _, rfl, ?_⟩
    rw [onNewLine_head]
    simpa [Function.comp_def, Token.aspect] using head_ne_else h

/-- A program is read the same on a new line. -/
theorem statementsWithin_onNewLine (h : program second = .ok q)
    (tokens : cursor.tokens.map Token.aspect = onNewLine (second.tokens.map Token.aspect))
    (complete : cursor.ending.fault? = none) (depth : cursor.depth = 0)
    (enough : second.tokens.length < fuel) :
    ∃ last, statementsWithin (statement recursionFuel) fuel cursor = .ok q.body last := by
  obtain ⟨-, after, hrun⟩ := program_eq_ok.mp h
  obtain ⟨last, hlast⟩ := statementsWithin_rebroken true hrun
  have haspects := Cursor.rebroken_aspects ⟨second.tokens, second.ending, 0⟩
  refine statementsWithin_grown (tokens.trans haspects.symm) ?_ complete ?_ ?_ enough hlast
  · rw [Cursor.rebroken_ending]
    exact complete_of_program h
  · rw [Cursor.rebroken_depth, depth]
  · have hlength := congrArg List.length haspects
    rw [onNewLine_length, List.length_map, List.length_map] at hlength
    exact Nat.lt_succ_of_le (Nat.le_of_eq hlength)

/-- **The tokens of two programs with a semicolon between them are a program.** The semicolon ends
the last statement of the first one where the end of the text did, and is an empty statement
elsewhere. -/
theorem program_joined (hfirst : program first = .ok p) (hsecond : program second = .ok q)
    (tokens : joined.tokens.map Token.aspect = first.tokens.map Token.aspect ++
      (.symbol .semicolon, true) :: onNewLine (second.tokens.map Token.aspect))
    (complete : joined.ending.fault? = none) :
    ∃ gap, (gap = [] ∨ gap = [.empty]) ∧ program joined = .ok ⟨p.body ++ (gap ++ q.body)⟩ := by
  obtain ⟨-, after, hrun⟩ := program_eq_ok.mp hfirst
  have followed : Cursor.Followed (.ofProgram hsecond) ⟨first.tokens, first.ending, 0⟩
      ⟨joined.tokens, joined.ending, 0⟩ :=
    ⟨⟨complete_of_program hfirst, complete, fun _ => rfl, rfl⟩, tokens⟩
  have hsequel : (Sequel.ofProgram hsecond).aspects.length = second.tokens.length + 1 := by
    simp [Sequel.ofProgram, onNewLine_length]
  have hlength : joined.tokens.length = first.tokens.length + (second.tokens.length + 1) :=
    hsequel ▸ followed.length
  have enough : first.tokens.length + 1 + (Sequel.ofProgram hsecond).aspects.length ≤
      joined.tokens.length + 1 := by omega
  obtain ⟨hended, hdepth, other, left, hjoined, hleft, hagain⟩ :=
    statementsWithin_followed followed (Nat.lt_succ_self _) enough hrun
  have hresult : ∀ gap last, statementsWithin (statement recursionFuel) left other =
      .ok (gap ++ q.body) last → program joined = .ok ⟨p.body ++ (gap ++ q.body)⟩ := by
    intro gap last hrest
    refine program_eq_ok.mpr ⟨fun _ => complete, last, hagain _ last hrest⟩
  cases hjoined with
  | followed h =>
    have haspects := h.tokens
    rw [hended, List.map_nil, List.nil_append] at haspects
    obtain ⟨token, rest, htokens, haspect, hrest⟩ := List.map_eq_cons_iff.mp haspects
    obtain ⟨left, rfl⟩ := Nat.exists_eq_add_one_of_ne_zero (Nat.ne_zero_of_lt hleft)
    have hdepth' : other.depth = 0 := h.depth.trans hdepth
    obtain ⟨last, hlast⟩ : ∃ last, statementsWithin (statement recursionFuel) left
        { other with tokens := other.tokens.tail } = .ok q.body last := by
      refine statementsWithin_onNewLine hsecond ?_ h.ending' hdepth' (by omega)
      rw [htokens]
      exact hrest
    refine ⟨[.empty], .inr rfl, hresult [.empty] last ?_⟩
    refine statementsWithin_semicolon ?_ ?_ h.ending' hlast
    · rw [htokens]
      exact congrArg (some ∘ Prod.fst) haspect
    · rw [hdepth']
      decide
  | past newline beside _ semicolon =>
    obtain ⟨-, haspects⟩ := List.cons.inj semicolon
    obtain ⟨last, hlast⟩ := statementsWithin_onNewLine hsecond haspects.symm beside.ending'
      (beside.depth.trans hdepth) (by omega : second.tokens.length < left)
    exact ⟨[], .inl rfl, hresult [] last hlast⟩

end Source

open Source

/-- Whether a statement does nothing. -/
def Stmt.isEmpty : Stmt → Bool
  | .empty => true
  | _ => false

/-- The statements of a program in order, without the empty ones. -/
def Program.trimmed (program : Program) : List Stmt :=
  program.body.filter fun s => !s.isEmpty

/-- **A text, a semicolon on a line of its own, and another text** are a program when both texts
are, and it has the statements of the first one and then those of the second one, up to empty
statements. -/
theorem Program.parse_joined {first second : String} {p q : Program}
    (hfirst : Program.parse first = .ok p) (hsecond : Program.parse second = .ok q) :
    ∃ joined, Program.parse (first ++ "\n;\n" ++ second) = .ok joined ∧
      joined.trimmed = p.trimmed ++ q.trimmed := by
  have htext : (first ++ "\n;\n" ++ second).toList =
      first.toList ++ '\n' :: ';' :: '\n' :: second.toList := by
    simp
  obtain ⟨haspects, hcomplete⟩ :=
    tokenize_joined (complete_of_program hfirst) (complete_of_program hsecond)
  rw [← htext] at haspects hcomplete
  obtain ⟨gap, hgap, hjoined⟩ := program_joined hfirst hsecond haspects hcomplete
  refine ⟨_, hjoined, ?_⟩
  rcases hgap with rfl | rfl <;> simp [trimmed, Stmt.isEmpty]

/-- A condition whose branch the end of the text ends, behind a comment. -/
def openText : String := "if (a) return // b"

/-- A text whose program has a given canonical text. -/
theorem Program.exists_of_canonical {text written : String}
    (h : (Program.parse text).toOption.map (·.canonical fun _ => "") = some written) :
    ∃ p, Program.parse text = .ok p ∧ p.canonical (fun _ => "") = written := by
  cases hparse : Program.parse text with
  | ok p =>
    rw [hparse] at h
    exact ⟨p, rfl, Option.some.inj h⟩
  | error e =>
    rw [hparse] at h
    cases h

/-- The semicolon ends the branch, so that the parentheses are no arguments of a call, and the
comment does not reach it. -/
theorem parse_joined_open :
    ∃ p q joined, Program.parse openText = .ok p ∧ Program.parse "(c)" = .ok q ∧
      p.canonical (fun _ => "") = "if ( a ) return ;" ∧ q.canonical (fun _ => "") = "( c ) ;" ∧
      Program.parse (openText ++ "\n;\n" ++ "(c)") = .ok joined ∧
      joined.trimmed = p.trimmed ++ q.trimmed := by
  have hopen : (Program.parse openText).toOption.map (·.canonical fun _ => "") =
      some "if ( a ) return ;" := by decide +kernel
  have hname : (Program.parse "(c)").toOption.map (·.canonical fun _ => "") = some "( c ) ;" := by
    decide +kernel
  obtain ⟨p, hp, written⟩ := Program.exists_of_canonical hopen
  obtain ⟨q, hq, written'⟩ := Program.exists_of_canonical hname
  obtain ⟨joined, hjoined, htrimmed⟩ := Program.parse_joined hp hq
  exact ⟨p, q, joined, hp, hq, written, written', hjoined, htrimmed⟩

end Formulary
