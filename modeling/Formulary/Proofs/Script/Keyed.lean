import Formulary.Proofs.Number.Printing
import Formulary.Proofs.Sequence
import Formulary.Proofs.Source.Affording
import Formulary.Proofs.Source.Appending
import Formulary.Script.Evaluation

/-!
# Numbers as keys

The key of a property in an object is a number as written, while a number in brackets is printed.

* `Source.Shows.token`, `Source.Shows.space`, ... : what a text shows with one more token or space;
* `Source.isNumberToken_iff` : the texts of number tokens are those that are read as numbers;
* `ReadsAs.text_iff` : the numbers that are read as they are printed;
* `keyedText`, `parse_keyedText` : an object with one property under a number, read with the same
  number in brackets;
* `run_keyedProgram`, `Program.run_keyed` : the value that this has, and the spelling of the number
  with which it is the one put in.
-/

namespace Formulary

namespace Source

/-! ## Texts token by token -/

section Shows

variable {text rest : List Char} {aspects : List (TokenKind × Bool)} {kind : TokenKind}
  {k : String} {x : Float}

/-- A token before a text. -/
theorem Shows.token (h : Shows rest aspects) (nonempty : text ≠ [])
    (head : ∀ position, scanToken position text = .ok (kind, rest) ∧
      skipGap .blank text position false = .ok (text, position, false)) :
    Shows text ((kind, false) :: aspects) := by
  intro position
  obtain ⟨c, cs, rfl⟩ := List.exists_cons_of_ne_nil nonempty
  obtain ⟨hscan, hgap⟩ := head position
  obtain ⟨tokens, ending, hscans, haspects, hending⟩ := h (position + byteLength kind.lexeme)
  refine ⟨_, ending, .token hgap hscan hscans, ?_, hending⟩
  simp [haspects, Token.aspect]

/-- A space before a text. -/
theorem Shows.space (h : Shows text aspects) : Shows (' ' :: text) aspects := by
  intro position
  have hskip : skipGap .blank (' ' :: text) position false =
      skipGap .blank text (position + 1) false := skipGap_blank false false text position
  obtain ⟨tokens, ending, hscans, haspects, hending⟩ := h (position + 1)
  refine ⟨tokens, ending, ?_, haspects, hending⟩
  cases hscans with
  | ends gap => exact .ends (hskip.trans gap)
  | unclosed gap => exact .unclosed (hskip.trans gap)
  | refused gap fault => exact .refused (hskip.trans gap) fault
  | token gap head tail => exact .token (hskip.trans gap) head tail

/-- Signs that no other sign begins with. -/
theorem Shows.bracket (h : Shows rest aspects) (sign : Symbol)
    (bracket : sign ∈ [.openParen, .closeParen, .openBracket, .closeBracket, .openBrace,
      .closeBrace, .colon]) :
    Shows (sign.chars ++ rest) ((.symbol sign, false) :: aspects) := by
  simp only [List.mem_cons, List.not_mem_nil, or_false] at bracket
  refine h.token ?_ fun position => ?_
  · rcases bracket with rfl | rfl | rfl | rfl | rfl | rfl | rfl <;> simp [Symbol.chars]
  · rcases bracket with rfl | rfl | rfl | rfl | rfl | rfl | rfl <;>
      exact ⟨rfl, skipGap_stop (by decide) _ _ _⟩

/-- A number before a text that keeps apart from it. -/
theorem Shows.number (h : Shows rest aspects) (reads : ReadsAs k x) (apart : Number.Apart rest) :
    Shows (k.toList ++ rest) ((.number k, false) :: aspects) := by
  obtain ⟨n, hn, -⟩ := reads
  obtain ⟨htext, written, hasDigit⟩ := Number.Numeral.ofText?_eq_some_iff.mp hn
  have hk : String.ofList n.chars = k := by rw [← htext, String.ofList_toList]
  have hstart := startsNumber_chars written hasDigit rest
  rw [htext]
  refine h.token ?_ fun position => ?_
  · intro hnil
    rw [hnil] at hstart
    cases hstart
  · have hscan := scanToken_numeral written hasDigit apart position false
    rwa [hk] at hscan

end Shows

/-- The texts of number tokens. -/
def IsNumberToken (k : String) : Prop :=
  ∃ position text rest, scanToken position text = .ok (.number k, rest)

/-- These are the texts that are read as numbers. -/
theorem isNumberToken_iff {k : String} : IsNumberToken k ↔ ∃ x, ReadsAs k x := by
  constructor
  · rintro ⟨position, text, rest, h⟩
    obtain ⟨starts, rfl, -⟩ := (scanToken_eq_ok.mp h).of_number
    have hnumeral := Number.Numeral.ofText?_eq_some_iff.mpr
      ⟨String.toList_ofList, (Number.Numeral.scan_eq text).2, hasDigit_of_startsNumber starts⟩
    exact ⟨_, _, hnumeral, rfl⟩
  · rintro ⟨x, reads⟩
    exact ⟨0, _, [], reads.standalone.scans 0 [] (.inl rfl)⟩

end Source

open Source

/-! ## Spellings of a number -/

theorem readsAs_unique {k : String} {x y : Float} (h : ReadsAs k x) (h' : ReadsAs k y) : x = y := by
  obtain ⟨n, hn, rfl⟩ := h
  obtain ⟨m, hm, rfl⟩ := h'
  rw [Option.some.inj (hn.symm.trans hm)]

/-- A number that is read is printed as a text that is read as the same, unless it is infinite. -/
theorem ReadsAs.text_iff {k : String} {x : Float} (h : ReadsAs k x) :
    ReadsAs (Number.text x) x ↔ x.isFinite = true := by
  obtain ⟨n, hn, rfl⟩ := h
  obtain ⟨-, written, -⟩ := Number.Numeral.ofText?_eq_some_iff.mp hn
  cases written.rounds_value with
  | finite finite positive =>
    exact ⟨fun _ => finite, fun _ => Number.exists_numeral_text finite positive⟩
  | infinite beyond eq =>
    rw [eq]
    have hnone : Number.Numeral.ofText? (Number.text Number.infinity).toList = none := by
      decide +kernel
    refine ⟨?_, fun finite => absurd finite (by decide)⟩
    rintro ⟨n, hn, -⟩
    rw [hnone] at hn
    cases hn

/-! ## Reading -/

/-- An object with one property under a number as written, read with the same in brackets. -/
def keyedText (k : String) : String :=
  "(\x7b" ++ k ++ ": v\x7d)[" ++ k ++ "]"

/-- The program of this text. -/
def keyedProgram (k : String) (x : Float) : Program :=
  ⟨[.expression (.index (.object [(k, .identifier "v")]) (.literal (.number x)))]⟩

section Reading

variable {k : String} {x : Float}

/-- The tokens of this text. -/
def keyedTokens (k : String) : List TokenKind :=
  [.symbol .openParen, .symbol .openBrace, .number k, .symbol .colon, .identifier "v",
    .symbol .closeBrace, .symbol .closeParen, .symbol .openBracket, .number k,
    .symbol .closeBracket]

theorem toList_keyedText (k : String) : (keyedText k).toList =
    '(' :: '\x7b' :: (k.toList ++ ':' :: ' ' :: 'v' :: '\x7d' :: ')' :: '[' ::
      (k.toList ++ [']'])) := by
  simp [keyedText]

theorem shows_keyedText (reads : ReadsAs k x) :
    Shows (keyedText k).toList ((keyedTokens k).map fun kind => (kind, false)) := by
  have hend : Shows [] [] := shows_trivia (.nil : Trivia True [])
  have hkey := (hend.bracket .closeBracket (by decide)).number reads
    (Number.apart_cons (by decide) _)
  have hobject := ((hkey.bracket .openBracket (by decide)).bracket .closeParen (by decide)).bracket
    .closeBrace (by decide)
  have hname : Shows ('v' :: '\x7d' :: ')' :: '[' :: (k.toList ++ [']']))
      ((.identifier "v", false) :: _) :=
    hobject.token (List.cons_ne_nil _ _) fun _ => ⟨rfl, skipGap_stop (by decide) _ _ _⟩
  have hcolon := (hname.space.bracket .colon (by decide)).number reads
    (Number.apart_cons (by decide) _)
  rw [toList_keyedText]
  exact (hcolon.bracket .openBrace (by decide)).bracket .openParen (by decide)

theorem affords_keyedTokens (value : numberValue k = pure x) (fuel : Nat) :
    Affords 12 (statement (fuel + 13)) (keyedTokens k) []
      (.expression (.index (.object [(k, .identifier "v")]) (.literal (.number x)))) := by
  let index : List TokenKind := [.symbol .openBracket, .number k, .symbol .closeBracket]
  have hname : Affords 3 (assignment (fuel + 4))
      (.identifier "v" :: .symbol .closeBrace :: .symbol .closeParen :: index)
      (.symbol .closeBrace :: .symbol .closeParen :: index) (.identifier "v") :=
    affords_written (.identifier "v") (.sign (by decide) _)
  have hobject : Affords 3 (unary (fuel + 6))
      (.symbol .openBrace :: .number k :: .symbol .colon :: .identifier "v" ::
        .symbol .closeBrace :: .symbol .closeParen :: index)
      (.symbol .closeParen :: index) (.object [(k, .identifier "v")]) :=
    affords_opened (by decide) (affords_keyed hname)
      (affords_suffixes (.sign (by decide) _) _).restoring
  have hparens : Affords 6 (primary (fuel + 9)) (keyedTokens k) index
      (.object [(k, .identifier "v")]) :=
    affords_parenthesized (affords_assignment (.sign (by decide) _) hobject (Nat.succ_pos _))
  have hindex : Affords 6 (unary (fuel + 10)) (keyedTokens k) []
      (.index (.object [(k, .identifier "v")]) (.literal (.number x))) :=
    affords_opened (by decide) hparens (affords_indexed (.number value) .nil _)
  have hwhole : Affords 9 (assignment (fuel + 12)) (keyedTokens k) []
      (.index (.object [(k, .identifier "v")]) (.literal (.number x))) :=
    affords_assignment .nil hindex (Nat.succ_pos _)
  exact Affords.nested (affords_peek.bind (affords_expressionStatement hwhole))

/-- **The text is read as this program.** -/
theorem parse_keyedText (reads : ReadsAs k x) :
    Program.parse (keyedText k) = .ok (keyedProgram k x) := by
  obtain ⟨tokens, ending, hscans, haspects, hending⟩ := shows_keyedText reads 0
  have hvalue : numberValue k = pure x := by
    obtain ⟨n, hn, rfl⟩ := reads
    unfold numberValue
    rw [hn]
  have hlexed : tokenize (keyedText k).toList = ⟨tokens, ending⟩ := scans_iff.mp hscans
  rw [Program.parse, hlexed]
  exact program_of_statement (affords_keyedTokens hvalue 4083) (by decide) haspects hending

end Reading

/-! ## Running -/

namespace Run

section Steps

variable {α : Type} {step : Run α} {a : α} {machine : Machine} {store : Store}

/-- An expression that changes nothing but the store is run where there is room for it. -/
theorem deeper_of_ok (room : machine.nesting < nestingLimit)
    (h : step { machine with nesting := machine.nesting + 1 } =
      .ok a { machine with store := store, nesting := machine.nesting + 1 }) :
    deeper step machine = .ok a { machine with store := store } := by
  rw [deeper, if_neg (Nat.not_le.mpr room), h]
  rfl

end Steps

section Expressions

variable {machine : Machine} {frame : FrameRef} {value : Value} {limit fuel : Nat}

theorem evaluate_identifier {name : String}
    (bound : machine.store.binding? frame name = some value)
    (room : machine.nesting < nestingLimit) :
    evaluate limit (fuel + 1) frame (.identifier name) machine = .ok value machine := by
  show deeper (lookUp frame name) machine = .ok value { machine with store := machine.store }
  refine deeper_of_ok room ?_
  have hstore : Run.store { machine with nesting := machine.nesting + 1 } =
      .ok machine.store { machine with nesting := machine.nesting + 1 } := rfl
  rw [lookUp, bind_of_ok hstore, bound]
  rfl

theorem evaluate_literal (room : machine.nesting < nestingLimit) (literal : Literal) :
    evaluate limit (fuel + 1) frame (.literal literal) machine = .ok literal.value machine := by
  show deeper (pure literal.value) machine = .ok _ { machine with store := machine.store }
  exact deeper_of_ok room rfl

/-- A store with one more object, which has one property. -/
def withProperty (k : String) (value : Value) (store : Store) : Store :=
  (store.newObject (.ofList [(k, value)])).2

theorem evaluate_object {e : Expr} (k : String) (room : machine.nesting < nestingLimit)
    (h : evaluate limit fuel frame e { machine with nesting := machine.nesting + 1 } =
      .ok value { machine with nesting := machine.nesting + 1 }) :
    evaluate limit (fuel + 1) frame (.object [(k, e)]) machine =
      .ok (.object ⟨machine.store.objects.size⟩)
        { machine with store := withProperty k value machine.store } := by
  refine deeper_of_ok room ?_
  have hentries : ([(k, e)].mapM fun property : String × Expr => do
      return (property.1, ← evaluate limit fuel frame property.2) : Run (List (String × Value)))
      { machine with nesting := machine.nesting + 1 } =
        .ok [(k, value)] { machine with nesting := machine.nesting + 1 } := by
    simp only [List.mapM_cons, List.mapM_nil, bind_assoc, pure_bind, bind_of_ok h]
    rfl
  show evalObject (evaluate limit fuel frame) [(k, e)] _ = _
  rw [evalObject, bind_of_ok hentries]
  rfl

theorem evaluate_index {object key : Expr} {target index : Value} {store : Store}
    (room : machine.nesting < nestingLimit)
    (hobject : evaluate limit fuel frame object { machine with nesting := machine.nesting + 1 } =
      .ok target { machine with store := store, nesting := machine.nesting + 1 })
    (hkey : evaluate limit fuel frame key
      { machine with store := store, nesting := machine.nesting + 1 } =
        .ok index { machine with store := store, nesting := machine.nesting + 1 })
    (read : readIndexed store target index = .ok value) :
    evaluate limit (fuel + 1) frame (.index object key) machine =
      .ok value { machine with store := store } := by
  refine deeper_of_ok room ?_
  show evalIndex (evaluate limit fuel frame) object key _ = _
  rw [evalIndex, bind_of_ok hobject, bind_of_ok hkey]
  show ofFault (readIndexed store target index) _ = _
  rw [read]
  rfl

end Expressions

end Run

section Running

variable {machine : Machine} {frame : FrameRef} {value : Value} {k : String} {x : Float}

/-- Reading a property of an object by a number, which counts as its text. -/
theorem readIndexed_object (store : Store) (ref : ObjectRef) (x : Float) :
    readIndexed store (.object ref) (.number x) =
      .ok (((store.properties ref).get? (Number.text x)).getD .undefined) := rfl

theorem read_withProperty (store : Store) (k : String) (value : Value) (x : Float) :
    readIndexed (Run.withProperty k value store) (.object ⟨store.objects.size⟩) (.number x) =
      .ok (if Number.text x = k then value else .undefined) := by
  have hproperties : (Run.withProperty k value store).properties ⟨store.objects.size⟩ =
      Table.empty.put k value := by
    simp [Run.withProperty, Store.newObject, Store.properties, Table.ofList]
  rw [readIndexed_object, hproperties, Table.get?_put]
  split <;> rfl

/-- The program has the value of the property under the printed number. -/
theorem run_keyedProgram (bound : machine.store.binding? frame "v" = some value)
    (room : machine.nesting + 3 ≤ Run.nestingLimit) (limit fuel : Nat) :
    (keyedProgram k x).run limit (fuel + 4) frame machine =
      .ok (if Number.text x = k then value else .undefined)
        { machine with store := Run.withProperty k value machine.store } := by
  have hname : Run.evaluate limit (fuel + 1) frame (.identifier "v")
      { machine with nesting := machine.nesting + 2 } =
        .ok value { machine with nesting := machine.nesting + 2 } :=
    Run.evaluate_identifier bound (by dsimp only; omega)
  have hobject : Run.evaluate limit (fuel + 2) frame (.object [(k, .identifier "v")])
      { machine with nesting := machine.nesting + 1 } = _ :=
    Run.evaluate_object k (by dsimp only; omega) hname
  have hkey : Run.evaluate limit (fuel + 2) frame (.literal (.number x))
      { machine with
        store := Run.withProperty k value machine.store, nesting := machine.nesting + 1 } = _ :=
    Run.evaluate_literal (by dsimp only; omega) (.number x)
  have hindex := Run.evaluate_index (by omega) hobject hkey (read_withProperty _ _ _ _)
  have hstatement : Run.execute limit (fuel + 4) frame
      (.expression (.index (.object [(k, .identifier "v")]) (.literal (.number x)))) machine = _ :=
    bind_of_ok hindex
  have hhoist : Run.modifyStore (fun store => store.hoist frame (keyedProgram k x).body) machine =
      .ok () machine := rfl
  have hbody : Run.executeBody (Run.execute limit (fuel + 4) frame) frame
      (keyedProgram k x).body machine = _ :=
    (bind_of_ok hhoist).trans (bind_of_ok hstatement)
  exact bind_of_ok hbody

/-- **A property under a number is found under the same number where it is written as scripts print
it,** and under no other spelling of it. -/
theorem Program.run_keyed (token : IsNumberToken k)
    (bound : machine.store.binding? frame "v" = some value)
    (room : machine.nesting + 3 ≤ Run.nestingLimit) (limit fuel : Nat) :
    ∃ x, ReadsAs k x ∧ Program.parse (keyedText k) = .ok (keyedProgram k x) ∧
      (keyedProgram k x).run limit (fuel + 4) frame machine =
        .ok (if Number.text x = k then value else .undefined)
          { machine with store := Run.withProperty k value machine.store } ∧
      (ReadsAs (Number.text x) x ↔ x.isFinite = true) := by
  obtain ⟨x, reads⟩ := isNumberToken_iff.mp token
  exact ⟨x, reads, parse_keyedText reads, run_keyedProgram bound room limit fuel, reads.text_iff⟩

/-- A machine with one name that has a value. -/
def naming : Machine :=
  ⟨⟨#[], #[], #[], #[⟨.ofList [("v", .string "a")], none⟩]⟩, #[], 0, 0⟩

theorem bound_naming : naming.store.binding? ⟨0⟩ "v" = some (.string "a") := rfl

/-- A number that is written as it is printed. -/
theorem Program.run_keyed_integer :
    ∃ program, Program.parse (keyedText "1") = .ok program ∧
      program.run 0 4 ⟨0⟩ naming =
        .ok (.string "a")
          { naming with store := Run.withProperty "1" (.string "a") naming.store } := by
  have reads : ReadsAs "1" 1 := ⟨⟨['1'], none, none⟩, by decide, by decide +kernel⟩
  obtain ⟨x, hx, hparse, hrun, -⟩ := Program.run_keyed (isNumberToken_iff.mpr ⟨1, reads⟩)
    bound_naming (by decide) 0 0
  obtain rfl := readsAs_unique hx reads
  rw [if_pos (by decide +kernel)] at hrun
  exact ⟨_, hparse, hrun⟩

/-- The same number with a fraction, which is not printed. -/
theorem Program.run_keyed_fraction :
    ∃ program, Program.parse (keyedText "1.0") = .ok program ∧
      program.run 0 4 ⟨0⟩ naming =
        .ok .undefined
          { naming with store := Run.withProperty "1.0" (.string "a") naming.store } := by
  have reads : ReadsAs "1.0" 1 := ⟨⟨['1'], some ['0'], none⟩, by decide, by decide +kernel⟩
  have hrun := run_keyedProgram (k := "1.0") (x := 1) bound_naming (by decide) 0 0
  rw [if_neg (by decide +kernel)] at hrun
  exact ⟨_, parse_keyedText reads, hrun⟩

end Running

end Formulary
