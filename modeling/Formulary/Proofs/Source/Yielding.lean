import Formulary.Proofs.Source.Canonical

/-!
# Reading given tokens

* `Cursor.Before` : cursors before given tokens, with no line break between them;
* `Yields` : steps that read given tokens as a given answer, unless the nesting budget is too small;
* `yields_commaList`, `yields_block`, ... : what repetitions read.
-/

namespace Formulary.Source

/-- Whether the tokens still to read are the given ones, on one line, and the text ends without an
error. -/
structure Cursor.Before (kinds : List TokenKind) (cursor : Cursor) : Prop where
  tokens : cursor.tokens.map Token.aspect = kinds.map fun kind => (kind, false)
  ending : cursor.ending.fault? = none

/-- Outcomes with a given answer before given tokens, and those for lack of room. -/
inductive Yielding {α : Type} (after : List TokenKind) (a : α) :
    EStateM.Result SyntaxError Cursor α → Prop where
  | ok {last : Cursor} (before : last.Before after) : Yielding after a (.ok a last)
  | tooDeep (position : Nat) (last : Cursor) :
    Yielding after a (.error (.nestingTooDeep nestingLimit position) last)

/-- Whether a step begun before some tokens has a given answer and stops before others, unless it
finds no room. -/
def Yields {α : Type} (step : Parse α) (before after : List TokenKind) (a : α) : Prop :=
  ∀ cursor : Cursor, cursor.Before before → Yielding after a (step cursor)

section Steps

variable {α β : Type} {step : Parse α} {next : α → Parse β} {before middle after : List TokenKind}
  {kind : TokenKind} {sign : Symbol} {a : α} {b : β}

theorem yields_pure (a : α) : Yields (pure a) before before a :=
  fun _ h => .ok h

theorem Yields.bind (first : Yields step before middle a)
    (second : Yields (next a) middle after b) : Yields (step >>= next) before after b := by
  intro cursor h
  show Yielding after b (EStateM.bind step next cursor)
  have hfirst := first cursor h
  unfold EStateM.bind
  generalize step cursor = result at *
  cases hfirst with
  | ok hmiddle => exact second _ hmiddle
  | tooDeep position last => exact .tooDeep position last

/-- A step whose answer does not matter. -/
theorem Yields.bind_any (first : ∀ cursor : Cursor, cursor.Before before →
    ∃ a, step cursor = .ok a cursor) (second : ∀ a, Yields (next a) before after b) :
    Yields (step >>= next) before after b := by
  intro cursor h
  show Yielding after b (EStateM.bind step next cursor)
  obtain ⟨a, hstep⟩ := first cursor h
  unfold EStateM.bind
  rw [hstep]
  exact second a cursor h

/-! ### Looking at tokens -/

section Head

variable {cursor : Cursor}

theorem Cursor.Before.head? (h : cursor.Before before) :
    cursor.tokens.head?.map Token.kind = before.head? := by
  have hhead := congrArg (fun aspects => aspects.head?.map Prod.fst) h.tokens
  simpa [List.head?_map, Function.comp_def, Token.aspect] using hhead

theorem Cursor.Before.newlineBefore (h : cursor.Before before) :
    (cursor.tokens.head?.map Token.newlineBefore).getD false = false := by
  have hhead := congrArg (fun aspects => (aspects.head?.map Prod.snd).getD false) h.tokens
  simp only [List.head?_map, Option.map_map, Function.comp_def, Token.aspect] at hhead
  rw [hhead]
  cases before <;> rfl

theorem Cursor.Before.length (h : cursor.Before before) : cursor.tokens.length = before.length := by
  simpa using congrArg List.length h.tokens

end Head

theorem yields_peek : Yields peek before before before.head? := by
  intro cursor h
  show Yielding before before.head? (.ok (cursor.tokens.head?.map Token.kind) cursor)
  rw [h.head?]
  exact .ok h

theorem yields_newlineBefore : Yields newlineBefore before before false := by
  intro cursor h
  show Yielding before false
    (.ok ((cursor.tokens.head?.map Token.newlineBefore).getD false) cursor)
  rw [h.newlineBefore]
  exact .ok h

theorem yields_rounds : Yields rounds before before (before.length + 1) := by
  intro cursor h
  show Yielding before (before.length + 1) (.ok (cursor.tokens.length + 1) cursor)
  rw [h.length]
  exact .ok h

theorem yields_atSign (before : List TokenKind) (sign : Symbol) :
    Yields (atSign sign) before before (before.head? == some (.symbol sign)) :=
  yields_peek.bind (yields_pure _)

theorem yields_atWord (before : List TokenKind) (word : Keyword) :
    Yields (atWord word) before before (before.head? == some (.keyword word)) :=
  yields_peek.bind (yields_pure _)

/-- A sign that is there. -/
theorem yields_atSign_true :
    Yields (atSign sign) (.symbol sign :: after) (.symbol sign :: after) true := by
  have h := yields_atSign (.symbol sign :: after) sign
  rwa [List.head?_cons, beq_self_eq_true] at h

/-- A sign that is not there. -/
theorem yields_atSign_false (h : before.head? ≠ some (.symbol sign)) :
    Yields (atSign sign) before before false := by
  have hat := yields_atSign before sign
  rwa [beq_eq_false_iff_ne.mpr h] at hat

theorem yields_advance : Yields advance (kind :: after) after () := by
  intro cursor h
  obtain ⟨tokens, ending, depth⟩ := cursor
  obtain ⟨token, rest, rfl, -, hrest⟩ := List.map_eq_cons_iff.mp h.tokens
  have hbefore : Cursor.Before after ⟨rest, ending, depth⟩ := ⟨hrest, h.ending⟩
  unfold advance Cursor.moveTo
  cases rest with
  | cons token rest => exact .ok hbefore
  | nil =>
    cases ending with
    | complete position newline => exact .ok hbefore
    | failed e => cases h.ending

/-- What is read off the current token, which is left behind. -/
theorem yields_taken (a : α) : Yields (do advance; return a) (kind :: after) after a :=
  yields_advance.bind (yields_pure a)

theorem yields_expectSign : Yields (expectSign sign) (.symbol sign :: after) after () :=
  yields_atSign_true.bind yields_advance

theorem yields_identifier {name : String} :
    Yields identifier (.identifier name :: after) after name :=
  yields_peek.bind (yields_taken name)

/-- A statement ends with its semicolon. -/
theorem yields_endStatement : Yields endStatement (.symbol .semicolon :: after) after () :=
  yields_peek.bind yields_advance

/-! ### The nesting budget -/

theorem yields_tooDeep : Yields (tooDeep : Parse α) before after a :=
  fun _ _ => .tooDeep _ _

theorem yields_descend (cost : Nat) : Yields (descend cost) before before () := by
  intro cursor h
  show Yielding before ()
    ((if nestingLimit < cursor.depth + cost then tooDeep
      else set { cursor with depth := cursor.depth + cost } : Parse Unit) cursor)
  split
  · exact .tooDeep _ _
  · exact .ok ⟨h.tokens, h.ending⟩

theorem Yields.restoring (h : Yields step before after a) :
    Yields (restoring step) before after a := by
  intro cursor hcursor
  have hstep := h cursor hcursor
  unfold Source.restoring
  generalize step cursor = result at *
  cases hstep with
  | ok last => exact .ok ⟨last.tokens, last.ending⟩
  | tooDeep position last => exact .tooDeep position _

theorem Yields.nested (h : Yields step before after a) : Yields (nested step) before after a :=
  ((yields_descend descentCost).bind h).restoring

end Steps

/-! ## Repetitions -/

section Repetitions

variable {α : Type} {item : Parse α} {written : α → List TokenKind} {items : List α}
  {statement : Parse Stmt} {spelling : Stmt → List TokenKind} {body : List Stmt}
  {value : Parse Expr} {parts : String × Option Expr → List TokenKind}
  {declarators : List (String × Option Expr)} {close : Symbol} {after : List TokenKind}

/-- Whether tokens begin with one that is none of the given ones. -/
def StartsApart (kinds : List TokenKind) (tokens : List TokenKind) : Prop :=
  ∃ kind rest, tokens = kind :: rest ∧ kind ∉ kinds

theorem StartsApart.head_ne {kinds tokens rest : List TokenKind} (h : StartsApart kinds tokens) :
    ∀ kind ∈ kinds, (tokens ++ rest).head? ≠ some kind := by
  rintro kind hmem hhead
  obtain ⟨first, tokens, rfl, hfirst⟩ := h
  obtain rfl : first = kind := Option.some.inj hhead
  exact hfirst hmem

theorem StartsApart.length_pos {kinds tokens : List TokenKind} (h : StartsApart kinds tokens) :
    0 < tokens.length := by
  obtain ⟨kind, rest, rfl, -⟩ := h
  exact Nat.succ_pos _

/-- There is a token. -/
theorem StartsApart.yields_peek {kinds tokens rest : List TokenKind}
    (h : StartsApart kinds tokens) :
    ∃ kind, Yields peek (tokens ++ rest) (tokens ++ rest) (some kind) := by
  obtain ⟨kind, tokens, rfl, -⟩ := h
  exact ⟨kind, Source.yields_peek⟩

theorem length_le_commaSeparated (h : ∀ a ∈ items, 0 < (written a).length) :
    items.length ≤ (commaSeparated (items.map written)).length := by
  induction items with
  | nil => exact Nat.le_refl 0
  | cons a rest ih =>
    obtain ⟨ha, hrest⟩ := List.forall_mem_cons.mp h
    have hle := ih hrest
    cases rest with
    | nil => exact ha
    | cons b rest =>
      simp only [List.map_cons, commaSeparated, List.length_append, List.length_cons] at hle ⊢
      omega

theorem length_le_flatMap (h : ∀ a ∈ items, 0 < (written a).length) :
    items.length ≤ (items.flatMap written).length := by
  induction items with
  | nil => exact Nat.le_refl 0
  | cons a rest ih =>
    obtain ⟨ha, hrest⟩ := List.forall_mem_cons.mp h
    have hle := ih hrest
    simp only [List.flatMap_cons, List.length_append, List.length_cons]
    omega

theorem yields_commaListWithin (hclose : close ≠ .comma)
    (starts : ∀ a ∈ items, StartsApart [.symbol close] (written a))
    (h : ∀ a ∈ items, ∀ sign ∈ [Symbol.comma, close], ∀ rest,
      Yields item (written a ++ .symbol sign :: rest) (.symbol sign :: rest) a)
    {fuel : Nat} (enough : items.length < fuel) :
    Yields (commaListWithin close item fuel)
      (commaSeparated (items.map written) ++ .symbol close :: after) (.symbol close :: after)
      items := by
  induction items generalizing fuel with
  | nil =>
    obtain ⟨fuel, rfl⟩ := Nat.exists_eq_add_one_of_ne_zero (Nat.ne_of_gt enough)
    exact yields_atSign_true.bind (yields_pure [])
  | cons a rest ih =>
    obtain ⟨fuel, rfl⟩ := Nat.exists_eq_add_one_of_ne_zero (by omega : fuel ≠ 0)
    obtain ⟨hstart, hstarts⟩ := List.forall_mem_cons.mp starts
    obtain ⟨hitem, hrest⟩ := List.forall_mem_cons.mp h
    cases rest with
    | nil =>
      have hnoComma : (TokenKind.symbol close :: after).head? ≠ some (.symbol .comma) := by
        simpa using hclose
      exact (yields_atSign_false (hstart.head_ne _ List.mem_cons_self)).bind <|
        (hitem close (by simp) after).bind <|
          (yields_atSign_false hnoComma).bind (yields_pure [a])
    | cons b rest =>
      have henough : (b :: rest).length < fuel := by simpa using enough
      have htail := ih hstarts hrest henough
      have hhead : (written a ++ (.symbol .comma ::
          commaSeparated ((b :: rest).map written) ++ .symbol close :: after)).head? ≠
            some (.symbol close) := hstart.head_ne _ List.mem_cons_self
      have hfirst := hitem .comma (by simp)
        (commaSeparated ((b :: rest).map written) ++ .symbol close :: after)
      simp only [List.map_cons, commaSeparated, List.append_assoc, List.cons_append]
        at hhead hfirst ⊢
      exact (yields_atSign_false hhead).bind <| hfirst.bind <| yields_atSign_true.bind <|
        yields_advance.bind <| htail.bind (yields_pure _)

/-- Items with commas between them. -/
theorem yields_commaList (hclose : close ≠ .comma)
    (starts : ∀ a ∈ items, StartsApart [.symbol close] (written a))
    (h : ∀ a ∈ items, ∀ sign ∈ [Symbol.comma, close], ∀ rest,
      Yields item (written a ++ .symbol sign :: rest) (.symbol sign :: rest) a) :
    Yields (commaList close item) (commaSeparated (items.map written) ++ .symbol close :: after)
      after items := by
  have hlength := length_le_commaSeparated fun a ha => (starts a ha).length_pos
  refine yields_rounds.bind ((yields_commaListWithin hclose starts h ?_).bind
    (yields_expectSign.bind (yields_pure items)))
  simp only [List.length_append]
  omega

theorem yields_blockWithin
    (starts : ∀ s ∈ body, StartsApart [.symbol .closeBrace, .keyword .elseWord] (spelling s))
    (h : ∀ s ∈ body, ∀ rest, rest.head? ≠ some (.keyword .elseWord) →
      Yields statement (spelling s ++ rest) rest s)
    {fuel : Nat} (enough : body.length < fuel) :
    Yields (blockWithin statement fuel) (body.flatMap spelling ++ .symbol .closeBrace :: after)
      (.symbol .closeBrace :: after) body := by
  induction body generalizing fuel with
  | nil =>
    obtain ⟨fuel, rfl⟩ := Nat.exists_eq_add_one_of_ne_zero (Nat.ne_of_gt enough)
    exact yields_atSign_true.bind (yields_pure [])
  | cons s rest ih =>
    obtain ⟨fuel, rfl⟩ := Nat.exists_eq_add_one_of_ne_zero (by omega : fuel ≠ 0)
    obtain ⟨hstart, hstarts⟩ := List.forall_mem_cons.mp starts
    obtain ⟨hfirst, hrest⟩ := List.forall_mem_cons.mp h
    have hnext : (rest.flatMap spelling ++ .symbol .closeBrace :: after).head? ≠
        some (.keyword .elseWord) := by
      cases rest with
      | nil => simp
      | cons t rest =>
        rw [List.flatMap_cons, List.append_assoc]
        exact (List.forall_mem_cons.mp hstarts).1.head_ne _ (by simp)
    rw [List.flatMap_cons, List.append_assoc]
    obtain ⟨kind, hpeek⟩ := hstart.yields_peek
    have henough : rest.length < fuel := by simpa using enough
    have htail := ih hstarts hrest henough
    exact (yields_atSign_false (hstart.head_ne _ List.mem_cons_self)).bind <|
      hpeek.bind <| (hfirst _ hnext).bind (htail.bind (yields_pure _))

/-- Statements between braces. -/
theorem yields_block
    (starts : ∀ s ∈ body, StartsApart [.symbol .closeBrace, .keyword .elseWord] (spelling s))
    (h : ∀ s ∈ body, ∀ rest, rest.head? ≠ some (.keyword .elseWord) →
      Yields statement (spelling s ++ rest) rest s) :
    Yields (block statement)
      (.symbol .openBrace :: body.flatMap spelling ++ .symbol .closeBrace :: after) after body := by
  have hlength := length_le_flatMap fun s hs => (starts s hs).length_pos
  rw [List.cons_append]
  refine yields_expectSign.bind (yields_rounds.bind ((yields_blockWithin starts h ?_).bind
    (yields_expectSign.bind (yields_pure body))))
  simp only [List.length_append]
  omega

/-- Statements up to the end. -/
theorem yields_statementsWithin
    (starts : ∀ s ∈ body, StartsApart [.keyword .elseWord] (spelling s))
    (h : ∀ s ∈ body, ∀ rest, rest.head? ≠ some (.keyword .elseWord) →
      Yields statement (spelling s ++ rest) rest s)
    {fuel : Nat} (enough : body.length < fuel) :
    Yields (statementsWithin statement fuel) (body.flatMap spelling) [] body := by
  induction body generalizing fuel with
  | nil =>
    obtain ⟨fuel, rfl⟩ := Nat.exists_eq_add_one_of_ne_zero (Nat.ne_of_gt enough)
    exact yields_peek.bind (yields_pure [])
  | cons s rest ih =>
    obtain ⟨fuel, rfl⟩ := Nat.exists_eq_add_one_of_ne_zero (by omega : fuel ≠ 0)
    obtain ⟨hstart, hstarts⟩ := List.forall_mem_cons.mp starts
    obtain ⟨hfirst, hrest⟩ := List.forall_mem_cons.mp h
    have hnext : (rest.flatMap spelling).head? ≠ some (.keyword .elseWord) := by
      cases rest with
      | nil => simp
      | cons t rest =>
        rw [List.flatMap_cons]
        exact (List.forall_mem_cons.mp hstarts).1.head_ne _ (by simp)
    rw [List.flatMap_cons]
    obtain ⟨kind, hpeek⟩ := hstart.yields_peek
    have henough : rest.length < fuel := by simpa using enough
    have htail := ih hstarts hrest henough
    exact hpeek.bind <| (hfirst _ hnext).bind (htail.bind (yields_pure _))

/-- Declarators with commas between them. -/
theorem yields_declaratorsWithin (nonempty : declarators ≠ [])
    (h : ∀ d ∈ declarators, ∀ sign ∈ [Symbol.comma, .semicolon], ∀ rest,
      Yields (declarator value) (parts d ++ .symbol sign :: rest) (.symbol sign :: rest) d)
    {fuel : Nat} (enough : declarators.length ≤ fuel) :
    Yields (declaratorsWithin value fuel)
      (commaSeparated (declarators.map parts) ++ .symbol .semicolon :: after)
      (.symbol .semicolon :: after) declarators := by
  induction declarators generalizing fuel with
  | nil => exact absurd rfl nonempty
  | cons d rest ih =>
    obtain ⟨fuel, rfl⟩ := Nat.exists_eq_add_one_of_ne_zero (by
      rw [List.length_cons] at enough
      omega : fuel ≠ 0)
    obtain ⟨hfirst, hrest⟩ := List.forall_mem_cons.mp h
    cases rest with
    | nil =>
      exact (hfirst .semicolon (by simp) after).bind <|
        (yields_atSign_false (by simp)).bind (yields_pure [d])
    | cons b rest =>
      have henough : (b :: rest).length ≤ fuel := by simpa using enough
      have htail := ih (List.cons_ne_nil _ _) hrest henough
      have hitem := hfirst .comma (by simp)
        (commaSeparated ((b :: rest).map parts) ++ .symbol .semicolon :: after)
      simp only [List.map_cons, commaSeparated, List.append_assoc, List.cons_append] at hitem ⊢
      exact hitem.bind <| yields_atSign_true.bind <| yields_advance.bind <|
        htail.bind (yields_pure _)

end Repetitions

end Formulary.Source
