import Formulary.Proofs.Source.Opening

/-!
# How operators group their operands

* `Grouping` : operands grouped by the operators between them, and `Grouping.reading`, the operands
  and operators in order;
* `Grouping.Ordered`, `Grouping.Ordered.eq_of_reading` : groupings in which every operator binds its
  operands as its level says; there is one for every sequence at most;
* `Flat` : a sequence of operands and operators that tokens write;
* `climb_grouping` : precedence climbing reads such a sequence as its ordered grouping.
-/

namespace Formulary.Source

/-! ## Groupings -/

/-- Operands grouped by the operators between them. An operand may have operators inside it, which
then stand between parentheses. -/
inductive Grouping where
  | operand (e : Expr)
  | node (op : Connective) (left right : Grouping)

namespace Grouping

/-- The expression that a grouping stands for. -/
def expr : Grouping → Expr
  | operand e => e
  | node op left right => op.join left.expr right.expr

/-- The first operand. -/
def first : Grouping → Expr
  | operand e => e
  | node _ left _ => left.first

/-- The operators in order, each with the operand behind it. -/
def rest : Grouping → List (Connective × Expr)
  | operand _ => []
  | node op left right => left.rest ++ (op, right.first) :: right.rest

/-- The operands and operators in order. -/
def reading (tree : Grouping) : Expr × List (Connective × Expr) :=
  (tree.first, tree.rest)

/-- Whether the outermost operator, if there is one, binds at least as tightly as the level. -/
def AtLeast (level : Nat) : Grouping → Prop
  | operand _ => True
  | node op _ _ => level ≤ op.level

/-- Whether operators on the left of an operator bind at least as tightly as it does, and those on
its right more tightly. -/
def Ordered : Grouping → Prop
  | operand _ => True
  | node op left right =>
    left.Ordered ∧ right.Ordered ∧ left.AtLeast op.level ∧ right.AtLeast (op.level + 1)

variable {tree other : Grouping} {level : Nat}

/-- In an ordered grouping, the outermost operator binds loosest. -/
theorem Ordered.level_le (ordered : tree.Ordered) (h : tree.AtLeast level) :
    ∀ link ∈ tree.rest, level ≤ link.1.level := by
  induction tree generalizing level with
  | operand e => exact fun _ hmem => nomatch hmem
  | node op left right ihLeft ihRight =>
    obtain ⟨hleft, hright, atLeft, atRight⟩ := ordered
    replace h : level ≤ op.level := h
    intro link hmem
    rcases List.mem_append.mp hmem with hmem | hmem
    · exact Nat.le_trans h (ihLeft hleft atLeft link hmem)
    · rcases List.mem_cons.mp hmem with rfl | hmem
      · exact h
      · have := ihRight hright atRight link hmem
        omega

/-- **An ordered grouping is determined by its operands and operators in order.** -/
theorem Ordered.eq_of_reading (ordered : tree.Ordered) (ordered' : other.Ordered)
    (h : tree.reading = other.reading) : tree = other := by
  induction tree generalizing other with
  | operand e =>
    obtain ⟨hfirst, hrest⟩ := Prod.mk.inj h
    cases other with
    | operand e' => exact congrArg operand hfirst
    | node op left right => simp [rest] at hrest
  | node op left right ihLeft ihRight =>
    obtain ⟨hfirst, hrest⟩ := Prod.mk.inj h
    cases other with
    | operand e => simp [rest] at hrest
    | node op' left' right' =>
      obtain ⟨hleft, hright, atLeft, atRight⟩ := ordered
      obtain ⟨hleft', hright', atLeft', atRight'⟩ := ordered'
      simp only [rest] at hrest
      -- An outermost operator that stands further right in one of the groupings would bind looser
      -- than the other one, and at least as tightly.
      obtain ⟨between, hlonger, hshorter⟩ | ⟨between, hlonger, hshorter⟩ :=
        List.append_eq_append_iff.mp hrest
      · cases between with
        | nil =>
          obtain ⟨hlink, hrights⟩ := List.cons.inj hshorter
          obtain ⟨rfl, hsecond⟩ := Prod.mk.inj hlink
          rw [List.append_nil] at hlonger
          rw [ihLeft hleft hleft' (Prod.ext hfirst hlonger.symm),
            ihRight hright hright' (Prod.ext hsecond hrights)]
        | cons link between =>
          obtain ⟨rfl, hright_eq⟩ := List.cons.inj hshorter
          have h₁ : op'.level ≤ op.level :=
            hleft'.level_le atLeft' (op, right.first) (by simp [hlonger])
          have h₂ : op.level + 1 ≤ op'.level :=
            hright.level_le atRight (op', right'.first) (by simp [hright_eq])
          omega
      · cases between with
        | nil =>
          obtain ⟨hlink, hrights⟩ := List.cons.inj hshorter
          obtain ⟨rfl, hsecond⟩ := Prod.mk.inj hlink
          rw [List.append_nil] at hlonger
          rw [ihLeft hleft hleft' (Prod.ext hfirst hlonger),
            ihRight hright hright' (Prod.ext hsecond.symm hrights.symm)]
        | cons link between =>
          obtain ⟨rfl, hright_eq⟩ := List.cons.inj hshorter
          have h₁ : op.level ≤ op'.level :=
            hleft.level_le atLeft (op', right'.first) (by simp [hlonger])
          have h₂ : op'.level + 1 ≤ op.level :=
            hright'.level_le atRight' (op, right.first) (by simp [hright_eq])
          omega

end Grouping

/-! ## Sequences -/

/-- The operator that the current token stands for. -/
def Cursor.connective? (cursor : Cursor) : Option Connective :=
  (cursor.tokens.head?.map Token.kind).bind fun
    | .symbol sign => sign.connective?
    | _ => none

/-- Whether no operator of at least the given level follows. -/
def Cursor.Stops (level : Nat) (cursor : Cursor) : Prop :=
  ∀ op ∈ cursor.connective?, op.level < level

/-- Whether an operand is read at a cursor, with some room in the nesting budget. -/
def OperandAt (cursor : Cursor) (e : Expr) (after : Cursor) : Prop :=
  ∃ fuel depth, unary fuel { cursor with depth := depth } = .ok e after

/-- Whether operators follow at a cursor, each with an operand behind it. How much room there is
does not count. -/
inductive Continues : Cursor → List (Connective × Expr) → Cursor → Prop where
  | stop (cursor : Cursor) (depth : Nat) : Continues cursor [] { cursor with depth := depth }
  | more {cursor next middle after : Cursor} {op : Connective} {e : Expr}
      {links : List (Connective × Expr)} (sign : cursor.connective? = some op)
      (moves : advance cursor = .ok () next) (operand : OperandAt next e middle)
      (rest : Continues middle links after) : Continues cursor ((op, e) :: links) after

/-- Whether tokens write a sequence of operands with operators of at least the given level between
them, and no such operator behind it. -/
structure Flat (level : Nat) (cursor : Cursor) (sequence : Expr × List (Connective × Expr))
    (after : Cursor) : Prop where
  written : ∃ middle, OperandAt cursor sequence.1 middle ∧ Continues middle sequence.2 after
  levels : ∀ link ∈ sequence.2, level ≤ link.1.level
  ends : after.Stops level

section Continues

variable {cursor middle after : Cursor} {links links' : List (Connective × Expr)}

theorem advance_depth {next : Cursor} (depth : Nat) (h : advance cursor = .ok () next) :
    advance { cursor with depth := depth } = .ok () { next with depth := depth } := by
  obtain ⟨tokens, ending, _⟩ := cursor
  unfold advance Cursor.moveTo at h ⊢
  dsimp only at h ⊢
  generalize tokens.tail = rest at *
  cases rest <;> cases ending <;> cases h <;> rfl

/-- How much room there is at first does not count. -/
theorem Continues.of_depth (depth : Nat) (h : Continues cursor links after) :
    Continues { cursor with depth := depth } links after := by
  cases h with
  | stop _ depth' => exact .stop { cursor with depth := depth } depth'
  | more sign moves operand rest => exact .more sign (advance_depth depth moves) operand rest

theorem Continues.trans (first : Continues cursor links middle)
    (second : Continues middle links' after) : Continues cursor (links ++ links') after := by
  induction first with
  | stop cursor depth => exact second.of_depth cursor.depth
  | more sign moves operand _ ih => exact .more sign moves operand (ih second)

theorem Continues.restore (depth : Nat) (h : Continues cursor links after) :
    Continues cursor links { after with depth := depth } := by
  have hend := h.trans (.stop after depth)
  rwa [List.append_nil] at hend

end Continues

/-! ## Climbing -/

section Climbing

variable {cursor after : Cursor}

theorem chain_succ (fuel level : Nat) (left : Expr) (cursor : Cursor) :
    chain (fuel + 1) level left cursor =
      (match cursor.connective? with
        | none => pure left
        | some op =>
          if op.level < level then pure left
          else do
            descend linkCost
            advance
            let right ← climb fuel (op.level + 1)
            chain fuel level (op.join left right) : Parse Expr) cursor :=
  rfl

/-- What a chain does: it ends, or takes an operator and its right operand and goes on. -/
theorem ok_of_chain {fuel level : Nat} {left e : Expr}
    (h : chain (fuel + 1) level left cursor = .ok e after) :
    (e = left ∧ after = cursor ∧ cursor.Stops level) ∨
      ∃ op next right middle, cursor.connective? = some op ∧ level ≤ op.level ∧
        advance { cursor with depth := cursor.depth + linkCost } = .ok () next ∧
        climb fuel (op.level + 1) next = .ok right middle ∧
        chain fuel level (op.join left right) middle = .ok e after := by
  rw [chain_succ] at h
  cases hop : cursor.connective? with
  | none =>
    rw [hop] at h
    cases h
    exact .inl ⟨rfl, rfl, fun op hmem => by simp [hop] at hmem⟩
  | some op =>
    rw [hop] at h
    dsimp only at h
    split at h
    · next hlow =>
      cases h
      refine .inl ⟨rfl, rfl, fun op' hmem => ?_⟩
      obtain rfl := Option.some.inj (hop.symm.trans hmem)
      exact hlow
    · next hhigh =>
      obtain ⟨_, deep, hdescend, h⟩ := bind_eq_ok.mp h
      obtain ⟨-, rfl⟩ := descend_eq_ok.mp hdescend
      obtain ⟨_, next, hadvance, h⟩ := bind_eq_ok.mp h
      obtain ⟨right, middle, hclimb, h⟩ := bind_eq_ok.mp h
      exact .inr ⟨op, next, right, middle, rfl, Nat.not_lt.mp hhigh, hadvance, hclimb, h⟩

/-- What climbing reads with the given fuel: an operand and a chain behind it. -/
def ClimbsWithin (fuel : Nat) : Prop :=
  ∀ level cursor e after, climb fuel level cursor = .ok e after → ∃ tree : Grouping,
    tree.expr = e ∧ tree.Ordered ∧ tree.AtLeast level ∧ after.Stops level ∧
      ∃ middle, OperandAt cursor tree.first middle ∧ Continues middle tree.rest after

/-- What a chain reads with the given fuel behind a grouping whose outermost operator binds at least
as tightly as the next one. -/
def ChainsWithin (fuel : Nat) : Prop :=
  ∀ level (start : Grouping) cursor e after, start.Ordered → start.AtLeast level →
    (∀ op ∈ cursor.connective?, start.AtLeast op.level) →
    chain fuel level start.expr cursor = .ok e after → ∃ tree : Grouping, ∃ links,
      tree.expr = e ∧ tree.Ordered ∧ tree.AtLeast level ∧ after.Stops level ∧
        tree.first = start.first ∧ tree.rest = start.rest ++ links ∧ Continues cursor links after

theorem Grouping.expr_node (op : Connective) (left right : Grouping) :
    (Grouping.node op left right).expr = op.join left.expr right.expr := rfl

theorem chainsWithin_succ {fuel : Nat} (hclimb : ClimbsWithin fuel) (hchain : ChainsWithin fuel) :
    ChainsWithin (fuel + 1) := by
  intro level start cursor e after ordered atLeast fits h
  obtain ⟨rfl, rfl, stops⟩ | ⟨op, next, right, middle, hop, hlevel, hadvance, hright, hrest⟩ :=
    ok_of_chain h
  · exact ⟨start, [], rfl, ordered, atLeast, stops, rfl, (List.append_nil _).symm,
      .stop after after.depth⟩
  · obtain ⟨tree, rfl, hordered, hatLeast, hstops, last, hoperand, hlinks⟩ :=
      hclimb _ next right middle hright
    -- The operand on the right ends before an operator that binds no tighter than this one.
    have hnext : ∀ op' ∈ middle.connective?, (Grouping.node op start tree).AtLeast op'.level :=
      fun op' hmem => Nat.le_of_lt_succ (hstops op' hmem)
    obtain ⟨whole, links, rfl, hwhole, hatWhole, hends, hfirst, hreading, hcontinues⟩ :=
      hchain level (.node op start tree) middle e after
        ⟨ordered, hordered, fits op hop, hatLeast⟩ hlevel hnext (by rwa [Grouping.expr_node])
    refine ⟨whole, (op, tree.first) :: tree.rest ++ links, rfl, hwhole, hatWhole, hends, hfirst,
      ?_, ?_⟩
    · rw [hreading]
      simp [Grouping.rest]
    · have hmoves := advance_depth cursor.depth hadvance
      exact .more hop hmoves hoperand (hlinks.trans hcontinues)

theorem climbsWithin_succ {fuel : Nat} (hchain : ChainsWithin fuel) : ClimbsWithin (fuel + 1) := by
  intro level cursor e after h
  have hrestoring : restoring (unary fuel >>= chain fuel level) cursor = .ok e after := h
  obtain ⟨last, hlast, rfl⟩ := restoring_eq_ok.mp hrestoring
  obtain ⟨left, middle, hunary, hrun⟩ := bind_eq_ok.mp hlast
  obtain ⟨tree, links, rfl, ordered, atLeast, stops, hfirst, hrest, hcontinues⟩ :=
    hchain level (.operand left) middle e last trivial trivial (fun _ _ => trivial) hrun
  refine ⟨tree, rfl, ordered, atLeast, stops, middle, ?_, ?_⟩
  · rw [hfirst]
    exact ⟨fuel, cursor.depth, hunary⟩
  · rw [hrest]
    exact hcontinues.restore cursor.depth

theorem climbs_and_chains (fuel : Nat) : ClimbsWithin fuel ∧ ChainsWithin fuel := by
  induction fuel with
  | zero =>
    exact ⟨fun _ _ _ _ h => (nomatch h), fun _ _ _ _ _ _ _ _ h => (nomatch h)⟩
  | succ fuel ih => exact ⟨climbsWithin_succ ih.2, chainsWithin_succ ih.1 ih.2⟩

end Climbing

/-! ## The sequence is determined by the tokens -/

/-- Whether cursors stand before the same, with whatever room. -/
def Cursor.Alike (cursor other : Cursor) : Prop :=
  cursor.tokens.map Token.aspect = other.tokens.map Token.aspect ∧
    cursor.ending.fault? = other.ending.fault?

section Alike

variable {cursor other after after' : Cursor}

theorem Cursor.Alike.roomier (h : cursor.Alike other) {depth depth' : Nat} (le : depth' ≤ depth) :
    Cursor.Roomier { cursor with depth := depth } { other with depth := depth' } :=
  ⟨h.1, h.2, le⟩

theorem Cursor.Alike.connective? (h : cursor.Alike other) :
    cursor.connective? = other.connective? := by
  have hkind : cursor.tokens.head?.map Token.kind = other.tokens.head?.map Token.kind :=
    (h.roomier (Nat.le_refl 0)).head Prod.fst
  unfold Cursor.connective?
  rw [hkind]

theorem Cursor.Alike.advance (h : cursor.Alike other) (moves : advance cursor = .ok () after)
    (moves' : Source.advance other = .ok () after') : after.Alike after' := by
  have hagree := agrees_advance _ _ (h.roomier (Nat.le_refl 0))
  rw [advance_depth 0 moves, advance_depth 0 moves'] at hagree
  cases hagree with
  | ok _ room => exact ⟨room.tokens, room.ending⟩

/-- An operand is the same with more room and more fuel. -/
theorem OperandAt.ease {e : Expr} (h : OperandAt cursor e after) (alike : cursor.Alike other) :
    ∃ fuel depth, ∀ fuel', fuel ≤ fuel' → ∀ depth', depth' ≤ depth →
      ∃ after', unary fuel' { other with depth := depth' } = .ok e after' ∧ after.Alike after' := by
  obtain ⟨fuel, depth, h⟩ := h
  refine ⟨fuel, depth, fun fuel' hfuel depth' hdepth => ?_⟩
  have hagree := (agrees_recursion hfuel).unary _ _ (alike.roomier hdepth)
  rw [h] at hagree
  generalize unary fuel' { other with depth := depth' } = result at *
  cases hagree with
  | ok answers room =>
    cases answers
    exact ⟨_, rfl, room.tokens, room.ending⟩

theorem Cursor.Alike.trans {third : Cursor} (h : cursor.Alike other) (h' : other.Alike third) :
    cursor.Alike third :=
  ⟨h.1.trans h'.1, h.2.trans h'.2⟩

theorem Cursor.Alike.symm (h : cursor.Alike other) : other.Alike cursor :=
  ⟨h.1.symm, h.2.symm⟩

/-- Which operand is read, and where it ends, depends on the tokens only. -/
theorem OperandAt.unique {e e' : Expr} (h : OperandAt cursor e after)
    (h' : OperandAt other e' after') (alike : cursor.Alike other) :
    e = e' ∧ after.Alike after' := by
  obtain ⟨fuel, depth, hread⟩ := h.ease alike
  obtain ⟨fuel', depth', hread'⟩ := h'.ease ⟨rfl, rfl⟩
  obtain ⟨last, hlast, halike⟩ :=
    hread (max fuel fuel') (Nat.le_max_left _ _) (min depth depth') (Nat.min_le_left _ _)
  obtain ⟨last', hlast', halike'⟩ :=
    hread' (max fuel fuel') (Nat.le_max_right _ _) (min depth depth') (Nat.min_le_right _ _)
  obtain ⟨rfl, rfl⟩ : e = e' ∧ last = last' := by
    rw [hlast] at hlast'
    cases hlast'
    exact ⟨rfl, rfl⟩
  exact ⟨rfl, halike.trans halike'.symm⟩

theorem Continues.unique {level : Nat} {links links' : List (Connective × Expr)}
    (h : Continues cursor links after) (h' : Continues other links' after')
    (alike : cursor.Alike other) (levels : ∀ link ∈ links, level ≤ link.1.level)
    (levels' : ∀ link ∈ links', level ≤ link.1.level) (ends : after.Stops level)
    (ends' : after'.Stops level) : links = links' ∧ after.Alike after' := by
  induction h generalizing other links' with
  | stop cursor depth =>
    cases h' with
    | stop => exact ⟨rfl, alike⟩
    | more sign moves operand rest =>
      have hlow := ends _ (alike.connective?.trans sign)
      exact absurd hlow (Nat.not_lt.mpr (levels' _ List.mem_cons_self))
  | more sign moves operand rest ih =>
    cases h' with
    | stop =>
      have hlow := ends' _ (alike.connective?.symm.trans sign)
      exact absurd hlow (Nat.not_lt.mpr (levels _ List.mem_cons_self))
    | more sign' moves' operand' rest' =>
      obtain rfl := Option.some.inj (sign.symm.trans (alike.connective?.trans sign'))
      obtain ⟨rfl, hmiddle⟩ := operand.unique operand' (alike.advance moves moves')
      obtain ⟨rfl, hafter⟩ := ih rest' hmiddle (List.forall_mem_cons.mp levels).2
        (List.forall_mem_cons.mp levels').2 ends
      exact ⟨rfl, hafter⟩

theorem Flat.unique {level : Nat} {sequence sequence' : Expr × List (Connective × Expr)}
    (h : Flat level cursor sequence after) (h' : Flat level cursor sequence' after') :
    sequence = sequence' ∧ after.Alike after' := by
  obtain ⟨middle, hoperand, hlinks⟩ := h.written
  obtain ⟨middle', hoperand', hlinks'⟩ := h'.written
  obtain ⟨hfirst, halike⟩ := hoperand.unique hoperand' ⟨rfl, rfl⟩
  obtain ⟨hrest, hafter⟩ := hlinks.unique hlinks' halike h.levels h'.levels h.ends h'.ends
  exact ⟨Prod.ext hfirst hrest, hafter⟩

end Alike

/-- **Precedence climbing groups a sequence of operands and operators in the one way that their
levels ask for.** What it reads at a level is a sequence of operands with operators of at least that
level between them, up to where no such operator follows; the tokens write no other one; and the
expression is that of the only ordered grouping of the sequence. -/
theorem climb_grouping {fuel level : Nat} {cursor after : Cursor} {e : Expr}
    (accepts : climb fuel level cursor = .ok e after) :
    (∃ sequence, Flat level cursor sequence after) ∧
    ∀ sequence last, Flat level cursor sequence last → last.Alike after ∧
      ∃ tree : Grouping, tree.expr = e ∧ tree.reading = sequence ∧ tree.Ordered ∧
        ∀ other : Grouping, other.reading = sequence → other.Ordered → other = tree := by
  obtain ⟨tree, rfl, ordered, atLeast, stops, written⟩ :=
    (climbs_and_chains fuel).1 level cursor e after accepts
  have flat : Flat level cursor tree.reading after :=
    ⟨written, ordered.level_le atLeast, stops⟩
  refine ⟨⟨tree.reading, flat⟩, fun sequence last h => ?_⟩
  obtain ⟨rfl, halike⟩ := h.unique flat
  exact ⟨halike, tree, rfl, rfl, ordered, fun other hreading hother =>
    hother.eq_of_reading ordered hreading⟩

/-- The tokens of `a - b / c * d`. -/
def mixedCursor : Cursor where
  tokens := [⟨.identifier "a", 0, 1, false⟩, ⟨.symbol .minus, 2, 3, false⟩,
    ⟨.identifier "b", 4, 5, false⟩, ⟨.symbol .slash, 6, 7, false⟩,
    ⟨.identifier "c", 8, 9, false⟩, ⟨.symbol .times, 10, 11, false⟩,
    ⟨.identifier "d", 12, 13, false⟩]
  ending := .complete 13 false
  depth := 6

/-- The operands and operators that they write. -/
def mixedSequence : Expr × List (Connective × Expr) :=
  (.identifier "a", [(.binary .subtract, .identifier "b"), (.binary .divide, .identifier "c"),
    (.binary .multiply, .identifier "d")])

/-- The expression that they are read as. -/
def mixedExpr : Expr :=
  .binary .subtract (.identifier "a")
    (.binary .multiply (.binary .divide (.identifier "b") (.identifier "c")) (.identifier "d"))

/-- Division and multiplication group from the left, inside the subtraction. -/
theorem climb_grouping_mixed : ∃ after, ∃ tree : Grouping,
    climb 20 loosestLevel mixedCursor = .ok mixedExpr after ∧
      Flat loosestLevel mixedCursor mixedSequence after ∧
      tree.expr = mixedExpr ∧ tree.reading = mixedSequence ∧ tree.Ordered := by
  let ahead (count : Nat) : Cursor :=
    { mixedCursor with tokens := mixedCursor.tokens.drop count }
  have accepted : (match climb 20 loosestLevel mixedCursor with
      | .ok _ _ => true
      | .error _ _ => false) = true := by decide +kernel
  obtain ⟨e, after, accepts⟩ : ∃ e after, climb 20 loosestLevel mixedCursor = .ok e after := by
    cases h : climb 20 loosestLevel mixedCursor with
    | ok e after => exact ⟨e, after, rfl⟩
    | error e after =>
      rw [h] at accepted
      cases accepted
  have moves : advance (ahead 1) = .ok () (ahead 2) ∧ advance (ahead 3) = .ok () (ahead 4) ∧
      advance (ahead 5) = .ok () (ahead 6) := ⟨rfl, rfl, rfl⟩
  have operands : OperandAt (ahead 2) (.identifier "b") (ahead 3) ∧
      OperandAt (ahead 4) (.identifier "c") (ahead 5) ∧
      OperandAt (ahead 6) (.identifier "d") (ahead 7) :=
    ⟨⟨3, 6, rfl⟩, ⟨3, 6, rfl⟩, ⟨3, 6, rfl⟩⟩
  have hlinks : Continues (ahead 1) mixedSequence.2 (ahead 7) :=
    .more rfl moves.1 operands.1 <| .more rfl moves.2.1 operands.2.1 <|
      .more rfl moves.2.2 operands.2.2 (.stop (ahead 7) 6)
  have flat : Flat loosestLevel mixedCursor mixedSequence (ahead 7) :=
    ⟨⟨ahead 1, ⟨3, 6, rfl⟩, hlinks⟩, by decide, fun _ h => by cases h⟩
  let grouped : Grouping := .node (.binary .subtract) (.operand (.identifier "a"))
    (.node (.binary .multiply)
      (.node (.binary .divide) (.operand (.identifier "b")) (.operand (.identifier "c")))
      (.operand (.identifier "d")))
  have ordered : grouped.Ordered := ⟨trivial, ⟨⟨trivial, trivial, trivial, trivial⟩, trivial,
    Nat.le_refl _, trivial⟩, trivial, Nat.le_refl _⟩
  obtain ⟨⟨sequence, hflat⟩, hall⟩ := climb_grouping accepts
  obtain ⟨rfl, -⟩ := hflat.unique flat
  obtain ⟨-, tree, rfl, hreading, hordered, hunique⟩ := hall mixedSequence after hflat
  obtain rfl := hunique grouped rfl ordered
  exact ⟨after, grouped, accepts, hflat, rfl, hreading, hordered⟩

end Formulary.Source
