import Formulary.Proofs.Source.Opening

/-!
# Cursors in a longer text

* `Sequel` : what may follow the tokens of a text, nothing or a semicolon and more;
* `Cursor.Followed`, `Cursor.Joined` : a cursor in a text and one in the text with its sequel,
  before the same token or behind the same statement;
* `Carries` : steps whose answer is the same in the longer text;
* `Proceeds`, `Concludes` : constructs that leave the sequel, and those that may take its semicolon;
* `carries_peek`, `carries_peekEnd`, ... : what such steps may ask of the current token;
* `concludes_endStatement` : the end of a statement.
-/

namespace Formulary.Source

/-- What follows the tokens of a text, and why the text cannot be read to its end. A sequel that is
not empty begins with a semicolon, and `else` does not stand behind it. -/
structure Sequel where
  aspects : List (TokenKind × Bool)
  fault : Option SyntaxError
  begins : aspects = [] ∨ ∃ newline rest, aspects = (.symbol .semicolon, newline) :: rest ∧
    rest.head?.map Prod.fst ≠ some (.keyword .elseWord)

/-- Cursors in a text and in the text with a sequel, at the same depth. No cursor stands behind the
last token of a text that cannot be read to its end. -/
structure Cursor.Beside (sequel : Sequel) (cursor other : Cursor) : Prop where
  ending : cursor.ending.fault? = sequel.fault
  ending' : other.ending.fault? = sequel.fault
  complete : cursor.tokens = [] → sequel.fault = none
  depth : other.depth = cursor.depth

/-- Cursors in a text and in the text with a sequel, before the same token. -/
structure Cursor.Followed (sequel : Sequel) (cursor other : Cursor) : Prop
    extends cursor.Beside sequel other where
  tokens : other.tokens.map Token.aspect = cursor.tokens.map Token.aspect ++ sequel.aspects

/-- Cursors in a text and in the text with a sequel, behind the same statement: its end may have
taken the semicolon of the sequel where the text ended before. -/
inductive Cursor.Joined (sequel : Sequel) (cursor other : Cursor) : Prop
  | followed (h : cursor.Followed sequel other)
  | past (newline : Bool) (beside : cursor.Beside sequel other) (ended : cursor.tokens = [])
    (semicolon :
      sequel.aspects = (.symbol .semicolon, newline) :: other.tokens.map Token.aspect)

section Cursors

variable {sequel : Sequel} {cursor other : Cursor}

theorem Cursor.Followed.withDepth (h : cursor.Followed sequel other) (depth : Nat) :
    ({ cursor with depth := depth } : Cursor).Followed sequel { other with depth := depth } :=
  ⟨⟨h.ending, h.ending', h.complete, rfl⟩, h.tokens⟩

theorem Cursor.Joined.withDepth (h : cursor.Joined sequel other) (depth : Nat) :
    ({ cursor with depth := depth } : Cursor).Joined sequel { other with depth := depth } := by
  cases h with
  | followed h => exact .followed (h.withDepth depth)
  | past newline beside ended semicolon =>
    exact .past newline ⟨beside.ending, beside.ending', beside.complete, rfl⟩ ended semicolon

theorem Cursor.Followed.length (h : cursor.Followed sequel other) :
    other.tokens.length = cursor.tokens.length + sequel.aspects.length := by
  simpa using congrArg List.length h.tokens

/-- Where the text goes on, the current tokens are of the same kind behind the same gap. -/
theorem Cursor.Followed.head (h : cursor.Followed sequel other) (present : cursor.tokens ≠ []) :
    other.tokens.head?.map Token.aspect = cursor.tokens.head?.map Token.aspect := by
  obtain ⟨token, rest, htokens⟩ := List.exists_cons_of_ne_nil present
  rw [← List.head?_map, h.tokens, htokens]
  rfl

theorem Cursor.Followed.kind (h : cursor.Followed sequel other) (present : cursor.tokens ≠ []) :
    other.tokens.head?.map Token.kind = cursor.tokens.head?.map Token.kind := by
  simpa [Option.map_map, Function.comp_def, Token.aspect] using
    congrArg (Option.map Prod.fst) (h.head present)

/-- Where the text ends, the sequel is empty or its semicolon is next. -/
theorem Cursor.Followed.kind_of_ended (h : cursor.Followed sequel other)
    (ended : cursor.tokens = []) :
    other.tokens.head?.map Token.kind = none ∨
      other.tokens.head?.map Token.kind = some (.symbol .semicolon) := by
  have htokens := h.tokens
  rw [ended, List.map_nil, List.nil_append] at htokens
  have hkind : other.tokens.head?.map Token.kind = sequel.aspects.head?.map Prod.fst := by
    rw [← htokens, List.head?_map, Option.map_map]
    rfl
  rw [hkind]
  rcases sequel.begins with hnil | ⟨newline, rest, hcons, -⟩
  · exact .inl (by rw [hnil]; rfl)
  · exact .inr (by rw [hcons]; rfl)

theorem Cursor.Followed.tail (h : cursor.Followed sequel other) (present : cursor.tokens ≠ [])
    (complete : cursor.tokens.tail = [] → sequel.fault = none) :
    ({ cursor with tokens := cursor.tokens.tail } : Cursor).Followed sequel
      { other with tokens := other.tokens.tail } := by
  refine ⟨⟨h.ending, h.ending', complete, h.depth⟩, ?_⟩
  obtain ⟨token, rest, htokens⟩ := List.exists_cons_of_ne_nil present
  dsimp only
  rw [List.map_tail, h.tokens, htokens]
  rfl

end Cursors

/-! ## Steps -/

/-- Whether an answer of a step, begun in a text where the tokens still to read have a property, is
the answer of a step begun in the text with a sequel, and where they stop is related. -/
def Carries {α : Type} (sequel : Sequel) (pre : List Token → Prop) (r : Cursor → Cursor → Prop)
    (step step' : Parse α) : Prop :=
  ∀ cursor other a after, cursor.Followed sequel other → pre cursor.tokens →
    step cursor = .ok a after → ∃ after', step' other = .ok a after' ∧ r after after'

/-- Whether tokens with a property are left. -/
def AtToken (pre : List Token → Prop) (tokens : List Token) : Prop :=
  tokens ≠ [] ∧ pre tokens

/-- Whether a step reads the same in a text with a sequel, which it leaves. -/
abbrev Proceeds {α : Type} (sequel : Sequel) (step : Parse α) : Prop :=
  Carries sequel (fun _ => True) (Cursor.Followed sequel) step step

/-- Whether a step reads the same in a text with a sequel, unless the sequel's semicolon ends it
where the text ended before. -/
abbrev Concludes {α : Type} (sequel : Sequel) (step : Parse α) : Prop :=
  Carries sequel (fun _ => True) (Cursor.Joined sequel) step step

section Steps

variable {α β : Type} {sequel : Sequel} {pre pre' : List Token → Prop}
  {r : Cursor → Cursor → Prop} {step step' : Parse α} {more more' : α → Parse β}

theorem Carries.weaken (h : Carries sequel pre r step step')
    (hpre : ∀ tokens, pre' tokens → pre tokens) : Carries sequel pre' r step step' :=
  fun cursor other a after followed hp hstep =>
    h cursor other a after followed (hpre _ hp) hstep

/-- What holds wherever a step is begun. -/
theorem Carries.at (h : Carries sequel (fun _ => True) r step step') :
    Carries sequel pre r step step' :=
  h.weaken fun _ _ => trivial

theorem Carries.joined (h : Carries sequel pre (Cursor.Followed sequel) step step') :
    Carries sequel pre (Cursor.Joined sequel) step step' := by
  intro cursor other a after followed hpre hstep
  obtain ⟨after', hstep', hafter⟩ := h cursor other a after followed hpre hstep
  exact ⟨after', hstep', .followed hafter⟩

/-- A step without an answer. -/
theorem carries_of_ne_ok (h : ∀ cursor a after, step cursor ≠ .ok a after) :
    Carries sequel pre r step step' :=
  fun cursor _ a after _ _ hstep => absurd hstep (h cursor a after)

theorem carries_pure (a : α) :
    Carries sequel pre (Cursor.Followed sequel) (pure a) (pure a) := by
  rintro cursor other _ _ followed _ ⟨⟩
  exact ⟨other, rfl, followed⟩

/-- A step behind one that leaves tokens with a property. -/
theorem Carries.bind (first : Carries sequel pre (Cursor.Followed sequel) step step')
    (left : ∀ cursor a after, pre cursor.tokens → step cursor = .ok a after → pre' after.tokens)
    (second : ∀ a, Carries sequel pre' r (more a) (more' a)) :
    Carries sequel pre r (step >>= more) (step' >>= more') := by
  intro cursor other b after followed hpre h
  obtain ⟨a, middle, hstep, hnext⟩ := bind_eq_ok.mp h
  obtain ⟨middle', hstep', hmiddle⟩ := first cursor other a middle followed hpre hstep
  obtain ⟨after', hnext', hafter⟩ :=
    second a middle middle' b after hmiddle (left cursor a middle hpre hstep) hnext
  exact ⟨after', bind_eq_ok.mpr ⟨a, middle', hstep', hnext'⟩, hafter⟩

theorem Carries.next (first : Carries sequel pre (Cursor.Followed sequel) step step')
    (second : ∀ a, Carries sequel (fun _ => True) r (more a) (more' a)) :
    Carries sequel pre r (step >>= more) (step' >>= more') :=
  first.bind (fun _ _ _ _ _ => trivial) second

/-- A step behind one that only looks at the tokens. -/
theorem Carries.looking (first : Proceeds sequel step) (looks : Looks step)
    (second : ∀ a, Carries sequel pre r (more a) (more' a)) :
    Carries sequel pre r (step >>= more) (step >>= more') :=
  Carries.bind first.at
    (fun cursor a after hpre hstep => (looks cursor a after hstep).1 ▸ hpre) second

theorem Carries.map {f : α → β} (first : Carries sequel pre r step step') :
    Carries sequel pre r (do return f (← step)) (do return f (← step')) := by
  intro cursor other b after followed hpre h
  obtain ⟨a, middle, hstep, hpure⟩ := bind_eq_ok.mp h
  cases hpure
  obtain ⟨after', hstep', hafter⟩ := first cursor other a after followed hpre hstep
  exact ⟨after', bind_eq_ok.mpr ⟨a, after', hstep', rfl⟩, hafter⟩

theorem Carries.restoring (stable : ∀ cursor other depth, r cursor other →
      r { cursor with depth := depth } { other with depth := depth })
    (h : Carries sequel pre r step step') :
    Carries sequel pre r (restoring step) (restoring step') := by
  intro cursor other a after followed hpre hstep
  obtain ⟨inner, hinner, rfl⟩ := restoring_eq_ok.mp hstep
  obtain ⟨inner', hinner', hr⟩ := h cursor other a inner followed hpre hinner
  refine ⟨_, restoring_eq_ok.mpr ⟨inner', hinner', rfl⟩, ?_⟩
  rw [followed.depth]
  exact stable inner inner' cursor.depth hr

/-- The tokens are left as they are. -/
theorem Carries.descend {step step' : Parse α} (h : Carries sequel pre r step step') (cost : Nat) :
    Carries sequel pre r (do descend cost; step) (do descend cost; step') := by
  intro cursor other a after followed hpre hrun
  obtain ⟨_, middle, hdescend, hstep⟩ := bind_eq_ok.mp hrun
  obtain ⟨room, rfl⟩ := descend_eq_ok.mp hdescend
  obtain ⟨after', hstep', hafter⟩ :=
    h _ _ a after (followed.withDepth (cursor.depth + cost)) hpre hstep
  refine ⟨after', bind_eq_ok.mpr ⟨(), _, descend_eq_ok.mpr ⟨?_, rfl⟩, ?_⟩, hafter⟩
  · rwa [followed.depth]
  · rwa [followed.depth]

theorem Proceeds.restoring {step : Parse α} (h : Proceeds sequel step) :
    Proceeds sequel (restoring step) :=
  Carries.restoring (fun _ _ depth h => h.withDepth depth) h

theorem Proceeds.nested {step : Parse α} (h : Proceeds sequel step) :
    Proceeds sequel (nested step) :=
  Proceeds.restoring (Carries.descend h descentCost)

theorem Concludes.nested {step : Parse α} (h : Concludes sequel step) :
    Concludes sequel (nested step) :=
  Carries.restoring (fun _ _ depth h => h.withDepth depth) (Carries.descend h descentCost)

/-! ### Looking at tokens -/

section Peek

variable {more more' : Option TokenKind → Parse β}

theorem carries_peekAt
    (present : ∀ kind, Carries sequel (AtToken pre) r (more (some kind)) (more' (some kind))) :
    Carries sequel (AtToken pre) r (peek >>= more) (peek >>= more') := by
  intro cursor other b after followed hpre h
  have hmore : more (cursor.tokens.head?.map Token.kind) cursor = .ok b after := h
  show ∃ after', more' (other.tokens.head?.map Token.kind) other = .ok b after' ∧ r after after'
  rw [followed.kind hpre.1]
  obtain ⟨token, rest, hcons⟩ := List.exists_cons_of_ne_nil hpre.1
  rw [hcons, List.head?_cons, Option.map_some] at hmore ⊢
  exact present token.kind cursor other b after followed hpre hmore

/-- A step that is told by the current token what to do, and needs one. -/
theorem carries_peek
    (present : ∀ kind, Carries sequel (AtToken pre) r (more (some kind)) (more' (some kind)))
    (ended : Needs (more none)) : Carries sequel pre r (peek >>= more) (peek >>= more') := by
  intro cursor other b after followed hpre h
  by_cases htokens : cursor.tokens = []
  · exact absurd h (Needs.ne_ok (refuses_peek ended) htokens)
  · exact carries_peekAt present cursor other b after followed ⟨htokens, hpre⟩ h

/-- A step that does at a semicolon what it does at the end of the text. -/
theorem carries_peekEnd
    (present : ∀ kind, Carries sequel (AtToken pre) r (more (some kind)) (more' (some kind)))
    (same : more' (some (.symbol .semicolon)) = more' none)
    (ended : Carries sequel pre r (more none) (more' none)) :
    Carries sequel pre r (peek >>= more) (peek >>= more') := by
  intro cursor other b after followed hpre h
  by_cases htokens : cursor.tokens = []
  · have hmore : more (cursor.tokens.head?.map Token.kind) cursor = .ok b after := h
    show ∃ after', more' (other.tokens.head?.map Token.kind) other = .ok b after' ∧ r after after'
    rw [htokens] at hmore
    rcases followed.kind_of_ended htokens with hkind | hkind
    · rw [hkind]
      exact ended cursor other b after followed hpre hmore
    · rw [hkind, same]
      exact ended cursor other b after followed hpre hmore
  · exact carries_peekAt present cursor other b after followed ⟨htokens, hpre⟩ h

end Peek

theorem carries_advance :
    Carries sequel (AtToken pre) (Cursor.Followed sequel) advance advance := by
  intro cursor other _ after followed hpre h
  obtain ⟨complete, rfl⟩ := advance_eq_ok.mp h
  rw [followed.ending] at complete
  have htail := followed.tail hpre.1 complete
  refine ⟨_, advance_eq_ok.mpr ⟨fun hnil => ?_, rfl⟩, htail⟩
  have hlength := htail.length
  rw [hnil, List.length_nil] at hlength
  dsimp only at hlength
  rw [followed.ending']
  exact complete (List.eq_nil_of_length_eq_zero (by omega))

/-- What is read off the current token, which is left behind. -/
theorem carries_taken (a : α) :
    Carries sequel (AtToken pre) (Cursor.Followed sequel) (do advance; return a)
      (do advance; return a) :=
  carries_advance.next fun _ => carries_pure a

theorem carries_newlineBefore :
    Carries sequel (AtToken pre) (Cursor.Followed sequel) newlineBefore newlineBefore := by
  rintro cursor other _ _ followed hpre ⟨⟩
  have hhead := congrArg (fun head => (head.map Prod.snd).getD false) (followed.head hpre.1)
  simp only [Option.map_map] at hhead
  exact ⟨other, congrArg (EStateM.Result.ok · other) hhead, followed⟩

/-- Positions differ, so that nothing but errors may depend on them. -/
theorem carries_position {more more' : Nat → Parse β}
    (h : ∀ position position', Carries sequel pre r (more position) (more' position')) :
    Carries sequel pre r (position >>= more) (position >>= more') :=
  fun cursor other b after followed hpre hmore =>
    h cursor.position other.position cursor other b after followed hpre hmore

theorem carries_rounds {more more' : Nat → Parse β}
    (h : ∀ fuel fuel', fuel ≤ fuel' →
      Carries sequel (fun tokens => tokens.length < fuel) r (more fuel) (more' fuel')) :
    Carries sequel pre r (rounds >>= more) (rounds >>= more') := by
  intro cursor other b after followed _ hmore
  have hlength := followed.length
  exact h (cursor.tokens.length + 1) (other.tokens.length + 1) (by omega) cursor other b after
    followed (Nat.lt_succ_self _) hmore

theorem carries_unexpected (expected : String) :
    Carries sequel pre r (unexpected expected : Parse α) (unexpected expected) :=
  carries_of_ne_ok fun _ _ _ => unexpected_ne_ok

theorem carries_throwAt (e : Nat → SyntaxError) :
    Carries sequel pre r (do throw (e (← position)) : Parse α) (do throw (e (← position))) :=
  carries_position fun _ _ => carries_of_ne_ok fun _ _ _ h => nomatch h

/-! ### Choices -/

section Choices

variable {sign : Symbol} {yes yes' no no' : Parse β}

/-- A choice by a sign that a sequel does not begin with. -/
theorem carries_ifSign (hsign : sign ≠ .semicolon)
    (hyes : Carries sequel (AtToken pre) r yes yes') (hno : Carries sequel pre r no no') :
    Carries sequel pre r (do if ← atSign sign then yes else no)
      (do if ← atSign sign then yes' else no') := by
  show Carries sequel pre r
    (peek >>= fun kind => if kind == some (.symbol sign) then yes else no)
    (peek >>= fun kind => if kind == some (.symbol sign) then yes' else no')
  refine carries_peekEnd (fun kind => ?_) ?_ hno
  · split
    · exact hyes
    · exact hno.weaken fun _ h => h.2
  · rw [if_neg (by simp [Ne.symm hsign])]
    rfl

theorem carries_ifWord {word : Keyword} (hyes : Carries sequel (AtToken pre) r yes yes')
    (hno : Carries sequel pre r no no') :
    Carries sequel pre r (do if ← atWord word then yes else no)
      (do if ← atWord word then yes' else no') := by
  show Carries sequel pre r
    (peek >>= fun kind => if kind == some (.keyword word) then yes else no)
    (peek >>= fun kind => if kind == some (.keyword word) then yes' else no')
  refine carries_peekEnd (fun kind => ?_) rfl hno
  split
  · exact hyes
  · exact hno.weaken fun _ h => h.2

/-- A choice by a sign where the other way needs a token. -/
theorem carries_ifSignElse (hyes : Carries sequel (AtToken pre) r yes yes')
    (hno : Carries sequel pre r no no') (needs : Needs no) :
    Carries sequel pre r (do if ← atSign sign then yes else no)
      (do if ← atSign sign then yes' else no') := by
  show Carries sequel pre r
    (peek >>= fun kind => if kind == some (.symbol sign) then yes else no)
    (peek >>= fun kind => if kind == some (.symbol sign) then yes' else no')
  refine carries_peek (fun kind => ?_) needs
  split
  · exact hyes
  · exact hno.weaken fun _ h => h.2

theorem carries_ifNewline (hyes : Carries sequel (AtToken pre) r yes yes')
    (hno : Carries sequel (AtToken pre) r no no') :
    Carries sequel (AtToken pre) r (do if ← newlineBefore then yes else no)
      (do if ← newlineBefore then yes' else no') := by
  have left : ∀ cursor newline after, AtToken pre cursor.tokens →
      newlineBefore cursor = .ok newline after → AtToken pre after.tokens := by
    rintro cursor _ _ hpre ⟨⟩
    exact hpre
  refine carries_newlineBefore.bind left fun newline => ?_
  split
  · exact hyes
  · exact hno

end Choices

theorem proceeds_expectSign (sign : Symbol) : Proceeds sequel (expectSign sign) :=
  carries_ifSignElse carries_advance (carries_unexpected _) (refuses_unexpected _)

theorem proceeds_identifier : Proceeds sequel identifier := by
  refine carries_peek (fun kind => ?_) (refuses_unexpected _)
  split
  · exact carries_taken _
  · exact carries_unexpected _

/-! ### The end of a statement -/

theorem endStatement_of_ended {cursor : Cursor} (ended : cursor.tokens = []) :
    endStatement cursor = .ok () cursor := by
  obtain ⟨tokens, ending, depth⟩ := cursor
  cases ended
  rfl

theorem endStatement_of_semicolon {cursor : Cursor}
    (h : cursor.tokens.head?.map Token.kind = some (.symbol .semicolon)) :
    endStatement cursor = advance cursor := by
  have hpeek : peek cursor = .ok (some (.symbol .semicolon)) cursor :=
    congrArg (EStateM.Result.ok · cursor) h
  unfold endStatement
  rw [bind_of_ok hpeek]

/-- **The semicolon of a sequel ends a statement that the end of the text ended.** -/
theorem concludes_endStatement : Concludes sequel endStatement := by
  intro cursor other _ after followed _ h
  by_cases ended : cursor.tokens = []
  · rw [endStatement_of_ended ended] at h
    cases h
    have htokens := followed.tokens
    rw [ended, List.map_nil, List.nil_append] at htokens
    rcases sequel.begins with hnil | ⟨newline, rest, hcons, -⟩
    · have ended' : other.tokens = [] := List.map_eq_nil_iff.mp (htokens.trans hnil)
      exact ⟨other, endStatement_of_ended ended', .followed followed⟩
    · obtain ⟨token, rest', hother, haspect, hrest⟩ := List.map_eq_cons_iff.mp (htokens.trans hcons)
      have hkind : other.tokens.head?.map Token.kind = some (.symbol .semicolon) := by
        rw [hother]
        exact congrArg (some ∘ Prod.fst) haspect
      rw [endStatement_of_semicolon hkind]
      have complete := followed.complete ended
      refine ⟨_, advance_eq_ok.mpr ⟨fun _ => followed.ending'.trans complete, rfl⟩, ?_⟩
      refine .past newline ⟨followed.ending, followed.ending', followed.complete, followed.depth⟩
        ended ?_
      rw [hcons, hother, List.tail_cons, hrest]
  · have present : Carries sequel (AtToken fun _ => True) (Cursor.Joined sequel) endStatement
        endStatement := by
      refine carries_peekAt fun kind => ?_
      split
      · exact carries_advance.joined
      · exact (carries_pure _).joined
      · exact (carries_pure _).joined
      · exact carries_ifNewline (carries_pure _).joined (carries_unexpected _)
    exact present cursor other _ after followed ⟨ended, trivial⟩ h

end Steps

end Formulary.Source
