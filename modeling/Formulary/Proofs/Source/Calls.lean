import Formulary.Proofs.Function.Reference
import Formulary.Proofs.Loading.Preparation
import Formulary.Proofs.Source.Lexing
import Formulary.Proofs.Source.Reading

/-!
# Which calls are references

* `IsReferable` : names that a reference can have;
* `mem_references` : such a name before a parenthesis is a reference;
* `Program.references_of_call` : a name that a program calls is called in its tokens, and is a
  reference where the parenthesis stands directly behind it.
-/

namespace Formulary

/-- Whether a name is a dollar sign and something that the name of a reference is made of: no
further dollar sign and no blank. -/
def IsReferable (name : String) : Prop :=
  ∃ rest, name.toList = '$' :: rest ∧ rest ≠ [] ∧ ∀ c ∈ rest, c ≠ '$' ∧ Text.isBlank c = false

/-- **A name directly before a parenthesis is a reference.** -/
theorem mem_references {name text : String} (referable : IsReferable name)
    (spelt : ∀ c ∈ name.toList, Source.isNameRest c = true)
    (stands : name.toList ++ ['('] <:+: text.toList) : name ∈ references text := by
  obtain ⟨rest, hname, hrest, hplain⟩ := referable
  obtain ⟨before, after, htext⟩ := stands
  have hparts : ∀ c ∈ rest, c ≠ '$' ∧ c ≠ '(' ∧ c ≠ ')' ∧ Text.isBlank c = false := by
    intro c hc
    obtain ⟨hdollar, hblank⟩ := hplain c hc
    have hspelt := spelt c (by simp [hname, hc])
    refine ⟨hdollar, ?_, ?_, hblank⟩
    · rintro rfl
      exact absurd hspelt (by decide)
    · rintro rfl
      exact absurd hspelt (by decide)
  have hcalled : CalledAt text.toList before.length name :=
    ⟨⟨rest, hname, hrest, hparts⟩, after, by simp [← htext]⟩
  rw [references, List.mem_eraseDups]
  exact mem_referencesFrom.mpr ⟨_, hcalled⟩

/-- What a text refers to is loaded behind a preparation, if something serves it and it has not been
left half loaded. -/
theorem Formula.loaded_of_prepare {formula : Formula} {fuel : Nat} {text name : String}
    {context after : Context} (mem : name ∈ references text)
    (done : formula.prepare fuel text context = .ok () after)
    (serves : formula.registry.Serves name) (whole : context.ledger.state name ≠ .loading) :
    after.ledger.state name = .loaded := by
  have hloads := loads_of_prepare done
  cases hstate : context.ledger.state name with
  | notLoaded => exact (hloads.installed_of_walks (.root mem) serves hstate).1
  | loading => exact absurd hstate whole
  | loaded => exact hloads.loaded_kept hstate

namespace Source

/-- Whether the parenthesis of a call stands directly behind the name that is called. -/
structure CallSite.Direct {all : List Token} {name : String} (site : CallSite all name) : Prop where
  open_next : site.closings = []
  adjacent : site.opening.start = site.callee.stop

/-- **A name that is called directly is a reference.** -/
theorem CallSite.Direct.mem_references {text name : String}
    {site : CallSite (tokenize text.toList).tokens name} (direct : site.Direct)
    (referable : IsReferable name) : name ∈ references text := by
  have htokens := site.tokens
  rw [direct.open_next, List.nil_append] at htokens
  obtain ⟨hspelt, hstands⟩ :=
    chars_of_adjacent htokens site.callee_kind site.opening_kind direct.adjacent
  exact Formulary.mem_references referable hspelt hstands

end Source

/-- **Every name that a program calls is called in the tokens of its text,** with nothing but
closing parentheses between the name and the parenthesis of the call. Where that one stands directly
behind a name that a reference can have, the name is a reference of the text, and a preparation for
the text loads it. -/
theorem Program.references_of_call {text : String} {program : Program}
    (parses : Program.parse text = .ok program) {name : String} {arguments : List Expr}
    (calls : .call (.identifier name) arguments ∈ program.expressions) :
    Nonempty (Source.CallSite (Source.tokenize text.toList).tokens name) ∧
    ∀ site : Source.CallSite (Source.tokenize text.toList).tokens name, site.Direct →
      IsReferable name → name ∈ references text ∧
        ∀ (formula : Formula) (fuel : Nat) (context after : Context),
          formula.prepare fuel text context = .ok () after → formula.registry.Serves name →
          context.ledger.state name ≠ .loading → after.ledger.state name = .loaded := by
  refine ⟨Source.callSite_of_program parses calls, fun site direct referable => ?_⟩
  have hmem := direct.mem_references referable
  exact ⟨hmem, fun formula fuel context after done serves whole =>
    Formula.loaded_of_prepare hmem done serves whole⟩

/-- Whether an expression is a call of the given name. -/
def Expr.isCallOf (name : String) : Expr → Bool
  | .call (.identifier callee) _ => callee == name
  | _ => false

theorem exists_call_of_any (text name : String)
    (h : ((Program.parse text).toOption.any fun program =>
      program.expressions.any (Expr.isCallOf name)) = true) :
    ∃ program arguments, Program.parse text = .ok program ∧
      .call (.identifier name) arguments ∈ program.expressions := by
  cases hparse : Program.parse text with
  | error e =>
    rw [hparse] at h
    cases h
  | ok program =>
    rw [hparse] at h
    obtain ⟨e, hmem, hcall⟩ := List.any_eq_true.mp h
    unfold Expr.isCallOf at hcall
    split at hcall
    · rw [beq_iff_eq.mp hcall] at hmem
      exact ⟨program, _, rfl, hmem⟩
    · cases hcall

/-- A text with a call inside another one, in a loop of a function. -/
def nestedCall : String := "function f() \x7b while (x) g($MAX(x)) \x7d"

/-- The place of the inner call. -/
def nestedSite : Source.CallSite (Source.tokenize nestedCall.toList).tokens "$MAX" where
  before := (Source.tokenize nestedCall.toList).tokens.take 11
  callee := ⟨.identifier "$MAX", 27, 31, false⟩
  closings := []
  opening := ⟨.symbol .openParen, 31, 32, false⟩
  after := (Source.tokenize nestedCall.toList).tokens.drop 13
  tokens := by decide +kernel
  callee_kind := rfl
  closings_kind := fun _ h => (nomatch h)
  opening_kind := rfl

/-- The inner call is a reference, and a preparation for the text loads the function. -/
theorem references_of_call_nested :
    "$MAX" ∈ references nestedCall ∧ ∃ after,
      (Formula.ofConfig .lenient).prepare 100 nestedCall (.fresh (.empty 16)) = .ok () after ∧
      after.ledger.state "$MAX" = .loaded := by
  obtain ⟨program, arguments, parses, calls⟩ := exists_call_of_any nestedCall "$MAX"
    (by decide +kernel)
  obtain ⟨-, hsites⟩ := Program.references_of_call parses calls
  have hrest : ∀ c ∈ ['M', 'A', 'X'], c ≠ '$' ∧ Text.isBlank c = false :=
    List.forall_mem_cons.mpr ⟨by decide, List.forall_mem_cons.mpr
      ⟨by decide, List.forall_mem_singleton.mpr (by decide)⟩⟩
  obtain ⟨hmem, hloads⟩ := hsites nestedSite ⟨rfl, rfl⟩
    ⟨['M', 'A', 'X'], by decide, by decide, hrest⟩
  obtain ⟨u, after, done⟩ := Work.succeeds_iff.mp (show
    ((Formula.ofConfig .lenient).prepare 100 nestedCall).succeeds (.fresh (.empty 16)) = true by
      decide +kernel)
  exact ⟨hmem, after, done, hloads _ _ _ _ done (by decide +kernel) (by decide +kernel)⟩

/-- A call with a blank before its parenthesis is no reference. -/
theorem not_mem_references_of_spaced :
    ∃ program arguments, Program.parse "$A ()" = .ok program ∧
      .call (.identifier "$A") arguments ∈ program.expressions ∧ "$A" ∉ references "$A ()" := by
  obtain ⟨program, arguments, parses, calls⟩ := exists_call_of_any "$A ()" "$A"
    (by decide +kernel)
  exact ⟨program, arguments, parses, calls, by decide +kernel⟩

end Formulary
