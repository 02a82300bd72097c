import Formulary.Formula
import Formulary.Proofs.Script.Operation

/-!
# Built-in functions that do not look into references

* `Call.Linked` : calls whose arguments are the same up to their references;
* `Builtin.Natural` : functions that do not tell such calls apart;
* `Builtin.natural_standard`, `Formula.natural_ofConfig` : the standard functions are of this kind.
-/

namespace Formulary

/-- Arguments that are the same up to their references. -/
structure Argument.Linked (links : Links) (argument argument' : Argument) : Prop where
  value : argument.value.Linked links argument'.value
  number : argument.number = argument'.number
  truth : argument.truth = argument'.truth

/-- Calls under one name whose arguments are the same up to their references. -/
structure Call.Linked (links : Links) (call call' : Call) : Prop where
  name : call.name = call'.name
  arguments : List.Forall₂ (Argument.Linked links) call.arguments call'.arguments

theorem Call.linked_ofValues {links : Links} {store other : Store}
    (linked : store.Linked links other) (name : String) {values values' : List Value}
    (h : ValuesLinked links values values') :
    (Call.ofValues store name values).Linked links (Call.ofValues other name values') := by
  refine ⟨rfl, ?_⟩
  unfold Call.ofValues
  induction h with
  | nil => exact .nil
  | cons hvalue _ ih => exact .cons ⟨hvalue, linked.toNumber hvalue, hvalue.truth⟩ ih

/-- Functions that answer alike when their arguments are the same up to their references. -/
def Builtin.Natural (builtin : Builtin) : Prop :=
  ∀ (links : Links) (call call' : Call), links.OneToOne → call.Linked links call' →
    ResultsLinked (Value.Linked links) (builtin.evaluate call) (builtin.evaluate call')

theorem Builtin.Natural.call {builtin : Builtin} (natural : builtin.Natural) {links : Links}
    {call call' : Call} (oneToOne : links.OneToOne) (h : call.Linked links call') :
    ResultsLinked (Value.Linked links) (builtin.call call) (builtin.call call') := by
  unfold Builtin.call
  dsimp only
  rw [h.arguments.length_eq, h.name]
  split
  · exact natural links call call' oneToOne h
  · exact .error _

/-! ## Arguments by position -/

theorem Argument.Linked.integer {links : Links} {argument argument' : Argument}
    (h : argument.Linked links argument') : argument.integer = argument'.integer := by
  unfold Argument.integer
  rw [h.value.kindName, h.number]

namespace Call.Linked

variable {links : Links} {call call' : Call}

theorem argument (h : call.Linked links call') (index : Nat) :
    (call.argument index).Linked links (call'.argument index) :=
  rel_getD (rel_getElem? h.arguments index) ⟨.undefined, rfl, rfl⟩

theorem number (h : call.Linked links call') (index : Nat) :
    call.number index = call'.number index :=
  (h.argument index).number

theorem numbers (h : call.Linked links call') : call.numbers = call'.numbers :=
  map_eq_of_forall₂ h.arguments fun _ _ h => h.number

theorem integer (h : call.Linked links call') (index : Nat) :
    call.integer index = call'.integer index := by
  unfold Call.integer
  rw [(h.argument index).integer, h.name]

theorem placesArgument (h : call.Linked links call') (index : Nat) :
    Formulary.placesArgument call index = Formulary.placesArgument call' index := by
  unfold Formulary.placesArgument
  rw [h.integer, h.name]

theorem sumIntegers (h : call.Linked links call') :
    Formulary.sumIntegers call = Formulary.sumIntegers call' := by
  have hfrom : ∀ {arguments arguments' : List Argument},
      List.Forall₂ (Argument.Linked links) arguments arguments' → ∀ index total,
        sumIntegersFrom call index total arguments =
          sumIntegersFrom call' index total arguments' := by
    intro arguments arguments' harguments
    induction harguments with
    | nil => exact fun _ _ => rfl
    | cons hargument _ ih =>
      intro index total
      simp only [sumIntegersFrom]
      rw [hargument.integer, h.name]
      simp only [ih]
  exact hfrom h.arguments 0 0

theorem extremum? (h : call.Linked links call') (better : Float → Float → Bool) :
    Option.Rel (Argument.Linked links) (Formulary.extremum? better call.arguments)
      (Formulary.extremum? better call'.arguments) := by
  have harguments := h.arguments
  generalize call.arguments = arguments at harguments
  generalize call'.arguments = arguments' at harguments
  cases harguments with
  | nil => exact .none
  | @cons best best' arguments arguments' hbest hrest =>
    refine .some ?_
    induction hrest generalizing best best' with
    | nil => exact hbest
    | cons hargument _ ih =>
      simp only [extremumFrom]
      rw [hargument.number, hbest.number]
      split
      · exact ih hargument
      · exact ih hbest

end Call.Linked

/-! ## The standard functions -/

namespace Builtin

/-- A function of the numbers of its arguments. -/
theorem natural_of_number {builtin : Builtin} {compute : Call → Float}
    (eq : ∀ call, builtin.evaluate call = .ok (.number (compute call)))
    (same : ∀ (links : Links) (call call' : Call), call.Linked links call' →
      compute call = compute call') : builtin.Natural := by
  intro links call call' _ h
  rw [eq, eq, same links call call' h]
  exact .ok (.number _)

theorem natural_rounding (name documentation : String) (mode : Number.Rounding) :
    (rounding name documentation mode).Natural := by
  intro links call call' _ h
  simp only [rounding, h.placesArgument, h.number]
  cases placesArgument call' 1 with
  | ok places => exact .ok (.number _)
  | error e => exact .error e

theorem natural_extremum (name documentation : String) (better : Float → Float → Bool) :
    (extremum name documentation better).Natural := by
  intro links call call' _ h
  have hbest := h.extremum? better
  simp only [extremum]
  generalize extremum? better call.arguments = best at hbest
  generalize extremum? better call'.arguments = best' at hbest
  cases hbest with
  | none => exact .ok .undefined
  | some hbest => exact .ok hbest.value

theorem natural_integerSum : integerSum.Natural := by
  intro links call call' _ h
  simp only [integerSum, h.sumIntegers]
  cases sumIntegers call' with
  | ok total => exact .ok (.number _)
  | error e => exact .error e

theorem natural_choice : choice.Natural := by
  intro links call call' _ h
  refine .ok ?_
  rw [show call.truth 0 = call'.truth 0 from (h.argument 0).truth]
  split
  · exact (h.argument 1).value
  · exact (h.argument 2).value

/-- **The standard functions do not look into references.** -/
theorem natural_standard : ∀ builtin ∈ standard, builtin.Natural := by
  simp only [standard, List.forall_mem_cons]
  refine ⟨?_, ?_, ?_, ?_, ?_, ?_, ?_, ?_, ?_, ?_, fun _ h => (nomatch h)⟩
  · exact natural_of_number (fun _ => rfl) fun _ _ _ h => congrArg Float.abs (h.number 0)
  · exact natural_of_number (fun _ => rfl) fun _ _ _ h => congrArg Number.mean h.numbers
  · exact natural_rounding _ _ _
  · exact natural_rounding _ _ _
  · exact natural_rounding _ _ _
  · exact natural_extremum _ _ _
  · exact natural_extremum _ _ _
  · exact natural_integerSum
  · exact natural_of_number (fun _ => rfl) fun _ _ _ h => congrArg Number.sum h.numbers
  · exact natural_choice

end Builtin

/-! ## Registries -/

/-- Whether all built-in functions of a provider are of this kind. -/
def Provider.Natural (provider : Provider) : Prop :=
  ∀ name builtin, provider.functions.get? name = some builtin → builtin.Natural

theorem Provider.Natural.add {provider : Provider} (natural : provider.Natural) {builtin : Builtin}
    (h : builtin.Natural) : (provider.add builtin).Natural := by
  intro name found hget
  unfold Provider.add at hget
  rw [Table.get?_put] at hget
  split at hget
  · cases hget
    exact h
  · exact natural name found hget

theorem Provider.Natural.addAlias {provider : Provider} (natural : provider.Natural)
    (further target : String) : (provider.addAlias further target).Natural := by
  unfold Provider.addAlias
  split
  · next builtin htarget =>
    intro name found hget
    rw [Table.get?_put] at hget
    split at hget
    · cases hget
      exact natural target builtin htarget
    · exact natural name found hget
  · exact natural

theorem Provider.natural_standard (id : Nat) : (Provider.standard id).Natural := by
  refine Provider.Natural.addAlias ?_ _ _
  have hadded : ∀ (builtins : List Builtin) (provider : Provider),
      (∀ builtin ∈ builtins, builtin.Natural) → provider.Natural →
      (builtins.foldl Provider.add provider).Natural := by
    intro builtins
    induction builtins with
    | nil => exact fun _ _ h => h
    | cons builtin rest ih =>
      intro provider hbuiltins h
      obtain ⟨hfirst, hrest⟩ := List.forall_mem_cons.mp hbuiltins
      exact ih _ hrest (h.add hfirst)
  exact hadded _ _ Builtin.natural_standard fun _ _ h => (nomatch h)

/-- Whether all built-in functions of a registry are of this kind. -/
def Registry.Natural (registry : Registry) : Prop :=
  ∀ name builtin, registry.builtin? name = some builtin → builtin.Natural

theorem Registry.natural_of_providers {registry : Registry}
    (h : ∀ provider ∈ registry.providers, provider.Natural) : registry.Natural := by
  intro name builtin hbuiltin
  obtain ⟨provider, hmem, hget⟩ := List.exists_of_findSome?_eq_some hbuiltin
  exact h provider hmem name builtin hget

/-- **An engine with the standard functions only has no others.** -/
theorem Formula.natural_ofConfig (config : Config) :
    (Formula.ofConfig config).registry.Natural := by
  have hproviders : (Formula.ofConfig config).registry.providers = [.standard 0] := rfl
  refine Registry.natural_of_providers ?_
  rw [hproviders]
  exact List.forall_mem_singleton.mpr (Provider.natural_standard 0)

end Formulary
