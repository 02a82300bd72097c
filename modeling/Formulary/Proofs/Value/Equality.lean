import Formulary.Proofs.Number.Double
import Formulary.Proofs.Value.Linked

/-!
# Equality with conversion

* `Compares` : how the comparison of two values goes, one conversion after the other;
* `Compares.symm` : the rules are mirrored, so that it goes alike from either side;
* `compares_iff` : it ends for every two values, with what `looseEqual` answers;
* `looseEqual_laws` : what the two equalities have to do with each other.
-/

namespace Formulary

namespace Value

/-- Numbers and strings, which a comparison can be decided between. -/
def isScalar : Value → Bool
  | number _ => true
  | string _ => true
  | _ => false

/-- Whether a value is there and is no truth value. -/
structure IsOther (value : Value) : Prop where
  present : value.isMissing = false
  noTruth : ∀ b, value ≠ boolean b

/-- How a comparison with conversion goes. Missing values equal one another only; values of one kind
compare as such; a string beside a number counts as a number; a truth value is replaced by its
number, whatever stands on the other side; and a reference, beside anything but a reference, by its
text. -/
inductive Compares (store : Store) : Value → Value → Bool → Prop
  | missing {a b : Value} (left : a.isMissing = true) (right : b.isMissing = true) :
    Compares store a b true
  | missingLeft {a b : Value} (left : a.isMissing = true) (right : b.isMissing = false) :
    Compares store a b false
  | missingRight {a b : Value} (left : a.isMissing = false) (right : b.isMissing = true) :
    Compares store a b false
  | numbers (x y : Float) : Compares store (number x) (number y) (x == y)
  | strings (s t : String) : Compares store (string s) (string t) (s == t)
  | booleans (p q : Bool) : Compares store (boolean p) (boolean q) (p == q)
  | numberString (x : Float) (s : String) :
    Compares store (number x) (string s) (x == (string s).toNumber store)
  | stringNumber (s : String) (x : Float) :
    Compares store (string s) (number x) ((string s).toNumber store == x)
  | truthLeft {p : Bool} {b : Value} {answer : Bool} (right : b.IsOther)
    (converted : Compares store (number ((boolean p).toNumber store)) b answer) :
    Compares store (boolean p) b answer
  | truthRight {a : Value} {q : Bool} {answer : Bool} (left : a.IsOther)
    (converted : Compares store a (number ((boolean q).toNumber store)) answer) :
    Compares store a (boolean q) answer
  | references {a b : Value} (left : a.isPrimitive = false) (right : b.isPrimitive = false) :
    Compares store a b (a.sameReference b)
  | referenceLeft {a b : Value} {answer : Bool} (left : a.isPrimitive = false)
    (right : b.isScalar = true) (converted : Compares store (a.toPrimitive store) b answer) :
    Compares store a b answer
  | referenceRight {a b : Value} {answer : Bool} (left : a.isScalar = true)
    (right : b.isPrimitive = false) (converted : Compares store a (b.toPrimitive store) answer) :
    Compares store a b answer

variable {store : Store} {a b : Value} {answer : Bool}

/-! ## From either side -/

theorem sameReference_comm (a b : Value) : a.sameReference b = b.sameReference a := by
  cases a <;> cases b <;> first | rfl | exact Bool.beq_comm

/-- **Each rule has its mirror image.** -/
theorem Compares.symm (h : Compares store a b answer) : Compares store b a answer := by
  induction h with
  | missing left right => exact .missing right left
  | missingLeft left right => exact .missingRight right left
  | missingRight left right => exact .missingLeft right left
  | numbers x y =>
    rw [Number.beq_comm]
    exact .numbers y x
  | strings s t =>
    rw [Bool.beq_comm]
    exact .strings t s
  | booleans p q =>
    rw [Bool.beq_comm]
    exact .booleans q p
  | numberString x s =>
    rw [Number.beq_comm]
    exact .stringNumber s x
  | stringNumber s x =>
    rw [Number.beq_comm]
    exact .numberString x s
  | truthLeft right _ ih => exact .truthRight right ih
  | truthRight left _ ih => exact .truthLeft left ih
  | references left right =>
    rw [sameReference_comm]
    exact .references right left
  | referenceLeft left right _ ih => exact .referenceRight right left ih
  | referenceRight left right _ ih => exact .referenceLeft right left ih

/-! ## Its end -/

theorem isOther_of_isScalar (h : a.isScalar = true) : a.IsOther := by
  cases a with
  | number x => exact ⟨rfl, nofun⟩
  | string s => exact ⟨rfl, nofun⟩
  | _ => cases h

theorem isOther_of_reference (h : a.isPrimitive = false) : a.IsOther := by
  cases a with
  | array ref => exact ⟨rfl, nofun⟩
  | object ref => exact ⟨rfl, nofun⟩
  | function ref => exact ⟨rfl, nofun⟩
  | _ => cases h

/-- The text of a reference is a string. -/
theorem toPrimitive_reference (h : a.isPrimitive = false) (store : Store) :
    a.toPrimitive store = string (a.display store) := by
  rw [toPrimitive, h]
  rfl

/-- A value is missing, a truth value, a scalar or a reference. -/
theorem cases_comparison (a : Value) : a.isMissing = true ∨ (∃ p, a = boolean p) ∨
    a.isScalar = true ∨ a.isPrimitive = false := by
  cases a with
  | undefined => exact .inl rfl
  | null => exact .inl rfl
  | boolean p => exact .inr (.inl ⟨p, rfl⟩)
  | number x => exact .inr (.inr (.inl rfl))
  | string s => exact .inr (.inr (.inl rfl))
  | _ => exact .inr (.inr (.inr rfl))

theorem exists_compares_scalars (store : Store) (left : a.isScalar = true)
    (right : b.isScalar = true) : ∃ answer, Compares store a b answer := by
  cases a with
  | number x =>
    cases b with
    | number y => exact ⟨_, .numbers x y⟩
    | string t => exact ⟨_, .numberString x t⟩
    | _ => cases right
  | string s =>
    cases b with
    | number y => exact ⟨_, .stringNumber s y⟩
    | string t => exact ⟨_, .strings s t⟩
    | _ => cases right
  | _ => cases left

/-- One conversion of the other side is enough beside a scalar. -/
theorem exists_compares_scalar (store : Store) (left : a.isScalar = true) (b : Value) :
    ∃ answer, Compares store a b answer := by
  have other := isOther_of_isScalar left
  rcases cases_comparison b with hb | ⟨q, rfl⟩ | hb | hb
  · exact ⟨_, .missingRight other.present hb⟩
  · obtain ⟨answer, h⟩ := exists_compares_scalars store left
      (b := number ((boolean q).toNumber store)) rfl
    exact ⟨answer, .truthRight other h⟩
  · exact exists_compares_scalars store left hb
  · obtain ⟨answer, h⟩ := exists_compares_scalars store left
      (b := b.toPrimitive store) (by rw [toPrimitive_reference hb]; rfl)
    exact ⟨answer, .referenceRight left hb h⟩

/-- **Every comparison ends,** after two conversions at most. -/
theorem exists_compares (store : Store) (a b : Value) : ∃ answer, Compares store a b answer := by
  rcases cases_comparison a with ha | ⟨p, rfl⟩ | ha | ha
  · cases hb : b.isMissing with
    | true => exact ⟨_, .missing ha hb⟩
    | false => exact ⟨_, .missingLeft ha hb⟩
  · cases hb : b.isMissing with
    | true => exact ⟨_, .missingRight rfl hb⟩
    | false =>
      by_cases htruth : ∃ q, b = boolean q
      · obtain ⟨q, rfl⟩ := htruth
        exact ⟨_, .booleans p q⟩
      · obtain ⟨answer, h⟩ := exists_compares_scalar store
          (a := number ((boolean p).toNumber store)) rfl b
        exact ⟨answer, .truthLeft ⟨hb, fun q hq => htruth ⟨q, hq⟩⟩ h⟩
  · exact exists_compares_scalar store ha b
  · have other := isOther_of_reference ha
    rcases cases_comparison b with hb | ⟨q, rfl⟩ | hb | hb
    · exact ⟨_, .missingRight other.present hb⟩
    · obtain ⟨answer, h⟩ := exists_compares_scalar store
        (a := number ((boolean q).toNumber store)) rfl a
      exact ⟨answer, .truthRight other h.symm⟩
    · obtain ⟨answer, h⟩ := exists_compares_scalar store hb a
      exact ⟨answer, h.symm⟩
    · exact ⟨_, .references ha hb⟩

/-! ## Its answer -/

theorem looseEqual_of_missing (h : (a.isMissing || b.isMissing) = true) :
    a.looseEqual store b = (a.isMissing && b.isMissing) := by
  rw [looseEqual, if_pos h]

theorem looseEqual_truthLeft (right : b.IsOther) (p : Bool) :
    (boolean p).looseEqual store b =
      (number ((boolean p).toNumber store)).looseEqual store b := by
  cases b with
  | undefined => cases right.present
  | null => cases right.present
  | boolean q => exact absurd rfl (right.noTruth q)
  | _ => rfl

theorem looseEqual_truthRight (left : a.IsOther) (q : Bool) :
    a.looseEqual store (boolean q) =
      a.looseEqual store (number ((boolean q).toNumber store)) := by
  cases a with
  | undefined => cases left.present
  | null => cases left.present
  | boolean p => exact absurd rfl (left.noTruth p)
  | _ => rfl

theorem looseEqual_references (left : a.isPrimitive = false) (right : b.isPrimitive = false) :
    a.looseEqual store b = a.sameReference b := by
  have hleft := (isOther_of_reference left).present
  have hright := (isOther_of_reference right).present
  rw [looseEqual, hleft, hright, left, right]
  rfl

theorem looseEqual_referenceLeft (left : a.isPrimitive = false) (right : b.isScalar = true) :
    a.looseEqual store b = (a.toPrimitive store).looseEqual store b := by
  rw [toPrimitive_reference left]
  cases b with
  | number y => cases a <;> first | (cases left; done) | rfl
  | string t => cases a <;> first | (cases left; done) | rfl
  | _ => cases right

theorem looseEqual_referenceRight (left : a.isScalar = true) (right : b.isPrimitive = false) :
    a.looseEqual store b = a.looseEqual store (b.toPrimitive store) := by
  rw [toPrimitive_reference right]
  cases a with
  | number x => cases b <;> first | (cases right; done) | rfl
  | string s => cases b <;> first | (cases right; done) | rfl
  | _ => cases left

/-- A comparison ends with what `looseEqual` answers. -/
theorem Compares.eq_looseEqual (h : Compares store a b answer) :
    a.looseEqual store b = answer := by
  induction h with
  | missing left right => rw [looseEqual_of_missing (by rw [left, right]; rfl), left, right]; rfl
  | missingLeft left right =>
    rw [looseEqual_of_missing (by rw [left]; rfl), left, right]
    rfl
  | missingRight left right =>
    rw [looseEqual_of_missing (by rw [left, right]; rfl), left]
    rfl
  | numbers x y => rfl
  | strings s t => rfl
  | booleans p q => cases p <;> cases q <;> rfl
  | numberString x s => rfl
  | stringNumber s x => rfl
  | truthLeft right _ ih => exact (looseEqual_truthLeft right _).trans ih
  | truthRight left _ ih => exact (looseEqual_truthRight left _).trans ih
  | references left right => exact looseEqual_references left right
  | referenceLeft left right _ ih => exact (looseEqual_referenceLeft left right).trans ih
  | referenceRight left right _ ih => exact (looseEqual_referenceRight left right).trans ih

/-- **Every comparison ends, with what `looseEqual` answers and with nothing else.** -/
theorem compares_iff : Compares store a b answer ↔ a.looseEqual store b = answer := by
  constructor
  · exact Compares.eq_looseEqual
  · rintro rfl
    obtain ⟨answer, h⟩ := exists_compares store a b
    exact h.eq_looseEqual ▸ h

/-! ## Both equalities -/

theorem looseEqual_comm (store : Store) (a b : Value) :
    a.looseEqual store b = b.looseEqual store a :=
  compares_iff.mp (compares_iff.mpr (rfl : b.looseEqual store a = _)).symm

/-- Values of one kind that are no references are compared without conversion. -/
theorem strictEqual_eq_looseEqual (kind : a.typeName = b.typeName) (left : a.isPrimitive = true)
    (right : b.isPrimitive = true) (store : Store) :
    a.strictEqual b = a.looseEqual store b := by
  symm
  rw [← compares_iff]
  cases a with
  | undefined =>
    cases b with
    | undefined => exact .missing rfl rfl
    | _ => simp [typeName] at kind right
  | null =>
    cases b with
    | null => exact .missing rfl rfl
    | _ => simp [typeName, isPrimitive] at kind right
  | boolean p =>
    cases b with
    | boolean q => exact .booleans p q
    | _ => simp [typeName] at kind right
  | number x =>
    cases b with
    | number y => exact .numbers x y
    | _ => simp [typeName] at kind right
  | string s =>
    cases b with
    | string t => exact .strings s t
    | _ => simp [typeName] at kind right
  | _ => cases left

/-- What is equal without conversion is equal with it. -/
theorem looseEqual_of_strictEqual (equal : a.strictEqual b = true) (store : Store) :
    a.looseEqual store b = true := by
  cases hprimitive : a.isPrimitive && b.isPrimitive with
  | true =>
    obtain ⟨left, right⟩ := Bool.and_eq_true_iff.mp hprimitive
    have kind : a.typeName = b.typeName := by
      cases a <;> cases b <;> first | rfl | cases equal
    rw [← strictEqual_eq_looseEqual kind left right, equal]
  | false =>
    have same : a.sameReference b = true := by
      rw [← Store.Linked.strictEqual_eq_sameReference hprimitive, equal]
    have references : a.isPrimitive = false ∧ b.isPrimitive = false := by
      cases a <;> cases b <;> first | exact ⟨rfl, rfl⟩ | cases same
    rw [looseEqual_references references.1 references.2, same]

/-- **Loose equality is decided for every two values, whatever refers to what, in a way that does
not tell the sides apart.** What is strictly equal is loosely equal, and between values of one type
that are no references both come to the same. -/
theorem looseEqual_laws (store : Store) (a b : Value) :
    (∃! answer, Compares store a b answer) ∧ Compares store a b (a.looseEqual store b) ∧
      a.looseEqual store b = b.looseEqual store a ∧
      (a.strictEqual b = true → a.looseEqual store b = true) ∧
      (a.typeName = b.typeName → a.isPrimitive = true → b.isPrimitive = true →
        a.strictEqual b = a.looseEqual store b) := by
  have answered := compares_iff.mpr (rfl : a.looseEqual store b = _)
  refine ⟨⟨_, answered, fun other h => (compares_iff.mp h).symm⟩, answered, ?_, ?_, ?_⟩
  · exact looseEqual_comm store a b
  · exact fun equal => looseEqual_of_strictEqual equal store
  · exact fun kind left right => strictEqual_eq_looseEqual kind left right store

/-- A store with an array that holds itself. -/
def looped : Store := ⟨#[#[.array ⟨0⟩]], #[], #[], #[]⟩

/-- An array that holds itself is loosely equal to itself and, from either side, to its empty
text. -/
theorem looseEqual_laws_looped :
    (array ⟨0⟩).looseEqual looped (array ⟨0⟩) = true ∧
      (array ⟨0⟩).looseEqual looped (string "") = true ∧
      (string "").looseEqual looped (array ⟨0⟩) = true := by
  have text : (array ⟨0⟩).looseEqual looped (string "") = true := by decide +kernel
  refine ⟨(looseEqual_laws looped _ _).2.2.2.1 (by decide), text, ?_⟩
  rw [← (looseEqual_laws looped (array ⟨0⟩) (string "")).2.2.1, text]

end Value

end Formulary
