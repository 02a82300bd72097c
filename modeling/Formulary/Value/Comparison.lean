import Formulary.Value.Conversion

/-!
# Comparisons of values

* `sameReference`, `strictEqual` : equality without conversion;
* `looseEqual` : equality after conversion to a common kind;
* `order` : the order of strings by code points and of all other values by number;
* `sameContents` : equality of containers by what they hold.
-/

namespace Formulary.Value

/-- Whether two references refer to the same thing. -/
def sameReference : Value → Value → Bool
  | array a, array b => a == b
  | object a, object b => a == b
  | function a, function b => a == b
  | _, _ => false

/-- Equality of values of one kind; references are equal when they refer to the same thing. -/
def strictEqual : Value → Value → Bool
  | undefined, undefined => true
  | null, null => true
  | boolean a, boolean b => a == b
  | number a, number b => a == b
  | string a, string b => a == b
  | a, b => sameReference a b

/-! ## Equality with conversion -/

/-- A truth value replaced by its number. -/
def numericTruth : Value → Value
  | boolean b => number (if b then 1 else 0)
  | other => other

/-- Equality of two values that are neither missing nor references, after truth values have become
numbers: a number and a string compare as numbers. -/
def looseEqualScalars : Value → Value → Bool
  | number a, number b => a == b
  | string a, string b => a == b
  | number a, string b => a == Number.ofText b.toList
  | string a, number b => Number.ofText a.toList == b
  | _, _ => false

/-- Equality after conversion. Missing values equal one another and nothing else; two references
are equal when they refer to the same thing; one reference alone counts as its text. -/
def looseEqual (store : Store) (a b : Value) : Bool :=
  if a.isMissing || b.isMissing then a.isMissing && b.isMissing
  else if !a.isPrimitive && !b.isPrimitive then sameReference a b
  else looseEqualScalars (numericTruth (a.toPrimitive store)) (numericTruth (b.toPrimitive store))

/-! ## Order -/

/-- Whether `a` stands before `b`, `strict` or not: two strings by code points, all else by number.
NaN stands before nothing and after nothing. -/
def before (store : Store) (strict : Bool) (a b : Value) : Bool :=
  match a.toPrimitive store, b.toPrimitive store with
  | string a, string b => if strict then a < b else !(b < a)
  | a, b =>
    let x := a.toNumber store
    let y := b.toNumber store
    if strict then x < y else x ≤ y

/-! ## Equality of contents -/

/-- Equality of two values, containers by what they hold, as far as `fuel` containers deep. The
order of properties does not matter. -/
def sameContentsWithin (store : Store) : Nat → Value → Value → Bool
  | fuel + 1, array a, array b =>
    a == b ||
      (let xs := (store.elements a).toList
       let ys := (store.elements b).toList
       xs.length == ys.length
         && (xs.zip ys).all fun pair => sameContentsWithin store fuel pair.1 pair.2)
  | fuel + 1, object a, object b =>
    a == b ||
      (let xs := (store.properties a).entries
       let ys := store.properties b
       xs.length == ys.entries.length
         && xs.all fun entry =>
          match ys.get? entry.1 with
          | some value => sameContentsWithin store fuel entry.2 value
          | none => false)
  | _, a, b => strictEqual a b

/-- One more than the number of containers in a store. -/
def containerCount (store : Store) : Nat :=
  store.arrays.size + store.objects.size + 1

/-- Equality of two values, containers by what they hold. -/
def sameContents (store : Store) (a b : Value) : Bool :=
  sameContentsWithin store (containerCount store) a b

end Formulary.Value
