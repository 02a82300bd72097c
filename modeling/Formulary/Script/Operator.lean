import Formulary.Source.Program
import Formulary.Value.Comparison

/-!
# Operators

* `UnaryOp.apply`, `BinaryOp.apply` : what operators compute from the values of their operands;
* `LogicalOp.settles` : when the left operand decides alone;
* `UpdateOp.apply` : the number after a step by one.
-/

namespace Formulary

/-- The value of a literal. -/
def Literal.value : Literal → Value
  | number x => .number x
  | string s => .string s
  | boolean b => .boolean b
  | null => .null
  | undefined => .undefined

/-- What an operator computes. -/
def UnaryOp.apply (store : Store) : UnaryOp → Value → Value
  | not, value => .boolean !value.truth
  | minus, value => .number (-value.toNumber store)
  | plus, value => .number (value.toNumber store)
  | typeOf, value => .string value.typeName

/-- The sum of two values: texts are put together when one of them is a string after references
have become texts. -/
def add (store : Store) (a b : Value) : Value :=
  let a := a.toPrimitive store
  let b := b.toPrimitive store
  if a.string?.isSome || b.string?.isSome then .string (a.display store ++ b.display store)
  else .number (a.toNumber store + b.toNumber store)

/-- What an operator computes. -/
def BinaryOp.apply (store : Store) (op : BinaryOp) (a b : Value) : Value :=
  match op with
  | .add => Formulary.add store a b
  | .subtract => .number (a.toNumber store - b.toNumber store)
  | .multiply => .number (a.toNumber store * b.toNumber store)
  | .divide => .number (a.toNumber store / b.toNumber store)
  | .modulo => .number (Number.remainder (a.toNumber store) (b.toNumber store))
  | .equal => .boolean (a.looseEqual store b)
  | .notEqual => .boolean !(a.looseEqual store b)
  | .strictEqual => .boolean (a.strictEqual b)
  | .strictNotEqual => .boolean !(a.strictEqual b)
  | .less => .boolean (a.before store true b)
  | .lessEqual => .boolean (a.before store false b)
  | .greater => .boolean (b.before store true a)
  | .greaterEqual => .boolean (b.before store false a)

/-- Whether the left operand is the value of the whole. -/
def LogicalOp.settles : LogicalOp → Value → Bool
  | and, left => !left.truth
  | or, left => left.truth

/-- A number one step on. -/
def UpdateOp.apply : UpdateOp → Float → Float
  | increment, x => x + 1
  | decrement, x => x - 1

end Formulary
