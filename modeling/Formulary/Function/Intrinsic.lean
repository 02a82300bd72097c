import Formulary.Number.Reading

/-!
# Functions that every script has

* `MathFunction` : the numeric functions and what they compute;
* `LogLevel`, `LogEntry`, `ConsoleMethod` : messages and the functions that write them;
* `Intrinsic` : all functions of the global names, with `Intrinsic.name`.
-/

namespace Formulary

/-! ## Numeric functions -/

/-- The numeric functions. -/
inductive MathFunction where
  | abs
  | ceil
  | floor
  | trunc
  | sqrt
  | log
  | exp
  | round
  | sign
  | pow
  | min
  | max
  deriving DecidableEq, Repr

namespace MathFunction

/-- The name of a function. -/
def name : MathFunction → String
  | abs => "abs"
  | ceil => "ceil"
  | floor => "floor"
  | trunc => "trunc"
  | sqrt => "sqrt"
  | log => "log"
  | exp => "exp"
  | round => "round"
  | sign => "sign"
  | pow => "pow"
  | min => "min"
  | max => "max"

/-- All functions, in the order in which they are listed. -/
def all : List MathFunction :=
  [abs, ceil, floor, trunc, sqrt, log, exp, round, sign, pow, min, max]

/-- The sign as one with that sign; zeros and NaN stay as they are. -/
def signOf (x : Float) : Float :=
  if x == 0 || x.isNaN then x else if x < 0 then -1 else 1

/-- The best number of a list that begins with `best`; NaN if there is one among them. -/
def foldNumbers (better : Float → Float → Bool) (best : Float) : List Float → Float
  | [] => best
  | x :: xs =>
    if x.isNaN then Number.nan else foldNumbers better (if better x best then x else best) xs

/-- What a function computes; a missing argument counts as NaN. -/
def apply (f : MathFunction) (arguments : List Float) : Float :=
  let x := (arguments[0]?).getD Number.nan
  match f with
  | abs => x.abs
  | ceil => Number.ceil x
  | floor => Number.floor x
  | trunc => Number.trunc x
  | sqrt => x.sqrt
  | log => x.log
  | exp => x.exp
  | round => Number.floor (x + 0.5)
  | sign => signOf x
  | pow => x.pow ((arguments[1]?).getD Number.nan)
  | min => foldNumbers (fun x best => x < best) Number.infinity arguments
  | max => foldNumbers (fun x best => best < x) (-Number.infinity) arguments

end MathFunction

/-! ## Messages -/

/-- How grave a message is. -/
inductive LogLevel where
  | error
  | warn
  | info
  | debug
  deriving DecidableEq, Repr

/-- The word for a level. -/
def LogLevel.text : LogLevel → String
  | error => "error"
  | warn => "warn"
  | info => "info"
  | debug => "debug"

/-- A message. -/
structure LogEntry where
  level : LogLevel
  message : String
  deriving DecidableEq, Repr

/-- The functions that write messages. -/
inductive ConsoleMethod where
  | log
  | info
  | debug
  | warn
  | error
  deriving DecidableEq, Repr

namespace ConsoleMethod

/-- The name of a function. -/
def name : ConsoleMethod → String
  | log => "log"
  | info => "info"
  | debug => "debug"
  | warn => "warn"
  | error => "error"

/-- The level of the messages that a function writes. -/
def level : ConsoleMethod → LogLevel
  | log => .info
  | info => .info
  | debug => .debug
  | warn => .warn
  | error => .error

/-- All functions, in the order in which they are listed. -/
def all : List ConsoleMethod :=
  [log, info, debug, warn, error]

end ConsoleMethod

/-! ## All of them -/

/-- The functions of the global names. -/
inductive Intrinsic where
  | isNaN
  | isFinite
  | parseFloat
  | parseInt
  | toNumber
  | toText
  | toBoolean
  | math (f : MathFunction)
  | console (method : ConsoleMethod)
  | stringify
  | parse
  deriving DecidableEq, Repr

/-- The name of a function. -/
def Intrinsic.name : Intrinsic → String
  | isNaN => "isNaN"
  | isFinite => "isFinite"
  | parseFloat => "parseFloat"
  | parseInt => "parseInt"
  | toNumber => "Number"
  | toText => "String"
  | toBoolean => "Boolean"
  | math f => f.name
  | console method => method.name
  | stringify => "stringify"
  | parse => "parse"

end Formulary
