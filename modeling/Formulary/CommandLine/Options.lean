/-!
# Arguments of the command line

* `OptionSpec` : an option that a command takes;
* `scan?` : the options and the words among arguments;
* `Invocation.ofArguments?` : what arguments ask for, unless they are misused.

An argument that begins with a hyphen is an option; behind `--` every argument is a word. The value
of an option is attached to it or is the next argument, which may not be an option.
-/

namespace Formulary.CommandLine

/-- An option that a command takes. -/
structure OptionSpec where
  name : String
  short : Option Char
  takesValue : Bool
  isRepeatable : Bool

/-- An option with the value given for it; a flag has an empty one. -/
abbrev Given := String × String

/-! ## Single options -/

/-- Whether an argument has the form of an option. -/
def isOption (argument : String) : Bool :=
  argument.startsWith "-" && argument != "-"

/-- The value of an option that none is attached to, and the arguments behind it. -/
def nextValue? (name : String) : List String → Option (Given × List String)
  | [] => none
  | argument :: rest => if isOption argument then none else some ((name, argument), rest)

/-- An option by its long name, with the value attached behind an equals sign if there is one, and
the arguments behind it. -/
def readLong? (specs : List OptionSpec) (name : String) (attached : Option String)
    (rest : List String) : Option (Given × List String) := do
  let spec ← specs.find? fun spec => spec.name == name
  match spec.takesValue, attached with
  | true, some value => some ((name, value), rest)
  | true, none => nextValue? name rest
  | false, none => some ((name, ""), rest)
  | false, some _ => none

/-- The value attached to a short option; an equals sign before it does not count. -/
def attachedValue : List Char → String
  | '=' :: value => String.ofList value
  | value => String.ofList value

/-- Options by their letters, the last of which may take a value, and the arguments behind them. -/
def readShorts? (specs : List OptionSpec) (rest : List String) :
    List Char → Option (List Given × List String)
  | [] => some ([], rest)
  | letter :: letters => do
    let spec ← specs.find? fun spec => spec.short == some letter
    if spec.takesValue then
      if letters.isEmpty then
        let (given, rest) ← nextValue? spec.name rest
        some ([given], rest)
      else some ([(spec.name, attachedValue letters)], rest)
    else
      let (given, rest) ← readShorts? specs rest letters
      some ((spec.name, "") :: given, rest)

/-- The options that an argument gives, and the arguments behind them. -/
def readOption? (specs : List OptionSpec) (argument : String) (rest : List String) :
    Option (List Given × List String) :=
  match argument.toList with
  | '-' :: '-' :: body =>
    let name := body.takeWhile (· != '=')
    let attached :=
      match body.dropWhile (· != '=') with
      | _ :: value => some (String.ofList value)
      | [] => none
    (readLong? specs (String.ofList name) attached rest).map fun (given, rest) => ([given], rest)
  | '-' :: letters => readShorts? specs rest letters
  | _ => none

/-! ## All arguments -/

/-- The options and the words among arguments. -/
structure Scanned where
  options : List Given
  words : List String

/-- Scans arguments; with `untilWord` the scan ends behind the first word, and the arguments behind
it are words too. Every round takes an argument, so that `fuel` need not exceed their number by
more than one. -/
def scanWithin? (specs : List OptionSpec) (untilWord : Bool) :
    Nat → List String → Option Scanned
  | 0, _ => none
  | _ + 1, [] => some ⟨[], []⟩
  | fuel + 1, argument :: rest =>
    if argument = "--" then (if untilWord then none else some ⟨[], rest⟩)
    else if isOption argument then do
      let (given, rest) ← readOption? specs argument rest
      let scanned ← scanWithin? specs untilWord fuel rest
      some ⟨given ++ scanned.options, scanned.words⟩
    else if untilWord then some ⟨[], argument :: rest⟩
    else do
      let scanned ← scanWithin? specs untilWord fuel rest
      some ⟨scanned.options, argument :: scanned.words⟩

/-- How often an option is given. -/
def countGiven (name : String) (options : List Given) : Nat :=
  (options.filter fun given => given.1 == name).length

/-- The options and the words among arguments, unless an option is unknown, lacks its value or is
repeated without leave. -/
def scan? (specs : List OptionSpec) (untilWord : Bool) (arguments : List String) :
    Option Scanned := do
  let scanned ← scanWithin? specs untilWord (arguments.length + 1) arguments
  if specs.all fun spec => spec.isRepeatable || countGiven spec.name scanned.options ≤ 1 then
    some scanned
  else none

/-- The values given for an option, in order. -/
def Scanned.values (scanned : Scanned) (name : String) : List String :=
  (scanned.options.filter fun given => given.1 == name).map Prod.snd

/-- The value given for an option. -/
def Scanned.value? (scanned : Scanned) (name : String) : Option String :=
  (scanned.values name).head?

/-! ## Commands -/

/-- What is to be done. -/
inductive Command where
  /-- Evaluates a script with variables and the functions of a document. -/
  | eval (script : String) (settings : List String) (functions : Option String)
  /-- Lists the references of a script. -/
  | refs (script : String)
  /-- Fires a trigger of a catalog with an input. -/
  | trigger (id catalog input : String)
  deriving DecidableEq, Repr

/-- A command with the file of the settings and the form of the output. -/
structure Invocation where
  config : Option String
  isPretty : Bool
  command : Command
  deriving DecidableEq, Repr

/-- The options of every command. -/
def sharedOptions : List OptionSpec :=
  [⟨"config", none, true, false⟩, ⟨"pretty", some 'p', false, false⟩]

/-- The options of a command of its own. -/
def ownOptions : String → List OptionSpec
  | "eval" => [⟨"var", none, true, true⟩, ⟨"functions", some 'f', true, false⟩]
  | "trigger" => [⟨"catalog", some 'c', true, false⟩, ⟨"context", none, true, false⟩]
  | _ => []

/-- The command of a name with its options and its word. -/
def command? (name : String) (scanned : Scanned) : Option Command :=
  match name, scanned.words with
  | "eval", [script] => some (.eval script (scanned.values "var") (scanned.value? "functions"))
  | "refs", [script] => some (.refs script)
  | "trigger", [id] => do
    let catalog ← scanned.value? "catalog"
    some (.trigger id catalog ((scanned.value? "context").getD "\x7b\x7d"))
  | _, _ => none

/-- What arguments ask for. Shared options stand before the command or behind it; those behind it
count first. -/
def Invocation.ofArguments? (arguments : List String) : Option Invocation := do
  let before ← scan? sharedOptions true arguments
  match before.words with
  | [] => none
  | name :: rest =>
    let behind ← scan? (sharedOptions ++ ownOptions name) false rest
    let command ← command? name behind
    some ⟨(behind.value? "config").or (before.value? "config"),
      (behind.value? "pretty").isSome || (before.value? "pretty").isSome, command⟩

end Formulary.CommandLine
