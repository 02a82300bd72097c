import Formulary.CommandLine.Files
import Formulary.CommandLine.Options
import Formulary.Dispatch
import Formulary.Json.Writing

/-!
# Answers on the command line

* `Invocation.answer` : the output of an invocation, or what went wrong;
* `answer` : the same from arguments.

A message names what was being done, then the error, then what the error rests on.
-/

namespace Formulary.CommandLine

/-- What the program answers. -/
inductive Outcome where
  | output (text : String)
  | failed (message : String)
  /-- The arguments ask for nothing that there is. -/
  | misused
  deriving DecidableEq, Repr

/-! ## Messages -/

/-- The message of a failure. The failure of a function rests on an error with the same wording,
which is not repeated where the wording is about JSON. -/
def failureMessage : Failure → String
  | .evaluation (.function (.invalidArgument name index detail)) =>
    let message := (FunctionError.invalidArgument name index detail).message
    if detail = Json.faultText then message else message ++ ": " ++ message
  | .evaluation (.function error) => error.message ++ ": " ++ error.message
  | failure => failure.message

/-- The answer, or the message of the failure. -/
def orMessage {α : Type} : Except Failure α → Except String α
  | .ok a => .ok a
  | .error failure => .error (failureMessage failure)

/-- The answer, or a message that says what was being done. -/
def inStep {α : Type} (step : String) : Except String α → Except String α
  | .ok a => .ok a
  | .error message => .error (step ++ ": " ++ message)

/-! ## Inputs -/

/-- The settings of a file, or the standard ones without a file. -/
def readConfig (files : Files) : Option String → Except String Config
  | none => .ok .standard
  | some path => do
    let step := "reading config file '" ++ path ++ "'"
    let text ← inStep step ((files path).mapError FileFault.message)
    match Config.read? text with
    | some config => return config
    | none => throw (failureMessage .json)

/-- The document of a file. -/
def readDocument (files : Files) (path : String) : Except String Document :=
  match files path with
  | .ok text => orMessage (Document.read text)
  | .error fault => .error ("I/O error: " ++ fault.message ++ ": " ++ fault.message)

/-- The JSON value of a text. -/
def readJson (text : String) : Except String Json :=
  match Json.read? text with
  | some json => .ok json
  | none => .error Json.faultText

/-- A variable written as a name, an equals sign and JSON. Blanks around the name do not count. -/
def readVariable (text : String) : Except String (String × Json) :=
  let name := text.toList.takeWhile (· != '=')
  match text.toList.dropWhile (· != '=') with
  | [] => .error ("variable '" ++ text ++ "' is not NAME=JSON")
  | _ :: value => do
    let step := "parsing value of variable '" ++ String.ofList name ++ "'"
    let json ← inStep step (readJson (String.ofList value))
    return (String.ofList (Text.trim name), json)

/-- The members of the JSON object of a text. -/
def readInput (text : String) : Except String Members := do
  match ← inStep "parsing trigger context" (readJson text) with
  | .object members => return members
  | _ => throw "trigger context must be a JSON object"

/-! ## Commands -/

/-- The text of a JSON value on lines of its own. -/
def printed (isPretty : Bool) (json : Json) : String :=
  (if isPretty then json.pretty else json.compact) ++ "\n"

/-- The engine with the functions of a document, if there is one. -/
def withFunctions (files : Files) (formula : Formula) : Option String → Except String Formula
  | none => .ok formula
  | some path => do
    let document ← inStep ("loading functions from '" ++ path ++ "'") (readDocument files path)
    return formula.registerAll document.functions

/-- The output of a command. -/
def Command.answer (fuel : Nat) (files : Files) (isPretty : Bool) (formula : Formula) :
    Command → Except String String
  | .eval script settings functions => do
    let formula ← withFunctions files formula functions
    let members ← settings.mapM readVariable
    let work := do Work.toJson (← formula.evaluate fuel script (sortMembers members))
    return printed isPretty (← orMessage (formula.perform work).answer)
  | .refs script => return String.join ((references script).map (· ++ "\n"))
  | .trigger id path input => do
    let document ← inStep ("loading catalog '" ++ path ++ "'") (readDocument files path)
    let formula := formula.registerAll document.functions
    let input ← readInput input
    let work := formula.fire fuel (.ofDocument document) id input
    return printed isPretty (.object (← orMessage (formula.perform work).answer))

/-- The output of an invocation. -/
def Invocation.answer (fuel : Nat) (files : Files) (invocation : Invocation) :
    Except String String := do
  let config ← readConfig files invocation.config
  invocation.command.answer fuel files invocation.isPretty (.ofConfig config)

/-- The files that an invocation reads. -/
def Invocation.paths (invocation : Invocation) : List String :=
  invocation.config.toList ++
    match invocation.command with
    | .eval _ _ functions => functions.toList
    | .refs _ => []
    | .trigger _ catalog _ => [catalog]

/-- What the program answers to arguments. -/
def answer (fuel : Nat) (files : Files) (arguments : List String) : Outcome :=
  match Invocation.ofArguments? arguments with
  | none => .misused
  | some invocation =>
    match invocation.answer fuel files with
    | .ok text => .output text
    | .error message => .failed message

end Formulary.CommandLine
