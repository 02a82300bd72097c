import Formulary.Source.Grammar
import Formulary.Value.Table

/-!
# Programs kept for reuse

* `ProgramCache` : parsed programs under their texts, up to a bound on their number;
* `getOrParse` : the program of a text, parsed only if it is not kept.
-/

namespace Formulary

/-- Parsed programs under their texts. A cache whose bound is zero keeps none. -/
structure ProgramCache where
  bound : Nat
  programs : Table Program

namespace ProgramCache

/-- A cache that keeps nothing yet. -/
def empty (bound : Nat) : ProgramCache := ⟨bound, .empty⟩

/-- How many programs are kept. -/
def size (cache : ProgramCache) : Nat :=
  cache.programs.entries.length

/-- The program kept for a text. -/
def find? (cache : ProgramCache) (text : String) : Option Program :=
  cache.programs.get? text

/-- Forgets all programs. -/
def clear (cache : ProgramCache) : ProgramCache :=
  empty cache.bound

/-- Keeps a program; a cache that is full forgets all others first. -/
def keep (cache : ProgramCache) (text : String) (program : Program) : ProgramCache :=
  if cache.bound = 0 then cache
  else
    let room := if cache.bound ≤ cache.size then cache.clear else cache
    { room with programs := room.programs.put text program }

/-- The program of a text, and the cache that keeps it. A text that is no script is not kept. -/
def getOrParse (cache : ProgramCache) (text : String) :
    Except SyntaxError Program × ProgramCache :=
  match cache.find? text with
  | some program => (.ok program, cache)
  | none =>
    match Program.parse text with
    | .ok program => (.ok program, cache.keep text program)
    | .error e => (.error e, cache)

end ProgramCache

end Formulary
