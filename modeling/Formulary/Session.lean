import Formulary.Formula

/-!
# Sessions

* `Session` : an engine, the programs that its contexts share, and contexts under names;
* `Session.within` : work in a context, which is begun when it is first named;
* `Session.replace` : a name given to a new context;
* `Session.renew` : a name given to a new context in the place of the one that it has;
* `Session.apart` : work in a context that is not kept.
-/

namespace Formulary

/-- An engine, the programs that its contexts share, and contexts under names. -/
structure Session where
  formula : Formula
  programs : ProgramCache
  contexts : Table Context

/-- What a step of a session has come to: an answer or a failure, the messages written meanwhile,
and the session after it. -/
structure Stepped (α : Type) where
  answer : Except Failure α
  log : List LogEntry
  session : Session

/-- Goes on behind a step that has not failed; the messages of both stand in order. -/
def Stepped.andThen {α β : Type} (first : Stepped α) (next : α → Session → Stepped β) :
    Stepped β :=
  match first.answer with
  | .ok a =>
    let done := next a first.session
    { done with log := first.log ++ done.log }
  | .error e => ⟨.error e, first.log, first.session⟩

namespace Session

variable {α : Type}

/-- A session without contexts. -/
def ofFormula (formula : Formula) : Session :=
  ⟨formula, formula.newCache, .empty⟩

/-- The session with the context that a piece of work leaves, kept under a name. -/
def keep (session : Session) (name : String) (context : Context) : Session :=
  { session with programs := context.programs, contexts := session.contexts.put name context }

/-- Does a piece of work in a context that has been begun. -/
def resume (session : Session) (name : String) (context : Context) (work : Work α) : Stepped α :=
  let done := work.perform { context with programs := session.programs }
  ⟨done.answer, done.log, session.keep name done.context⟩

/-- Begins a context, which is the answer. -/
def start (session : Session) (beginning : Work Unit) : Stepped Context :=
  let done := beginning.perform (.fresh session.programs)
  ⟨done.answer.map fun _ => done.context, done.log,
    { session with programs := done.context.programs }⟩

/-- Begins a context and keeps it under a name, unless its beginning fails. -/
def replace (session : Session) (name : String) (beginning : Work Unit) : Stepped Unit :=
  (session.start beginning).andThen fun context session =>
    ⟨.ok (), [], session.keep name context⟩

/-- Does a piece of work in a context, which is begun when it is first named. -/
def within (session : Session) (fuel : Nat) (name : String) (work : Work α) : Stepped α :=
  match session.contexts.get? name with
  | some context => session.resume name context work
  | none =>
    (session.start (session.formula.begin fuel)).andThen fun context session =>
      session.resume name context work

/-- Begins a context in the place of the one of a name. A name that is new has its context begun
like in any other step, and then replaced. -/
def renew (session : Session) (fuel : Nat) (name : String) : Stepped Unit :=
  (session.within fuel name (return ())).andThen fun _ session =>
    session.replace name (session.formula.begin fuel)

/-- Does a piece of work in a context that is not kept. -/
def apart (session : Session) (work : Work α) : Stepped α :=
  let done := work.perform (.fresh session.programs)
  ⟨done.answer, done.log, { session with programs := done.context.programs }⟩

end Session

end Formulary
