import Formulary.Catalog.Basic
import Formulary.Catalog.Document
import Formulary.CommandLine.Answer
import Formulary.CommandLine.Files
import Formulary.CommandLine.Options
import Formulary.Config
import Formulary.Context.Basic
import Formulary.Context.Ledger
import Formulary.Dispatch
import Formulary.Failure
import Formulary.Formula
import Formulary.Function.Builtin
import Formulary.Function.Error
import Formulary.Function.Intrinsic
import Formulary.Function.Reference
import Formulary.Function.Registry
import Formulary.Function.Signature
import Formulary.Function.Standard
import Formulary.Json.Basic
import Formulary.Json.Reading
import Formulary.Json.Record
import Formulary.Json.Writing
import Formulary.Main
import Formulary.Number.Binary
import Formulary.Number.Layout
import Formulary.Number.Mean
import Formulary.Number.Reading
import Formulary.Number.Shortest
import Formulary.Script.Error
import Formulary.Script.Evaluation
import Formulary.Script.Global
import Formulary.Script.Hoisting
import Formulary.Script.Machine
import Formulary.Script.Method
import Formulary.Script.Operator
import Formulary.Script.Property
import Formulary.Session
import Formulary.Source.Cache
import Formulary.Source.Cursor
import Formulary.Source.Error
import Formulary.Source.Escape
import Formulary.Source.Grammar
import Formulary.Source.Lexeme
import Formulary.Source.Program
import Formulary.Source.Token
import Formulary.Text.Blank
import Formulary.Text.Case
import Formulary.Text.CaseTable
import Formulary.Text.Search
import Formulary.Value.Basic
import Formulary.Value.Comparison
import Formulary.Value.Conversion
import Formulary.Value.Exchange
import Formulary.Value.Store
import Formulary.Value.Table
import Formulary.Proofs.Sequence
import Formulary.Proofs.Loading.Effect
import Formulary.Proofs.Loading.Success
import Formulary.Proofs.Loading.Order
import Formulary.Proofs.Loading.Noting
import Formulary.Proofs.Loading.Course
import Formulary.Proofs.Loading.Preparation
import Formulary.Proofs.Context.Composed
import Formulary.Proofs.Context.Oblivious
import Formulary.Proofs.Session.Isolation
import Formulary.Proofs.Session.Resizing
import Formulary.Proofs.Script.Composed
import Formulary.Proofs.Context.Unheard
import Formulary.Proofs.Dispatch.Selection
import Formulary.Proofs.Dispatch.Returned
import Formulary.Proofs.Source.Agreement
import Formulary.Proofs.Source.Metered
import Formulary.Proofs.Source.Progress
import Formulary.Proofs.Source.Building
import Formulary.Proofs.Source.Canonical
import Formulary.Proofs.Source.Climbing
import Formulary.Proofs.Source.Definitions
import Formulary.Proofs.Source.Depth
import Formulary.Proofs.Source.Expressions
import Formulary.Proofs.Source.Lawful
import Formulary.Proofs.Source.Lexing
import Formulary.Proofs.Source.Nodes
import Formulary.Proofs.Source.Parts
import Formulary.Proofs.Source.Reading
import Formulary.Proofs.Source.Rescanning
import Formulary.Proofs.Source.RoundTrip
import Formulary.Proofs.Source.Spacing
import Formulary.Proofs.Source.Calls
import Formulary.Proofs.Source.Yielding
import Formulary.Proofs.Script.Flawless
import Formulary.Proofs.Script.Sparing
import Formulary.Proofs.Script.Reached
import Formulary.Proofs.Script.Built
import Formulary.Proofs.Script.Target
import Formulary.Proofs.Script.Leaving
import Formulary.Proofs.Script.Headroom
import Formulary.Proofs.Script.Nesting
import Formulary.Proofs.Script.Operation
import Formulary.Proofs.Function.Natural
import Formulary.Proofs.Value.Corresponding
import Formulary.Proofs.Value.Held
import Formulary.Proofs.Script.Linked
import Formulary.Proofs.Script.Renewal
import Formulary.Proofs.Context.Settled
import Formulary.Proofs.Dispatch.Verdict
import Formulary.Proofs.Script.Modest
import Formulary.Proofs.Number.Double
import Formulary.Proofs.Number.Whole
import Formulary.Proofs.Number.Rounding
import Formulary.Proofs.Number.Digits
import Formulary.Proofs.Number.Text
import Formulary.Proofs.Json.Members
import Formulary.Proofs.Value.Unfolding
import Formulary.Proofs.Value.Importing
import Formulary.Proofs.Value.Nearest
import Formulary.Proofs.Script.Hoisted
import Formulary.Proofs.Script.Overseen
import Formulary.Proofs.Script.Sheltered
import Formulary.Proofs.Script.Counted
import Formulary.Proofs.Script.Slots
import Formulary.Proofs.Source.Spans
import Formulary.Proofs.Catalog.Lookup
import Formulary.Proofs.Loading.Recursion
import Formulary.Proofs.Catalog.Written
import Formulary.Proofs.Source.Appending
import Formulary.Proofs.Source.Following
import Formulary.Proofs.Source.Joining
import Formulary.Proofs.Number.Hexadecimal
import Formulary.Proofs.Source.Escape
import Formulary.Proofs.Source.Quoted
import Formulary.Proofs.Number.Nearest
import Formulary.Proofs.Number.Arithmetic
import Formulary.Proofs.Number.Scientific
import Formulary.Proofs.Number.Literal
import Formulary.Proofs.Value.Equality
import Formulary.Proofs.Number.Truncation
import Formulary.Proofs.Script.Slicing
import Formulary.Proofs.Script.Joined
import Formulary.Proofs.Source.Affording
import Formulary.Proofs.Number.Printing
import Formulary.Proofs.Script.Keyed
import Formulary.Proofs.Text.Search
import Formulary.Proofs.Script.Splitting
import Formulary.Proofs.Number.Addition
import Formulary.Proofs.Script.Characters
import Formulary.Proofs.Number.Signed
import Formulary.Proofs.Function.Sum
import Formulary.Proofs.Number.Ordering
import Formulary.Proofs.Function.Extremum
import Formulary.Proofs.Number.Trimming
import Formulary.Proofs.Number.Fixed
import Formulary.Proofs.Script.Restored
import Formulary.Proofs.Loading.Strict
import Formulary.Proofs.Function.Chained
import Formulary.Proofs.Number.Seventeen
import Formulary.Proofs.Number.Monotone
import Formulary.Proofs.Number.Scaled
import Formulary.Proofs.Number.Held
import Formulary.Proofs.Number.Operations
import Formulary.Proofs.Function.Mean
import Formulary.Proofs.Number.Leading
import Formulary.Proofs.Source.Faults
import Formulary.Proofs.Source.Unscanned
import Formulary.Proofs.Source.Numerals
import Formulary.Proofs.Source.Located
