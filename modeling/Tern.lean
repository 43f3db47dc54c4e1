import Tern.Bindings
import Tern.CommandLine.Arguments
import Tern.CommandLine.Help
import Tern.CommandLine.Outcome
import Tern.Environment
import Tern.Eval.Basic
import Tern.Eval.Call
import Tern.Eval.Form
import Tern.Eval.Member
import Tern.Eval.Operator
import Tern.Eval.Pattern
import Tern.Eval.Perform
import Tern.Eval.Primitive
import Tern.Expr.Assignment
import Tern.Expr.Basic
import Tern.Expr.Grammar
import Tern.Expr.Parser
import Tern.Expr.Printer
import Tern.Fault
import Tern.Files
import Tern.Heap
import Tern.Host
import Tern.Json
import Tern.Library
import Tern.Main
import Tern.Module
import Tern.Native
import Tern.Number.Binary
import Tern.Number.Printed
import Tern.Number.Read
import Tern.Number.Remainder
import Tern.Number.Shortest
import Tern.Proofs.Agreement
import Tern.Proofs.Aligned
import Tern.Proofs.Attempt
import Tern.Proofs.Balance
import Tern.Proofs.Bare
import Tern.Proofs.Bundled
import Tern.Proofs.Captures
import Tern.Proofs.Chains
import Tern.Proofs.ChangeLog
import Tern.Proofs.Clauses
import Tern.Proofs.Composition
import Tern.Proofs.Compound
import Tern.Proofs.Confinement
import Tern.Proofs.Contents
import Tern.Proofs.Datum
import Tern.Proofs.Delegation
import Tern.Proofs.Destructuring
import Tern.Proofs.Equivalence
import Tern.Proofs.Exception
import Tern.Proofs.Frames
import Tern.Proofs.Fuel
import Tern.Proofs.Gaps
import Tern.Proofs.Growth
import Tern.Proofs.Hosting
import Tern.Proofs.Importing
import Tern.Proofs.Imports
import Tern.Proofs.Keys
import Tern.Proofs.Ladder
import Tern.Proofs.Legible
import Tern.Proofs.Lines
import Tern.Proofs.Listing
import Tern.Proofs.Local
import Tern.Proofs.Logic
import Tern.Proofs.Makes
import Tern.Proofs.MapHistory
import Tern.Proofs.Members
import Tern.Proofs.ModuleRoot
import Tern.Proofs.Moments
import Tern.Proofs.Nested
import Tern.Proofs.Outline
import Tern.Proofs.Outside
import Tern.Proofs.Paired
import Tern.Proofs.Parts
import Tern.Proofs.Pieces
import Tern.Proofs.Placeless
import Tern.Proofs.Primitives
import Tern.Proofs.Printing
import Tern.Proofs.Progress
import Tern.Proofs.Quotation
import Tern.Proofs.Readback
import Tern.Proofs.Recursion
import Tern.Proofs.Reentry
import Tern.Proofs.Relabel
import Tern.Proofs.Reporting
import Tern.Proofs.Respacing
import Tern.Proofs.Retention
import Tern.Proofs.Scanning
import Tern.Proofs.Scoping
import Tern.Proofs.Separation
import Tern.Proofs.Shapes
import Tern.Proofs.Showing
import Tern.Proofs.Similarity
import Tern.Proofs.Splitting
import Tern.Proofs.Targets
import Tern.Proofs.Termination
import Tern.Proofs.Tiling
import Tern.Proofs.TraceFiles
import Tern.Proofs.Traces
import Tern.Proofs.Unambiguous
import Tern.Proofs.Upholds
import Tern.Proofs.Upkeep
import Tern.Proofs.Watching
import Tern.Proofs.WellMade
import Tern.Proofs.Written
import Tern.Run
import Tern.Session
import Tern.SourceError
import Tern.Text.Blank
import Tern.Text.CaseTable
import Tern.Text.LetterCase
import Tern.Text.Quoted
import Tern.Text.Ranges
import Tern.Text.Split
import Tern.Text.Utf8
import Tern.Text.Visible
import Tern.Token.Basic
import Tern.Token.Dump
import Tern.Token.Scan
import Tern.Token.Separator
import Tern.Value.Basic
import Tern.Value.Display
import Tern.Value.Equality
import Tern.Value.Key
