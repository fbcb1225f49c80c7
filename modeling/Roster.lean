import Roster.Name
import Roster.Text.Span
import Roster.Text.Split
import Roster.Text.Printable
import Roster.Text.Quoted
import Roster.Expr.Basic
import Roster.Expr.Render
import Roster.Expr.Equiv
import Roster.Expr.Hash
import Roster.Token.Basic
import Roster.Token.Lexer
import Roster.Parse.Error
import Roster.Parse.State
import Roster.Parse.Program
import Roster.Binding.Environment
import Roster.Binding.View
import Roster.Binding.Dependencies
import Roster.Evaluation.Error
import Roster.Evaluation.Snapshot
import Roster.Evaluation.Independence
import Roster.Evaluation.Basic
import Roster.Files.Fault
import Roster.Files.Path
import Roster.Files.Store
import Roster.Files.Directory
import Roster.Session.Settings
import Roster.Session.Response
import Roster.Session.SavedText
import Roster.Session.Basic
import Roster.Session.Console
import Roster.CommandLine
import Roster.Main
import Roster.Proofs.Binding.Reads
import Roster.Proofs.Binding.Walk
import Roster.Proofs.Evaluation.Equations
import Roster.Proofs.Evaluation.Checks
import Roster.Proofs.Evaluation.Effects
import Roster.Proofs.Evaluation.Simulation
import Roster.Proofs.Evaluation.Commits
import Roster.Proofs.Evaluation.Acyclic
import Roster.Proofs.Evaluation.Termination
import Roster.Proofs.Evaluation.Outcomes
import Roster.Proofs.Evaluation.Composition
import Roster.Proofs.Token.Pieces
import Roster.Proofs.Token.Spelling
import Roster.Proofs.Token.Lexemes
import Roster.Proofs.Token.Boundaries
import Roster.Proofs.Token.WhiteSpace
import Roster.Proofs.Token.Layout
import Roster.Proofs.Parse.Spacing
import Roster.Proofs.Parse.Chains
import Roster.Proofs.Parse.Grammar
import Roster.Proofs.Parse.Acceptance
import Roster.Proofs.Parse.Cursor
import Roster.Proofs.Parse.RoundTrip
import Roster.Proofs.Parse.Parentheses
import Roster.Proofs.Parse.Refusal
import Roster.Proofs.Evaluation.Footprint
import Roster.Proofs.Evaluation.ReadOnly
import Roster.Proofs.Evaluation.Overlays
import Roster.Proofs.Evaluation.Complete
import Roster.Proofs.Evaluation.Hereditary
import Roster.Proofs.Evaluation.Order
import Roster.Proofs.Session.Loading
import Roster.Proofs.Session.SavedLines
import Roster.Proofs.Session.Sources
import Roster.Proofs.Session.Saving
import Roster.Proofs.Session.Restore
import Roster.Proofs.Session.Reload
import Roster.Proofs.Session.Sequence
import Roster.Proofs.Session.Answers
import Roster.Proofs.Session.ConsoleLines
import Roster.Proofs.Evaluation.Cycles
import Roster.Proofs.Evaluation.PlainDefinition
import Roster.Proofs.Evaluation.Snapshots
import Roster.Proofs.Files.Written
import Roster.Proofs.Expr.Equality
