import Stepwise.Expr.Eval
import Stepwise.Redact
import Stepwise.Command.Split
import Stepwise.Http.Field
import Stepwise.Paths
import Stepwise.Config
import Stepwise.Outcome
import Stepwise.Status
import Stepwise.Script
import Stepwise.Trigger
import Stepwise.Url.Basic
import Stepwise.Registry
import Stepwise.Action.Read
import Stepwise.Issue
import Stepwise.Cli.Assignment
import Stepwise.Run.Process
import Stepwise.Run.Flush
import Stepwise.Session
import Stepwise.Service
import Stepwise.Cli.Plan
import Stepwise.Main
import Stepwise.Proofs.Except
import Stepwise.Proofs.Monitor
import Stepwise.Proofs.Preparation
import Stepwise.Proofs.ExprTree
import Stepwise.Proofs.Failures
import Stepwise.Proofs.Carrying
import Stepwise.Proofs.StepTree
import Stepwise.Proofs.DispatchBound
import Stepwise.Proofs.Stage
import Stepwise.Proofs.Composition
import Stepwise.Proofs.Issues
import Stepwise.Proofs.StaticCheck
import Stepwise.Proofs.Grammar
import Stepwise.Proofs.Grammar.Sound
import Stepwise.Proofs.Grammar.Complete
import Stepwise.Proofs.Cancellation
import Stepwise.Proofs.Screening
import Stepwise.Proofs.Spawning
import Stepwise.Proofs.Lifecycle
import Stepwise.Proofs.Sharing
import Stepwise.Proofs.Recording
import Stepwise.Proofs.Atomicity
import Stepwise.Proofs.Calls
import Stepwise.Proofs.History
import Stepwise.Proofs.Tracking
import Stepwise.Proofs.Comparison
import Stepwise.Proofs.Strictness
import Stepwise.Proofs.LoopLimit
import Stepwise.Proofs.Matching
import Stepwise.Proofs.Undeclared
import Stepwise.Proofs.Reception
import Stepwise.Proofs.Broadcast
import Stepwise.Proofs.Flushing
import Stepwise.Proofs.Following
import Stepwise.Proofs.Listening
import Stepwise.Proofs.Observation
import Stepwise.Proofs.Naming
import Stepwise.Proofs.Excerpt
import Stepwise.Proofs.SnippetCheck
import Stepwise.Proofs.Pasting
import Stepwise.Proofs.Solitude
import Stepwise.Proofs.Turns
import Stepwise.Proofs.Hosting
import Stepwise.Proofs.Scheduling
import Stepwise.Proofs.Storage
import Stepwise.Proofs.Substitution
import Stepwise.Proofs.Passes
import Stepwise.Proofs.Unrolling
import Stepwise.Proofs.Nearest
import Stepwise.Proofs.Rounding
import Stepwise.Proofs.WordArithmetic
import Stepwise.Proofs.Settling
import Stepwise.Proofs.Extent
import Stepwise.Proofs.Coherence
import Stepwise.Proofs.Dependence
import Stepwise.Proofs.Conjunction
import Stepwise.Proofs.IntegerFunctions
import Stepwise.Proofs.Height
import Stepwise.Proofs.Redaction
import Stepwise.Proofs.Diagnosis
import Stepwise.Proofs.Requests
import Stepwise.Proofs.Ownership
import Stepwise.Proofs.Minding
import Stepwise.Proofs.Merging
import Stepwise.Proofs.Lexemes
import Stepwise.Proofs.Assigning
import Stepwise.Proofs.Triggers
import Stepwise.Proofs.Steadiness
import Stepwise.Proofs.Deferring
import Stepwise.Proofs.Lexing
import Stepwise.Proofs.Quoting
import Stepwise.Proofs.Reader
import Stepwise.Proofs.Boundaries
import Stepwise.Proofs.Extremes
