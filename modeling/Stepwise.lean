import Stepwise.Position
import Stepwise.Token.Basic
import Stepwise.Token.Scan
import Stepwise.Number.Binary
import Stepwise.Number.Decimal
import Stepwise.Number.Shortest
import Stepwise.Number.Text
import Stepwise.Script.Basic
import Stepwise.Script.Render
import Stepwise.Script.Outline
import Stepwise.Parse.Failure
import Stepwise.Parse.Progress
import Stepwise.Parse.Expr
import Stepwise.Parse.Stmt
import Stepwise.Text.Ranges
import Stepwise.Text.Unmarked
import Stepwise.Text.Quoted
import Stepwise.Value.Fault
import Stepwise.Value.Basic
import Stepwise.Value.Primitive
import Stepwise.Store.Table
import Stepwise.Store.Basic
import Stepwise.Text.Segments
import Stepwise.Registry
import Stepwise.Text.Blank
import Stepwise.Value.Typed
import Stepwise.Machine.Basic
import Stepwise.Machine.Step
import Stepwise.Host
import Stepwise.Execution
import Stepwise.Session
import Stepwise.Rehearsal.Host
import Stepwise.Text.Lines
import Stepwise.Console.Arguments
import Stepwise.Console.Report
import Stepwise.Console.Desk
import Stepwise.Text.Alphanumeric
import Stepwise.Pattern.Basic
import Stepwise.Pattern.Read
import Stepwise.Pattern.Support
import Stepwise.Console.Filter
import Stepwise.Console.Basic
import Stepwise.Main
import Stepwise.Proofs.Trail
import Stepwise.Proofs.Usage
import Stepwise.Proofs.Quiet
import Stepwise.Proofs.Agreement
import Stepwise.Proofs.Frames
import Stepwise.Proofs.Lifecycle
import Stepwise.Proofs.Cancellation
import Stepwise.Proofs.Course
import Stepwise.Proofs.Stream
import Stepwise.Proofs.Control
import Stepwise.Proofs.Faults
import Stepwise.Proofs.Grammar
import Stepwise.Proofs.Reading
import Stepwise.Proofs.Statements
import Stepwise.Proofs.Acceptance
import Stepwise.Proofs.Recovery
import Stepwise.Proofs.Layout
import Stepwise.Proofs.Partition
import Stepwise.Proofs.Respacing
import Stepwise.Proofs.Places
import Stepwise.Proofs.MovedScripts
import Stepwise.Proofs.MovedRuns
import Stepwise.Proofs.LayoutIrrelevance
import Stepwise.Proofs.Scopes
import Stepwise.Proofs.Bindings
import Stepwise.Proofs.Digits
import Stepwise.Proofs.Spelling
import Stepwise.Proofs.Legible
import Stepwise.Proofs.Rendering
import Stepwise.Proofs.Calls
import Stepwise.Proofs.CallLimit
import Stepwise.Proofs.Latency
import Stepwise.Proofs.Containment
import Stepwise.Proofs.Strata
import Stepwise.Proofs.Climbing
import Stepwise.Proofs.Unambiguity
import Stepwise.Proofs.Joined
import Stepwise.Proofs.Extension
import Stepwise.Proofs.Boundary
import Stepwise.Proofs.Shadows
import Stepwise.Proofs.ShadowedRuns
import Stepwise.Proofs.Stacks
import Stepwise.Proofs.Pieces
import Stepwise.Proofs.Offenders
import Stepwise.Proofs.Headers
import Stepwise.Proofs.Composition
import Stepwise.Proofs.Trials
import Stepwise.Proofs.Landmarks
import Stepwise.Proofs.LongestMatch
import Stepwise.Proofs.Extent
import Stepwise.Proofs.Slots
import Stepwise.Proofs.Inspection
import Stepwise.Proofs.Waiting
import Stepwise.Proofs.Numerals
import Stepwise.Proofs.TypedLines
import Stepwise.Proofs.ParsingEnds
import Stepwise.Proofs.Instances
import Stepwise.Proofs.Resolution
import Stepwise.Proofs.Outward
import Stepwise.Proofs.ScopeChains
