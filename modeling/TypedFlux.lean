import TypedFlux.Main
import TypedFlux.Service.Cancellation
import TypedFlux.Service.Executor
import TypedFlux.Proofs.Syntax.Lexemes
import TypedFlux.Proofs.Syntax.Printing
import TypedFlux.Proofs.Syntax.Precedence
import TypedFlux.Proofs.Syntax.Primaries
import TypedFlux.Proofs.Syntax.Expressions
import TypedFlux.Proofs.Syntax.RoundTrip
import TypedFlux.Proofs.Draft.Steps
import TypedFlux.Proofs.Draft.Visits
import TypedFlux.Proofs.Flux.Naming
import TypedFlux.Proofs.Draft.Meaning
import TypedFlux.Proofs.Draft.Clauses
import TypedFlux.Proofs.Draft.Noninterference
import TypedFlux.Proofs.Flux.Scanning
import TypedFlux.Proofs.Flux.Stages
import TypedFlux.Proofs.Draft.Planning
import TypedFlux.Proofs.Draft.Failures
import TypedFlux.Proofs.Draft.Numbering
import TypedFlux.Proofs.Draft.Rendering
import TypedFlux.Proofs.Draft.Acceptance
import TypedFlux.Proofs.Draft.Routing
import TypedFlux.Proofs.Draft.Invariant
import TypedFlux.Proofs.Service.Signals
import TypedFlux.Proofs.Service.Streams
import TypedFlux.Proofs.Service.Requests
import TypedFlux.Proofs.Draft.Selection
import TypedFlux.Proofs.Draft.NormalForms
import TypedFlux.Proofs.Draft.Decoding
import TypedFlux.Proofs.Draft.Slots
import TypedFlux.Proofs.Flux.Lines
import TypedFlux.Proofs.Draft.Windows
import TypedFlux.Proofs.Draft.Orders
import TypedFlux.Proofs.Draft.Matching
import TypedFlux.Proofs.Draft.Regrouping
import TypedFlux.Proofs.Draft.Mirroring
import TypedFlux.Proofs.Draft.Conversions
import TypedFlux.Proofs.Number.Integers
import TypedFlux.Proofs.Syntax.Substitution
import TypedFlux.Proofs.Time.Saturation
import TypedFlux.Proofs.Draft.Counts
import TypedFlux.Proofs.Syntax.QueryTexts
import TypedFlux.Proofs.Command.BoundIntegers
import TypedFlux.Proofs.Flux.Writing
import TypedFlux.Proofs.Draft.Growth
import TypedFlux.Proofs.Draft.Narrowing
import TypedFlux.Proofs.Draft.Closings
import TypedFlux.Proofs.Service.Totals
import TypedFlux.Proofs.Syntax.Renaming
import TypedFlux.Proofs.Syntax.Image
import TypedFlux.Proofs.Flux.Callees
import TypedFlux.Proofs.Draft.Imports
import TypedFlux.Proofs.Syntax.Quantities
import TypedFlux.Proofs.Syntax.Progress
import TypedFlux.Proofs.Syntax.Unrolling
