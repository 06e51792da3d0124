import Playground.Text.Word
import Playground.Text.Line
import Playground.Json.Reader
import Playground.Json.Writer
import Playground.Span
import Playground.Diagnostic
import Playground.Wire.Result
import Playground.Compiler.Scripted
import Playground.Config
import Playground.Hub.Machine
import Playground.Files.Copy
import Playground.Slots.Session
import Playground.Budget.Family
import Playground.Region.Extract
import Playground.Json.Number
import Playground.Proofs.Lines
import Playground.Proofs.Rewriting
import Playground.Proofs.Inlining
import Playground.Proofs.Revision
import Playground.Proofs.Reextraction
import Playground.Proofs.RoundTrip
import Playground.Proofs.Fitting
import Playground.Proofs.RevisedLines
import Playground.Proofs.MarkerWords
import Playground.Proofs.Matching
import Playground.Proofs.Attribution
import Playground.Proofs.Labelling
import Playground.Proofs.Acceptance
import Playground.Proofs.Site.Effect
import Playground.Proofs.Site.Run
import Playground.Proofs.Site.Flight
import Playground.Proofs.Site.SingleFlight
import Playground.Proofs.Site.Serving
import Playground.Proofs.Site.Step
import Playground.Proofs.Site.Event
import Playground.Proofs.Site.Rebuilding
import Playground.Proofs.Site.Passage
import Playground.Proofs.Overrun
import Playground.Proofs.Site.Overrun
import Playground.Proofs.Hub.Step
import Playground.Proofs.Hub.Run
import Playground.Proofs.Reported
import Playground.Proofs.Hub.Overrun
import Playground.Proofs.Hub.Diagnosis
import Playground.Proofs.Hub.Reporting
import Playground.Proofs.Hub.Pipeline
import Playground.Proofs.Hub.Execution
import Playground.Proofs.Hub.RunSlots
import Playground.Proofs.Budget.Family
import Playground.Proofs.Site.Copying
import Playground.Proofs.Site.Discipline
import Playground.Proofs.Files.Copy
import Playground.Proofs.Remains
import Playground.Proofs.Site.Tally
import Playground.Proofs.Site.CopyOrders
import Playground.Proofs.Site.Unhindered
import Playground.Proofs.Site.FirstDemand
import Playground.Proofs.Site.Restoring
import Playground.Proofs.WrittenIds
import Playground.Proofs.Wire.Forms
import Playground.Proofs.Hub.Asking
import Playground.Proofs.Site.Spacing
import Playground.Proofs.Mapped
import Playground.Proofs.Site.Errands
import Playground.Proofs.Files.Folded
import Playground.Proofs.Files.Sparing
import Playground.Proofs.Site.Sparing
import Playground.Proofs.Site.Refusal
import Playground.Proofs.Site.Room
import Playground.Proofs.Hub.Room
import Playground.Proofs.Hub.Configured
import Playground.Proofs.Laminar
import Playground.Proofs.Objections
import Playground.Proofs.StableIds
import Playground.Proofs.Budget.Racing
import Playground.Proofs.Budget.Log
import Playground.Proofs.OwnIds
import Playground.Proofs.Columns
import Playground.Proofs.Versions
import Playground.Proofs.Site.Completeness
