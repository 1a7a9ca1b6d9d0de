import FlowVerdict.CommandLine.Argument
import FlowVerdict.CommandLine.Message
import FlowVerdict.CommandLine.Option
import FlowVerdict.CommandLine.Reader
import FlowVerdict.Decimal.Binary
import FlowVerdict.Decimal.Integer
import FlowVerdict.Decimal.Layout
import FlowVerdict.Decimal.Reader
import FlowVerdict.Decimal.Shortest
import FlowVerdict.Event
import FlowVerdict.Failure
import FlowVerdict.Flow
import FlowVerdict.Json.Fault
import FlowVerdict.Json.Lexeme
import FlowVerdict.Json.Number
import FlowVerdict.Json.Printer
import FlowVerdict.Json.Reader
import FlowVerdict.Json.Schema
import FlowVerdict.Json.Skip
import FlowVerdict.Json.Value
import FlowVerdict.Kernel.Query
import FlowVerdict.Kernel.Row
import FlowVerdict.Kernel.Snapshot
import FlowVerdict.Log.Entry
import FlowVerdict.Main
import FlowVerdict.Record.Connection
import FlowVerdict.Record.Header
import FlowVerdict.Record.Syn
import FlowVerdict.Run.Basic
import FlowVerdict.Run.Rehearsal
import FlowVerdict.Run.Supervisor
import FlowVerdict.Session.Basic
import FlowVerdict.Session.Intake
import FlowVerdict.Session.Matching
import FlowVerdict.Session.Scan
import FlowVerdict.Settings
import FlowVerdict.Shutdown
import FlowVerdict.Span
import FlowVerdict.Stream
import FlowVerdict.SynTable
import FlowVerdict.SystemError
import FlowVerdict.Table
import FlowVerdict.Tally
import FlowVerdict.Text.Blank
import FlowVerdict.Text.Quoted
import FlowVerdict.Text.Utf8
import FlowVerdict.Worker.Basic
import FlowVerdict.Worker.Clock
import FlowVerdict.Worker.Intake
import FlowVerdict.Worker.Matcher
import FlowVerdict.Worker.Sampler
import FlowVerdict.Worker.ScanDetector
import FlowVerdict.Proofs.Table
import FlowVerdict.Proofs.Books
import FlowVerdict.Proofs.Passes
import FlowVerdict.Proofs.Operations
import FlowVerdict.Proofs.Office
import FlowVerdict.Proofs.Views
import FlowVerdict.Proofs.Conservation
import FlowVerdict.Proofs.Pairing
import FlowVerdict.Proofs.Snapshot
import FlowVerdict.Proofs.Linkage
import FlowVerdict.Proofs.FlowText
import FlowVerdict.Proofs.RowFields
import FlowVerdict.Proofs.Reconciliation
import FlowVerdict.Proofs.Lifetime
import FlowVerdict.Proofs.Double
import FlowVerdict.Proofs.Rounding
import FlowVerdict.Proofs.Delay
import FlowVerdict.Proofs.Draining
import FlowVerdict.Proofs.Interleaving
import FlowVerdict.Proofs.Freshness
import FlowVerdict.Proofs.FreshCorrection
import FlowVerdict.Proofs.FreshScan
import FlowVerdict.Proofs.ByteOrder
import FlowVerdict.Proofs.Expiry
import FlowVerdict.Proofs.Index
import FlowVerdict.Proofs.History
import FlowVerdict.Proofs.Reading
import FlowVerdict.Proofs.Marks
import FlowVerdict.Proofs.Scanning
import FlowVerdict.Proofs.Statuses
import FlowVerdict.Proofs.PlainTable
import FlowVerdict.Proofs.Frame
import FlowVerdict.Proofs.Orderly
import FlowVerdict.Proofs.OneFlow
import FlowVerdict.Proofs.Accounts
import FlowVerdict.Proofs.Outage
import FlowVerdict.Proofs.Timeouts
import FlowVerdict.Proofs.Utf8
import FlowVerdict.Proofs.DigitText
import FlowVerdict.Proofs.QuotedText
import FlowVerdict.Proofs.ShortestDigits
import FlowVerdict.Proofs.Scaling
import FlowVerdict.Proofs.DoubleText
import FlowVerdict.Proofs.Members
import FlowVerdict.Proofs.Listing
import FlowVerdict.Proofs.WrittenJson
import FlowVerdict.Proofs.Kept
import FlowVerdict.Proofs.HeaderMembers
import FlowVerdict.Proofs.LineMembers
import FlowVerdict.Proofs.Origins
import FlowVerdict.Proofs.EventText
import FlowVerdict.Proofs.Decisions
import FlowVerdict.Proofs.MatchPass
import FlowVerdict.Proofs.ExactPairs
import FlowVerdict.Proofs.Guesses
import FlowVerdict.Proofs.Fixpoint
import FlowVerdict.Proofs.WindingDown
import FlowVerdict.Proofs.Running
import FlowVerdict.Proofs.RunLaws
import FlowVerdict.Proofs.Framing
import FlowVerdict.Proofs.ScanReport
import FlowVerdict.Proofs.PassOutcome
import FlowVerdict.Proofs.VisitOrder
import FlowVerdict.Proofs.Collisions
import FlowVerdict.Proofs.ArrivalOrder
import FlowVerdict.Proofs.Escalation
