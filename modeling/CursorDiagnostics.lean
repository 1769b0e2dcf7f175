import CursorDiagnostics.Text.Blank
import CursorDiagnostics.Text.Line
import CursorDiagnostics.Text.Decimal
import CursorDiagnostics.Text.Quoted
import CursorDiagnostics.Text.Utf8
import CursorDiagnostics.Text.ControlSequence
import CursorDiagnostics.Failure
import CursorDiagnostics.Record
import CursorDiagnostics.Span
import CursorDiagnostics.Log.Reader
import CursorDiagnostics.Document
import CursorDiagnostics.Document.Coordinates
import CursorDiagnostics.Index
import CursorDiagnostics.Template
import CursorDiagnostics.Settings
import CursorDiagnostics.Presentation
import CursorDiagnostics.Journal
import CursorDiagnostics.FileTree
import CursorDiagnostics.Log.File
import CursorDiagnostics.Console
import CursorDiagnostics.Selection
import CursorDiagnostics.Session
import CursorDiagnostics.Buffer
import CursorDiagnostics.Description
import CursorDiagnostics.Host
import CursorDiagnostics.CommandLine.Arguments
import CursorDiagnostics.CommandLine.Reader
import CursorDiagnostics.CommandLine.Report
import CursorDiagnostics.CommandLine.Program
import CursorDiagnostics.Main
import CursorDiagnostics.Proofs.Document.Places
import CursorDiagnostics.Proofs.Document.Inverse
import CursorDiagnostics.Proofs.Document.Spans
import CursorDiagnostics.Proofs.Document.Tiling
import CursorDiagnostics.Proofs.Document.Order
import CursorDiagnostics.Proofs.Index.Lookup
import CursorDiagnostics.Proofs.Index.Shadowing
import CursorDiagnostics.Proofs.Host.Runs
import CursorDiagnostics.Proofs.Host.Supersession
import CursorDiagnostics.Proofs.Host.Provenance
import CursorDiagnostics.Proofs.Host.Moves
import CursorDiagnostics.Proofs.Host.Stream
import CursorDiagnostics.Proofs.Host.Message
import CursorDiagnostics.Proofs.Host.Freshness
import CursorDiagnostics.Proofs.Host.Failures
import CursorDiagnostics.Proofs.Host.Attachment
import CursorDiagnostics.Proofs.Host.Driving
import CursorDiagnostics.Proofs.Host.Poisoning
import CursorDiagnostics.Proofs.Domain.Rope
import CursorDiagnostics.Proofs.Domain.Coordinates
import CursorDiagnostics.Proofs.Domain.Session
import CursorDiagnostics.Proofs.CommandLine.Output
import CursorDiagnostics.Proofs.CommandLine.Report
import CursorDiagnostics.Proofs.CommandLine.Refusals
import CursorDiagnostics.Proofs.Text.Runs
import CursorDiagnostics.Proofs.Log.Grammar
import CursorDiagnostics.Proofs.Text.Trim
import CursorDiagnostics.Proofs.Log.Reading
import CursorDiagnostics.Proofs.Log.RoundTrip
import CursorDiagnostics.Proofs.Log.FirstCut
import CursorDiagnostics.Proofs.Log.Layout
import CursorDiagnostics.Proofs.Host.InStep
import CursorDiagnostics.Proofs.Template.Joining
import CursorDiagnostics.Proofs.Template.Reading
import CursorDiagnostics.Proofs.CommandLine.Positions
import CursorDiagnostics.Proofs.Text.Quoted
import CursorDiagnostics.Proofs.Failure
import CursorDiagnostics.Proofs.Text.Pattern
import CursorDiagnostics.Proofs.Template.Pattern
import CursorDiagnostics.Proofs.Log.Pattern
