import RegisterVM.Access
import RegisterVM.Binary64
import RegisterVM.CommandLine.Command
import RegisterVM.CommandLine.Scan
import RegisterVM.Decimal.Shortest
import RegisterVM.Dispatch.Body
import RegisterVM.Dispatch.Cached
import RegisterVM.Dispatch.Generic
import RegisterVM.Dispatch.Machine
import RegisterVM.Encoding.Assembler
import RegisterVM.Encoding.Assembly
import RegisterVM.Encoding.Code
import RegisterVM.Encoding.Decoder
import RegisterVM.Encoding.Widths
import RegisterVM.Fault
import RegisterVM.Frame
import RegisterVM.Function.Basic
import RegisterVM.Function.Call
import RegisterVM.Function.Constant
import RegisterVM.Listing
import RegisterVM.Main
import RegisterVM.Object.Class
import RegisterVM.Object.Heap
import RegisterVM.Object.Value
import RegisterVM.Opcode
import RegisterVM.Program.Execute
import RegisterVM.Program.FileTree
import RegisterVM.Program.Run
import RegisterVM.Proofs.Concurrency.ByName
import RegisterVM.Proofs.Concurrency.Mutators
import RegisterVM.Proofs.Concurrency.Sections
import RegisterVM.Proofs.Concurrency.SharedSite
import RegisterVM.Proofs.Concurrency.SlotReads
import RegisterVM.Proofs.Concurrency.Threads
import RegisterVM.Proofs.Dispatch.Agreement
import RegisterVM.Proofs.Dispatch.Coherence
import RegisterVM.Proofs.Dispatch.Native
import RegisterVM.Proofs.Dispatch.Outline
import RegisterVM.Proofs.Dispatch.Routes
import RegisterVM.Proofs.Dispatch.Routines
import RegisterVM.Proofs.Dispatch.Verdicts
import RegisterVM.Proofs.Dispatch.Visits
import RegisterVM.Proofs.Encoding.Emission
import RegisterVM.Proofs.Encoding.Fitting
import RegisterVM.Proofs.Encoding.Image
import RegisterVM.Proofs.Encoding.Listings
import RegisterVM.Proofs.Encoding.Readers
import RegisterVM.Proofs.Encoding.RoundTrip
import RegisterVM.Proofs.Encoding.Tiling
import RegisterVM.Proofs.Encoding.Walks
import RegisterVM.Proofs.Function.Construction
import RegisterVM.Proofs.Function.Rejections
import RegisterVM.Proofs.Function.VirtualCalls
import RegisterVM.Proofs.Object.Evolution
import RegisterVM.Proofs.Object.KeptTables
import RegisterVM.Proofs.Object.Layout
import RegisterVM.Proofs.Object.Lineage
import RegisterVM.Proofs.Object.Members
import RegisterVM.Proofs.Object.SlotNames
import RegisterVM.Proofs.Object.SlotTables
import RegisterVM.Proofs.Object.Versions
import RegisterVM.Proofs.Simulation.Calls
import RegisterVM.Proofs.Simulation.Reports
import RegisterVM.Proofs.Simulation.Setup
import RegisterVM.Proofs.Site.Adaptation
import RegisterVM.Proofs.Site.Cells
import RegisterVM.Proofs.Site.Evidence
import RegisterVM.Proofs.Site.Recency
import RegisterVM.Proofs.Site.Steps
import RegisterVM.Proofs.Site.Turns
import RegisterVM.Proofs.Workspace.CallHistory
import RegisterVM.Proofs.Workspace.FunctionCalls
import RegisterVM.Proofs.Workspace.Resolutions
import RegisterVM.Proofs.Workspace.Scripts
import RegisterVM.Proofs.Workspace.Transparency
import RegisterVM.Report.Counters
import RegisterVM.Report.Json
import RegisterVM.Settings.Document
import RegisterVM.Settings.Parser
import RegisterVM.Settings.Scalar
import RegisterVM.Settings.Tuning
import RegisterVM.Simulation.Basic
import RegisterVM.Simulation.Pattern
import RegisterVM.Simulation.Report
import RegisterVM.Site.Route
import RegisterVM.Site.State
import RegisterVM.Site.Stats
import RegisterVM.Site.Tuning
import RegisterVM.Text.Alphanumeric
import RegisterVM.Text.Blank
import RegisterVM.Text.Hex
import RegisterVM.Text.Quoted
import RegisterVM.Text.Utf8
import RegisterVM.Text.Visible
import RegisterVM.Trace.Event
import RegisterVM.Trace.Filter
import RegisterVM.Trace.Note
import RegisterVM.Workspace.Basic
import RegisterVM.Workspace.Calls
import RegisterVM.Workspace.Functions
import RegisterVM.Proofs.Encoding.Cursors
import RegisterVM.Proofs.Frame.Columns
import RegisterVM.Proofs.Text.HexLayouts
