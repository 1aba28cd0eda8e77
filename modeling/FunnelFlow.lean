import FunnelFlow.Activity
import FunnelFlow.Calendar.Instant
import FunnelFlow.Calendar.Reader
import FunnelFlow.Calendar.Span
import FunnelFlow.Condition
import FunnelFlow.Fault
import FunnelFlow.Funnel.Basic
import FunnelFlow.Funnel.Document
import FunnelFlow.Funnel.Graph
import FunnelFlow.Funnel.Validation
import FunnelFlow.Funnel.Violation
import FunnelFlow.Journal
import FunnelFlow.Number.Double
import FunnelFlow.Number.Reader
import FunnelFlow.Number.Shortest
import FunnelFlow.Rehearsal.Play
import FunnelFlow.Rehearsal.World
import FunnelFlow.Run.Basic
import FunnelFlow.Run.Delivery
import FunnelFlow.Run.Document
import FunnelFlow.Run.Step
import FunnelFlow.Service.ContactBook
import FunnelFlow.Service.Editing
import FunnelFlow.Service.Event
import FunnelFlow.Service.Execution
import FunnelFlow.Service.Messenger
import FunnelFlow.Settings
import FunnelFlow.Store.Backend
import FunnelFlow.Store.Collection
import FunnelFlow.Store.Contract
import FunnelFlow.Store.Database
import FunnelFlow.Store.Keeping
import FunnelFlow.Store.Memory
import FunnelFlow.Table
import FunnelFlow.Text.Blank
import FunnelFlow.Text.CaseTable
import FunnelFlow.Text.Digit
import FunnelFlow.Text.Encoding
import FunnelFlow.Text.Lowercase
import FunnelFlow.Text.Percent
import FunnelFlow.Text.PrintableTable
import FunnelFlow.Text.Quoted
import FunnelFlow.Value.Basic
import FunnelFlow.Value.Coerce
import FunnelFlow.Value.Display
import FunnelFlow.Value.Issue
import FunnelFlow.Value.Order
import FunnelFlow.Value.Printer
import FunnelFlow.Value.Reader
import FunnelFlow.Web.Address
import FunnelFlow.Web.Draft
import FunnelFlow.Web.Exchange
import FunnelFlow.Web.Route
import FunnelFlow.Web.Service
import FunnelFlow.Web.Status
import FunnelFlow.Proofs.Activity
import FunnelFlow.Proofs.Condition
import FunnelFlow.Proofs.Funnel.Cycles
import FunnelFlow.Proofs.Funnel.Document
import FunnelFlow.Proofs.Funnel.Effort
import FunnelFlow.Proofs.Funnel.Essence
import FunnelFlow.Proofs.Funnel.Feedback
import FunnelFlow.Proofs.Funnel.Forward
import FunnelFlow.Proofs.Funnel.Outline
import FunnelFlow.Proofs.Funnel.Reachability
import FunnelFlow.Proofs.Funnel.Reports
import FunnelFlow.Proofs.Funnel.Roots
import FunnelFlow.Proofs.Funnel.RoundTrip
import FunnelFlow.Proofs.Funnel.Skeleton
import FunnelFlow.Proofs.Funnel.Start
import FunnelFlow.Proofs.Funnel.WellFormed
import FunnelFlow.Proofs.Log
import FunnelFlow.Proofs.Number.Range
import FunnelFlow.Proofs.Protocol
import FunnelFlow.Proofs.Run.Bounds
import FunnelFlow.Proofs.Run.Document
import FunnelFlow.Proofs.Run.Pause
import FunnelFlow.Proofs.Run.Step
import FunnelFlow.Proofs.Run.Timely
import FunnelFlow.Proofs.Run.Trail
import FunnelFlow.Proofs.Run.Walk
import FunnelFlow.Proofs.Service.Accounts
import FunnelFlow.Proofs.Service.Alone
import FunnelFlow.Proofs.Service.ContactPlaces
import FunnelFlow.Proofs.Service.Course
import FunnelFlow.Proofs.Service.Discipline
import FunnelFlow.Proofs.Service.Dispatch
import FunnelFlow.Proofs.Service.DryRun
import FunnelFlow.Proofs.Service.EditLocks
import FunnelFlow.Proofs.Service.EditProtocol
import FunnelFlow.Proofs.Service.Editing
import FunnelFlow.Proofs.Service.Errand
import FunnelFlow.Proofs.Service.Fate
import FunnelFlow.Proofs.Service.Holding
import FunnelFlow.Proofs.Service.Independence
import FunnelFlow.Proofs.Service.Metadata
import FunnelFlow.Proofs.Service.Passes
import FunnelFlow.Proofs.Service.Patience
import FunnelFlow.Proofs.Service.PostFunnel
import FunnelFlow.Proofs.Service.Queue
import FunnelFlow.Proofs.Service.Reachable
import FunnelFlow.Proofs.Service.Refusal
import FunnelFlow.Proofs.Service.Release
import FunnelFlow.Proofs.Service.Resending
import FunnelFlow.Proofs.Service.Rest
import FunnelFlow.Proofs.Service.Scheduling
import FunnelFlow.Proofs.Service.Scope
import FunnelFlow.Proofs.Service.Steady
import FunnelFlow.Proofs.Service.Taking
import FunnelFlow.Proofs.Service.Together
import FunnelFlow.Proofs.Service.Traffic
import FunnelFlow.Proofs.Service.Twins
import FunnelFlow.Proofs.Service.Visits
import FunnelFlow.Proofs.Store.Calls
import FunnelFlow.Proofs.Store.Collection
import FunnelFlow.Proofs.Store.Contract
import FunnelFlow.Proofs.Store.Definitions
import FunnelFlow.Proofs.Store.Due
import FunnelFlow.Proofs.Store.Fencing
import FunnelFlow.Proofs.Store.Forms
import FunnelFlow.Proofs.Store.Memory
import FunnelFlow.Proofs.Store.Mirror
import FunnelFlow.Proofs.Store.Ready
import FunnelFlow.Proofs.Store.Rows
import FunnelFlow.Proofs.Store.Serving
import FunnelFlow.Proofs.Store.Work
import FunnelFlow.Proofs.Table
import FunnelFlow.Proofs.Text.Percent
import FunnelFlow.Proofs.Value.Checked
import FunnelFlow.Proofs.Web.Address
import FunnelFlow.Proofs.Service.Batch
import FunnelFlow.Proofs.Store.Copying
import FunnelFlow.Proofs.Copying
import FunnelFlow.Proofs.Value.Reader
