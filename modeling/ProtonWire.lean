import ProtonWire.Lib.Runs
import ProtonWire.Lib.Saturating
import ProtonWire.Lib.Binary32
import ProtonWire.Lib.StableSort
import ProtonWire.Lib.Shuffle
import ProtonWire.Lib.Fallible
import ProtonWire.Store.Deadlines
import ProtonWire.Store.Catalog
import ProtonWire.Scheduler.Policy
import ProtonWire.Scheduler.Model
import ProtonWire.Scheduler.Steps
import ProtonWire.Scheduler.SingleFlight
import ProtonWire.Scheduler.Pacing
import ProtonWire.Scheduler.Suppression
import ProtonWire.Scheduler.Token
import ProtonWire.Scheduler.Coherence
import ProtonWire.Selection.Model
import ProtonWire.Selection.Filter
import ProtonWire.Selection.Rank
import ProtonWire.Selection.Spec
import ProtonWire.Selection.Pipeline
import ProtonWire.Selection.Ranking
import ProtonWire.Selection.Select
import ProtonWire.Selection.Frame
import ProtonWire.Selection.Report
import ProtonWire.Selection.Order
import ProtonWire.Frontend.Proto
import ProtonWire.Entitlement.Model
import ProtonWire.Entitlement.Freshness
import ProtonWire.Entitlement.Wire
import ProtonWire.Lane.Publish
import ProtonWire.Probe.Reservation
import ProtonWire.Resolve.Twin
import ProtonWire.Net.RouteTxn
import ProtonWire.Net.LiveContract
import ProtonWire.Net.KillSwitch
import ProtonWire.Lib.Octets
import ProtonWire.Net.Enforcement
import ProtonWire.Net.AcceptSet
import ProtonWire.Net.Session
import ProtonWire.Net.Teardown
import ProtonWire.Net.FailedConnect
import ProtonWire.Net.Permanent
import ProtonWire.Engine.Ledger
import ProtonWire.Engine.Callbacks
import ProtonWire.Engine.Steps
import ProtonWire.Engine.Obligations
import ProtonWire.Engine.Epochs
import ProtonWire.Engine.Honesty
import ProtonWire.Engine.Refusals
import ProtonWire.Lib.CatchUp
import ProtonWire.Lane.Install
import ProtonWire.Lane.Feed
import ProtonWire.Lane.Channel
import ProtonWire.Lane.Convergence
import ProtonWire.Net.Plan
import ProtonWire.Ipc.Frame
import ProtonWire.Ipc.Reader
import ProtonWire.Lib.WriteBehind
import ProtonWire.Facade.Health
import ProtonWire.Frontend.Messages
import ProtonWire.Ipc.Client
import ProtonWire.Ipc.Cursor
import ProtonWire.Core.State
import ProtonWire.Ipc.Session
import ProtonWire.Selection.Random
import ProtonWire.Probe.Cancellation
import ProtonWire.Lib.Replace
import ProtonWire.Core.Redact
import ProtonWire.Selection.Exact
import ProtonWire.Resolve.Narrowing
import ProtonWire.Auth.Model
import ProtonWire.Auth.SecondFactor
import ProtonWire.Store.Session
import ProtonWire.Store.SessionLaws
import ProtonWire.Ipc.Ownership
import ProtonWire.Store.YamlPolicy
import ProtonWire.Store.YamlStructure
import ProtonWire.Lib.Delimited
import ProtonWire.Core.LineWriter
import ProtonWire.Ipc.Order
import ProtonWire.Ipc.Window
import ProtonWire.Facade.Log
import ProtonWire.Net.RecordedIds
import ProtonWire.Net.Foreign
import ProtonWire.Net.ProbeTruth
import ProtonWire.Net.OnDisk
import ProtonWire.Facade.Cache
import ProtonWire.Lib.Upsert
import ProtonWire.Protocol.Translate
import ProtonWire.Protocol.Candidates
import ProtonWire.Protocol.Conserved
import ProtonWire.Protocol.Marks
import ProtonWire.Lib.Search
import ProtonWire.Xtask.Deps
import ProtonWire.Xtask.License
import ProtonWire.Store.AtomicWrite
import ProtonWire.Scheduler.Eligibility
import ProtonWire.Scheduler.Driver
import ProtonWire.Lib.PathWalk
import ProtonWire.Store.FsTrust
import ProtonWire.Store.PinnedRead
import ProtonWire.Lib.Resync
import ProtonWire.Ipc.EndToEnd
import ProtonWire.Ipc.Overflow
import ProtonWire.Ipc.DaemonEnd
import ProtonWire.Ipc.NoGap
import ProtonWire.Lib.Descent
import ProtonWire.Ipc.Progress
import ProtonWire.Lib.Projection
import ProtonWire.Ipc.Hub
import ProtonWire.Ipc.Publication
import ProtonWire.Api.Catalog
import ProtonWire.Scheduler.Horizon
import ProtonWire.Groups.Regional
import ProtonWire.Lib.Rounding
import ProtonWire.Config.Sections
import ProtonWire.Config.Document
import ProtonWire.Config.Overlay
import ProtonWire.Config.Consumers
