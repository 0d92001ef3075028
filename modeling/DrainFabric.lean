import DrainFabric.Lib.Table
import DrainFabric.Lib.BinarySearch
import DrainFabric.Lib.Except
import DrainFabric.Lib.Run
import DrainFabric.Base
import DrainFabric.Json
import DrainFabric.Identity
import DrainFabric.Obligation
import DrainFabric.Policy
import DrainFabric.Topology
import DrainFabric.Commitments
import DrainFabric.Evidence
import DrainFabric.Authority
import DrainFabric.Admission
import DrainFabric.Lifecycle
import DrainFabric.Decision
import DrainFabric.Engine.State
import DrainFabric.Engine.Audit
import DrainFabric.Engine.Step
import DrainFabric.Engine.Calls
import DrainFabric.Engine.Snapshot
import DrainFabric.Engine.Run
import DrainFabric.Engine.TurnEffect
import DrainFabric.Engine.CallEffect
import DrainFabric.Engine.RestartEffect
import DrainFabric.Engine.Views
import DrainFabric.Engine.Fate
import DrainFabric.Engine.Frame
import DrainFabric.Ledger
import DrainFabric.Codec.Values
import DrainFabric.Codec.Tables
import DrainFabric.Codec.Topology
import DrainFabric.Engine.Writes
import DrainFabric.Engine.Recovery
import DrainFabric.Engine.WellFormed
import DrainFabric.Engine.History
import DrainFabric.Engine.Closing
import DrainFabric.Engine.Attempts
import DrainFabric.Engine.Sound
import DrainFabric.Engine.Evaluation
import DrainFabric.Engine.Blocking
import DrainFabric.Engine.Asking
import DrainFabric.Engine.Capacity
import DrainFabric.Engine.Progress
import DrainFabric.Engine.Cooperation
import DrainFabric.Engine.Dispatch
import DrainFabric.Properties.Completion
import DrainFabric.Properties.Release
import DrainFabric.Properties.Removal
import DrainFabric.Properties.Ownership
import DrainFabric.Properties.Binding
import DrainFabric.Properties.Restoration
import DrainFabric.Properties.StaleReports
import DrainFabric.Properties.Finality
import DrainFabric.Properties.Redundancy
import DrainFabric.Properties.Oscillation
import DrainFabric.Properties.Resumption
import DrainFabric.Properties.Correlation
import DrainFabric.Properties.Ordering
import DrainFabric.Properties.Atomicity
import DrainFabric.Properties.AuthorityLine
import DrainFabric.Properties.Tokens
import DrainFabric.Properties.LiveIncarnation
import DrainFabric.Properties.Scope
import DrainFabric.Properties.Idempotency
import DrainFabric.Server
import DrainFabric.Properties.Roles
import DrainFabric.Lib.Crc
import DrainFabric.Bytes
import DrainFabric.Json.RoundTrip
import DrainFabric.Persistence.ReadBack
import DrainFabric.Persistence.Replace
import DrainFabric.Properties.SavedLoads
import DrainFabric.Properties.CrashSafety
import DrainFabric.Json.Reprint
import DrainFabric.Properties.JsonText
import DrainFabric.Wire
import DrainFabric.Properties.Damage
import DrainFabric.Properties.Framing
import DrainFabric.Properties.Segmentation
import DrainFabric.Properties.Revisions
import DrainFabric.Properties.Boundary
import DrainFabric.Properties.EvacuationBudget
import DrainFabric.Properties.RetrySpacing
import DrainFabric.Lib.Trace
import DrainFabric.Runtime
import DrainFabric.Runtime.Boot
import DrainFabric.Properties.MarkerDamage
import DrainFabric.Properties.Generations
import DrainFabric.Properties.Passes
import DrainFabric.Properties.Permanence
import DrainFabric.Properties.Exceptions
import DrainFabric.Properties.Answerable
import DrainFabric.Properties.Transparency
import DrainFabric.Properties.ObligationRevisions
import DrainFabric.Properties.LedgerHistory
import DrainFabric.Properties.Recovery
import DrainFabric.Properties.RemovalChecks
import DrainFabric.Properties.RouteSearch
import DrainFabric.Properties.CallerOrder
import DrainFabric.Checked
import DrainFabric.Properties.Targets
import DrainFabric.Properties.Accounting
