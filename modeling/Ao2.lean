import Ao2.Factory.Parity
import Ao2.Git.Commit
import Ao2.Hosted.Complete
import Ao2.Install.Update
import Ao2.Issues.Bundled
import Ao2.Issues.Compared
import Ao2.Issues.Discovered
import Ao2.Issues.Guarded
import Ao2.Issues.Previewed
import Ao2.Json.Canonical
import Ao2.Memory.Store
import Ao2.Obligations.Consistent
import Ao2.Obligations.Covered
import Ao2.Obligations.Earned
import Ao2.Planner.Context
import Ao2.Planner.Counted
import Ao2.Planner.Cycles
import Ao2.Planner.Dispatch
import Ao2.Planner.Surface
import Ao2.Policy.Accounting
import Ao2.Policy.Exact
import Ao2.Provider.Parsers
import Ao2.Publication.Converges
import Ao2.Publication.Decoding
import Ao2.Pulse.Decision
import Ao2.Pulse.GateHolds
import Ao2.Pulse.Published
import Ao2.Pulse.Rejected
import Ao2.Queue.Attested
import Ao2.Queue.Blocked
import Ao2.Queue.Lifecycle
import Ao2.Release.Decision
import Ao2.Release.Handoff
import Ao2.Release.Provenance
import Ao2.Release.Versioning
import Ao2.Run.Record
import Ao2.Run.Retry
import Ao2.Run.Served
import Ao2.Run.Status
import Ao2.Run.TaskOrder
import Ao2.Shell.Words
import Ao2.Signing.Verifiable
import Ao2.Workbench.Bound
import Ao2.Workbench.Pieces
import Ao2.Worker.Agree
import Ao2.Worker.Crash
import Ao2.Worker.Leased
import Ao2.Worker.Limits
import Ao2.Worker.Sealed
