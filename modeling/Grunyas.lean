import Grunyas.Go.Strings
import Grunyas.Machine.Run
import Grunyas.Session.Outcomes
import Grunyas.Session.BeginReplay
import Grunyas.Session.ReadPort
import Grunyas.Session.Rejection
import Grunyas.Session.TransactionView
import Grunyas.Session.RollbackText
import Grunyas.Session.FailedTransaction
import Grunyas.Machine.Blocks
import Grunyas.Session.Exchange
import Grunyas.Session.ReadyAccounting
import Grunyas.Session.Detach
import Grunyas.Session.PostWrite
import Grunyas.Upstream.SessionClient
import Grunyas.Upstream.Reset
import Grunyas.Go.Maps
import Grunyas.Cluster.Topology
import Grunyas.Decisions.Events
import Grunyas.Policy.Engine
import Grunyas.Routing.Pipeline
import Grunyas.Routing.Selection
import Grunyas.Routing.SingleWriter
import Grunyas.Session.ParseClass
import Grunyas.Session.ReplyOrder
import Grunyas.Session.DownstreamFlush
import Grunyas.Session.Affinity
import Grunyas.Session.MissingUpstream
import Grunyas.Session.Leases
import Grunyas.Machine.Handoff
import Grunyas.Session.Channels
import Grunyas.Session.WriteCommit
import Grunyas.Cluster.Probes
import Grunyas.Cluster.RoleAge
import Grunyas.Policy.Transitions
import Grunyas.Routing.Foreign
import Grunyas.Admin.ClusterState
import Grunyas.Cluster.Identity
import Grunyas.Probe.Cycle
import Grunyas.Probe.Liveness
import Grunyas.Machine.Streaks
import Grunyas.Policy.Hysteresis
import Grunyas.Policy.TransitionEvents
import Grunyas.Routing.Enforcement
import Grunyas.Config.Policies
import Grunyas.Policy.Scope
import Grunyas.Routing.LagInfluence
import Grunyas.Routing.Reads
import Grunyas.Routing.Agreement
import Grunyas.Go.CounterMap
import Grunyas.Machine.Interleaving
import Grunyas.Routing.Counters
import Grunyas.Routing.Rotation
import Grunyas.Machine.Threads
import Grunyas.Proxy.Acquire
import Grunyas.Proxy.Admission
import Grunyas.Go.Net
import Grunyas.Config.Config
import Grunyas.Admin.Pools
import Grunyas.Admin.Redaction
import Grunyas.Auth.Authentication
import Grunyas.Go.Heap
import Grunyas.Proxy.IdleSweeper
import Grunyas.Decisions.Bus
import Grunyas.Decisions.BusAccounts
import Grunyas.Policy.Reasons
import Grunyas.Probe.LagState
import Grunyas.Proxy.IdleExpiry
import Grunyas.Classifier.Scanner
import Grunyas.Go.Cut
import Grunyas.Classifier.Cap
import Grunyas.Sql.Postgres
import Grunyas.Session.Batches
import Grunyas.Classifier.Lead
import Grunyas.Classifier.Batch
import Grunyas.Classifier.Explain
import Grunyas.Messaging.SessionState
import Grunyas.Decisions.Ulid
import Grunyas.Go.Trim
import Grunyas.Messaging.Comments
import Grunyas.Classifier.Truncate
import Grunyas.Go.Base64
import Grunyas.Go.Strconv
import Grunyas.Auth.StoredForms
import Grunyas.Downstream.Startup
import Grunyas.Machine.Guarded
import Grunyas.Session.Teardown
import Grunyas.Machine.Pool
import Grunyas.Proxy.Sharing
import Grunyas.Proxy.Shutdown
import Grunyas.Routing.Observation
import Grunyas.Proxy.ReadYourWrites
import Grunyas.Admin.Access
