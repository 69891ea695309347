import Grunyas.Cluster.RoleAge
import Grunyas.Routing.Rotation
import Grunyas.Session.Startup

/-!
# The acquisition of an upstream by the proxy

The proxy asks the pipeline for a lease and then reads the topology once more for the role of the
leased node. Between the snapshot on which the node was judged and this reading lie the search for the
primary and the acquisition of a connection, and probes report all the time. `leased_role_iff` says
for which reports and clocks the role of the lease is still the one the node was chosen for.
-/

namespace Grunyas.Routing

open GoText GoMap Grunyas.Server Grunyas.Classifier Grunyas.Cluster Grunyas.Decisions Grunyas.Policy

/-- Answer a lease request on a snapshot that was taken before the identifier of the cluster was read;
`later` is the topology in which the primary is searched. -/
def Pipeline.leaseFrom (p : Pipeline) (nodes : List NodeView) (later : Topology) (env : Env later)
    (req : LeaseRequest) : LeaseResult × Pipeline :=
  let counted : Pipeline := { p with topo := later, decisionsTotal := p.decisionsTotal + 1 }
  let event : Decisions.Event :=
    { port := req.port, poolMode := req.poolMode, leaseType := req.leaseType,
      source := text "client" }
  if isValidPort req.port = false then
    counted.reject event [] ⟨"0A000", "[grunyas] invalid port", none⟩ (text "invalid_port")
  else
    let cls := classifyFor req.port req.sql
    let event := { event with
      classification := some ⟨cls.kind, cls.source, truncateSQL req.sql 256⟩ }
    if nodes = [] then
      counted.reject event [] ⟨"57P03", "[grunyas] no upstream available", none⟩ (text "no_nodes")
    else
      let candidates := p.filterCandidates nodes req.port req.classType req.postWriteWindowActive
      let event := { event with candidates, policiesActive := p.activePolicies candidates }
      let eligible := eligibleNodes candidates
      let recorded := counted.recordEligible req.port eligible.length
      if h : eligible = [] then recorded.leaseEmpty env req cls.kind event
      else recorded.leaseEligible env req cls.kind event eligible h

/-- Without reports meanwhile this is `Lease`. -/
theorem leaseFrom_nodeViews (p : Pipeline) (env : Env p.topo) (req : LeaseRequest) :
    p.leaseFrom (p.topo.nodeViews env.now env.forNodes) p.topo env req = p.lease env req := rfl

/-- A node is eligible on a snapshot exactly if a view of it there is not excluded. -/
theorem mem_eligibleNodes_filterCandidates {p : Pipeline} {nodes : List NodeView} {port : Port}
    {kind : Kind} {active : Bool} {id : NodeID} :
    id ∈ eligibleNodes (p.filterCandidates nodes port kind active) ↔
      ∃ nv ∈ nodes, nv.id = id ∧ p.reasons port kind active nv = [] := by
  simp only [eligibleNodes, Pipeline.filterCandidates, List.filter_map, List.map_map, List.mem_map,
    List.mem_filter, Function.comp_def, decide_eq_true_eq]
  exact exists_congr fun nv => by tauto

/-- If some node is eligible, then a lease without an error is on an eligible node. -/
theorem leaseFrom_eligible {p : Pipeline} {nodes : List NodeView} {later : Topology} {env : Env later}
    {req : LeaseRequest} (hok : (p.leaseFrom nodes later env req).1.error = none)
    (h : eligibleNodes (p.filterCandidates nodes req.port req.classType req.postWriteWindowActive) ≠ []) :
    (p.leaseFrom nodes later env req).1.upstream ≠ none ∧
      (p.leaseFrom nodes later env req).1.nodeID ∈
        eligibleNodes (p.filterCandidates nodes req.port req.classType req.postWriteWindowActive) := by
  unfold Pipeline.leaseFrom at hok ⊢
  dsimp only at hok ⊢
  split_ifs at hok ⊢ with hvalid hnodes
  · cases hok
  · cases hok
  · unfold Pipeline.leaseEligible at hok ⊢
    dsimp only at hok ⊢
    split_ifs at hok ⊢ with hprimary
    · cases hok
    · split at hok
      next => cases hok
      next conn hacquire => exact ⟨Option.some_ne_none conn, selectNode_mem _ h _ _⟩

/-- A node that is not excluded on the read port is seen as replica. -/
theorem observedRole_of_reasons_read {p : Pipeline} {kind : Kind} {active : Bool} {nv : NodeView}
    (h : p.reasons .read kind active nv = []) : nv.observedRole = .replica := by
  have hroles : roleReasons .read kind active nv.observedRole = [] := by
    simp only [Pipeline.reasons, List.append_eq_nil_iff] at h
    exact h.1.1.1.2
  cases hrole : nv.observedRole with
  | replica => rfl
  | unknown => simp [roleReasons, hrole] at hroles
  | primary => simp [roleReasons, hrole] at hroles

/-- A node that is not excluded on the write port is seen as primary. -/
theorem observedRole_of_reasons_write {p : Pipeline} {kind : Kind} {active : Bool} {nv : NodeView}
    (h : p.reasons .write kind active nv = []) : nv.observedRole = .primary := by
  have hroles : roleReasons .write kind active nv.observedRole = [] := by
    simp only [Pipeline.reasons, List.append_eq_nil_iff] at h
    exact h.1.1.1.2
  cases hrole : nv.observedRole with
  | primary => rfl
  | unknown => simp [roleReasons, hrole] at hroles
  | replica => simp [roleReasons, hrole] at hroles

end Grunyas.Routing

namespace Grunyas.Proxy

open GoText GoMap Grunyas.Server Grunyas.Cluster Grunyas.Routing

/-- The `poolMode` of a proxy: the text of the configuration of its port. -/
def poolMode (cfg : ServerConfig) : Text :=
  match cfg.port with
  | none => text "session"
  | some port => port.poolMode

/-- The lease type that the proxy requests on a port. -/
def leaseType (port : Port) (poolMode : Text) : Text :=
  match port with
  | .write => poolMode
  | .read => if poolMode = text "session" then text "session" else text "transaction"
  | .compat => text "transaction"
  | .other _ => []

/-- The request of the proxy for a statement. The pool mode is shown in the event only; no validated
configuration has a text for it that is none. -/
def leaseRequest (port : Port) (cfg : ServerConfig) (sql : Text) (postWriteWindowActive : Bool)
    (postWriteWindowRemainingMs : ℤ) : LeaseRequest where
  port := port
  poolMode := (poolModeFromString (poolMode cfg)).getD .session
  leaseType := leaseType port (poolMode cfg)
  sql := sql
  postWriteWindowActive := postWriteWindowActive
  postWriteWindowRemainingMs := postWriteWindowRemainingMs

/-- What an acquisition meets: the clock and the order of the snapshot, the reports before the
identifier of the cluster is read and before the primary is searched, what the rest of `Lease` meets,
and the reports and the clock before the role of the leased node is read. In each of the three lists
the latest report is the first. -/
structure Course (t : Topology) where
  now : Time
  forNodes : Range t.nodes
  beforeFilter : List Update
  beforePrimary : List Update
  env : Env ((t.after beforeFilter).after beforePrimary)
  beforeNode : List Update
  nodeNow : Time

variable {t : Topology}

/-- The snapshot on which the nodes are judged. -/
def Course.snapshot (c : Course t) : List NodeView := t.nodeViews c.now c.forNodes

/-- The topology in which the primary is searched. -/
def Course.later (c : Course t) : Topology := (t.after c.beforeFilter).after c.beforePrimary

/-- The reports from the snapshot to the reading of the role. -/
def Course.updates (c : Course t) : List Update := c.beforeNode ++ (c.beforePrimary ++ c.beforeFilter)

/-- The pipeline when the nodes of the snapshot are judged. -/
def Course.judging (p : Pipeline) (c : Course p.topo) : Pipeline :=
  { p with topo := p.topo.after c.beforeFilter }

/-- The nodes that are judged eligible. -/
def Course.eligible (p : Pipeline) (c : Course p.topo) (req : LeaseRequest) : List NodeID :=
  eligibleNodes ((judging p c).filterCandidates c.snapshot req.port req.classType
    req.postWriteWindowActive)

/-- The role of a node in the snapshot still stands when it is read again: since then no other role was
reported last, and the last report on the liveness is recent enough. -/
def Course.RoleStands (c : Course t) (nv : NodeView) : Prop :=
  if t.lastProbe nv.id c.updates ≠ 0 ∧
      t.observedRoleMaxAgeMs < ageMs c.nodeNow (t.lastProbe nv.id c.updates) then
    nv.observedRole = .unknown
  else t.lastRole nv.id c.updates = nv.observedRole

/-- The `acquireUpstreamLeaseWithSQL` of a proxy with a pipeline. An answer without an error has a
connection. -/
def acquireUpstreamLeaseWithSQL (p : Pipeline) (c : Course p.topo) (port : Port) (cfg : ServerConfig)
    (sql : Text) (postWriteWindowActive : Bool) (postWriteWindowRemainingMs : ℤ) :
    Except ProxyError UpstreamLease :=
  let req := leaseRequest port cfg sql postWriteWindowActive postWriteWindowRemainingMs
  let result := ((c.judging p).leaseFrom c.snapshot c.later c.env req).1
  match result.error with
  | some error => .error error
  | none =>
    let role := match (c.later.after c.beforeNode).node c.nodeNow result.nodeID with
      | some nv => nv.observedRole
      | none => .unknown
    .ok ⟨result.upstream.getD 0, result.nodeID, role⟩

/-- The role of a lease is that of its node in the last reading. -/
theorem acquire_ok {p : Pipeline} {c : Course p.topo} {port : Port} {cfg : ServerConfig} {sql : Text}
    {active : Bool} {remaining : ℤ} {lease : UpstreamLease}
    (hok : acquireUpstreamLeaseWithSQL p c port cfg sql active remaining = .ok lease) :
    ((c.judging p).leaseFrom c.snapshot c.later c.env
        (leaseRequest port cfg sql active remaining)).1.error = none ∧
      ((c.judging p).leaseFrom c.snapshot c.later c.env
        (leaseRequest port cfg sql active remaining)).1.nodeID = lease.nodeID ∧
      lease.role =
        (((c.later.after c.beforeNode).node c.nodeNow lease.nodeID).map NodeView.observedRole).getD
          .unknown := by
  unfold acquireUpstreamLeaseWithSQL at hok
  dsimp only at hok
  split at hok
  next => cases hok
  next herror =>
    cases hok
    refine ⟨herror, rfl, ?_⟩
    split
    next nv hnv => simp [hnv]
    next hnone => simp [hnone]

/-- The last reading shows the role of the snapshot exactly if it still stands. -/
theorem Course.shown_eq_iff (c : Course t) {nv : NodeView} (hnv : nv ∈ c.snapshot) :
    (((c.later.after c.beforeNode).node c.nodeNow nv.id).map NodeView.observedRole).getD .unknown =
        nv.observedRole ↔ c.RoleStands nv := by
  obtain ⟨⟨id, ns⟩, hentry, rfl⟩ := List.mem_map.mp hnv
  have hlookup : t.nodes.lookup id = some ns := c.forNodes.mem_entries.mp hentry
  have hlater : c.later.after c.beforeNode = t.after c.updates := by
    rw [Course.later, Course.updates, Topology.after_append, Topology.after_append]
  have hid : (t.nodeView c.now id ns).id = id := rfl
  rw [Course.RoleStands, hid, hlater, Topology.node_after hlookup, Option.getD_some]
  simp only [expired_iff]
  split_ifs
  · exact eq_comm
  · exact Iff.rfl

/-- For every pipeline, port and statement, whatever probes report and the clock shows between the
snapshot, the search for the primary, the acquisition and the last reading: if some node is eligible
and the lease is granted, then it is on a node that was judged eligible on the snapshot, and its role
is the one of the snapshot exactly if this still stands at the last reading. -/
theorem leased_role_iff (p : Pipeline) (c : Course p.topo) (port : Port) (cfg : ServerConfig)
    (sql : Text) (active : Bool) (remaining : ℤ) {lease : UpstreamLease}
    (hok : acquireUpstreamLeaseWithSQL p c port cfg sql active remaining = .ok lease)
    (heligible : c.eligible p (leaseRequest port cfg sql active remaining) ≠ []) :
    ∃ nv ∈ c.snapshot, nv.id = lease.nodeID ∧
      (c.judging p).reasons port (leaseRequest port cfg sql active remaining).classType active nv = [] ∧
      (port = .read → nv.observedRole = .replica) ∧ (port = .write → nv.observedRole = .primary) ∧
      (lease.role = nv.observedRole ↔ c.RoleStands nv) := by
  obtain ⟨herror, hnode, hrole⟩ := acquire_ok hok
  have hmem := (leaseFrom_eligible herror heligible).2
  obtain ⟨nv, hnv, hid, hreasons⟩ := mem_eligibleNodes_filterCandidates.mp hmem
  rw [hnode] at hid
  refine ⟨nv, hnv, hid, hreasons, ?_, ?_, ?_⟩
  · intro hport
    subst hport
    exact observedRole_of_reasons_read hreasons
  · intro hport
    subst hport
    exact observedRole_of_reasons_write hreasons
  · rw [hrole, ← hid]
    exact c.shown_eq_iff hnv

/-- Ten seconds after the zero time a snapshot of a primary `a` and a replica `b` is taken; the
reports and the clock before the last reading are left open. -/
def afterSnapshot (beforeNode : List Update) (nodeNow : Time) : Course primaryAndReplica.topo where
  now := 10000000000
  forNodes := ⟨twoEntries _ _, rfl⟩
  beforeFilter := []
  beforePrimary := []
  env := twoNodesEnv _ _
  beforeNode := beforeNode
  nodeNow := nodeNow

/-- A read port in transaction mode. -/
def readPort : ServerConfig := ⟨.transaction, some ⟨text "transaction", 0⟩⟩

/-- A read that meets such a course. -/
def readFrom (beforeNode : List Update) (nodeNow : Time) : Except ProxyError UpstreamLease :=
  acquireUpstreamLeaseWithSQL primaryAndReplica (afterSnapshot beforeNode nodeNow) .read readPort
    (text "SELECT 1") false 0

/-- If another probe cycle confirms the role of the replica, the read is reported on a replica. -/
theorem leased_role_confirmed :
    ∃ nv ∈ (afterSnapshot [⟨10500000000, text "b", .observedRole .replica⟩] 11000000000).snapshot,
      nv.id = text "b" ∧ nv.observedRole = .replica ∧
        ∃ lease, readFrom [⟨10500000000, text "b", .observedRole .replica⟩] 11000000000 = .ok lease ∧
          lease.role = nv.observedRole := by
  have hlease : readFrom [⟨10500000000, text "b", .observedRole .replica⟩] 11000000000 =
      .ok ⟨0, text "b", .replica⟩ := by decide
  obtain ⟨nv, hnv, hid, -, hread, -, hiff⟩ := leased_role_iff _ _ _ _ _ _ _ hlease (by decide)
  refine ⟨nv, hnv, hid, hread rfl, _, hlease, hiff.mpr ?_⟩
  rw [Course.RoleStands, hid, hread rfl]
  decide

/-- A read is leased to the replica `b`. It is reported on a primary if `b` is promoted before the last
reading, and on an unknown node if this comes more than five seconds after the last probe cycle. -/
theorem leased_replica_reported_otherwise :
    ((afterSnapshot [] 0).snapshot.map fun nv => (nv.id, nv.observedRole)) =
        [(text "a", .primary), (text "b", .replica)] ∧
      readFrom [⟨10500000000, text "b", .observedRole .primary⟩] 11000000000 =
        .ok ⟨0, text "b", .primary⟩ ∧
      readFrom [] 14001000000 = .ok ⟨0, text "b", .unknown⟩ := by
  decide

end Grunyas.Proxy
