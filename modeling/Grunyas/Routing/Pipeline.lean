import Grunyas.Cluster.Topology
import Grunyas.Decisions.Events
import Grunyas.Policy.Engine

/-!
# The routing pipeline

A lease request is classified, every node of one snapshot is judged against the role, liveness,
lag and saturation filters, one of the eligible nodes is selected and a connection is acquired
from its pool. Every request counts and publishes one decision event.

The histogram of decision durations is left out; nothing reads it while routing.
-/

namespace Grunyas.Routing

open GoText GoMap Grunyas.Server Grunyas.Classifier Grunyas.Cluster Grunyas.Decisions Grunyas.Policy

/-- A request for an upstream connection. -/
structure LeaseRequest where
  port : Port
  poolMode : PoolMode
  leaseType : Text
  sql : Text
  postWriteWindowActive : Bool
  postWriteWindowRemainingMs : ℤ
  deriving DecidableEq, Repr

/-- An error with its SQLSTATE. -/
structure ProxyError where
  code : String
  message : String
  cause : Option Text := none
  deriving DecidableEq, Repr

/-- The answer to a lease request; the decision is absent where the source never sets it. -/
structure LeaseResult where
  upstream : Option ConnId := none
  nodeID : NodeID := []
  decision : Option Event := none
  error : Option ProxyError := none
  deriving DecidableEq, Repr

/-- The pipeline with its counters. `published` lists the events given to the bus. -/
structure Pipeline where
  topo : Topology
  policyEng : Option Engine
  hasBus : Bool
  readRR : UInt64
  decisionsTotal : ℕ
  decisionsLeased : ℕ
  decisionsRejected : ℕ
  decisionsFallback : ℕ
  publishedTotal : ℕ
  eligibleSetRead : ℕ
  eligibleSetWrite : ℕ
  decisionCounters : Finmap (fun _ : Text => ℕ)
  published : List Event
  defaultHealthPolicyName : Text
  defaultLagPolicyName : Text
  defaultSatPolicyName : Text
  compatReclassificationRejections : ℕ := 0

/-- A pipeline before its first request; it resolves the names of the policies once. -/
def newPipeline (topo : Topology) (policyEng : Option Engine) (hasBus : Bool) : Pipeline where
  topo := topo
  policyEng := policyEng
  hasBus := hasBus
  readRR := 0
  decisionsTotal := 0
  decisionsLeased := 0
  decisionsRejected := 0
  decisionsFallback := 0
  publishedTotal := 0
  eligibleSetRead := 0
  eligibleSetWrite := 0
  decisionCounters := ∅
  published := []
  defaultHealthPolicyName := (policyEng.map policyDefaultHealthNameOrFirst).getD []
  defaultLagPolicyName := (policyEng.map policyDefaultLagNameOrFirst).getD []
  defaultSatPolicyName := (policyEng.map policyDefaultSatNameOrFirst).getD []

/-- What one request meets: the clock, the orders in which the node map is visited for the
snapshot and for the primary, and the answer of every pool. -/
structure Env (t : Topology) where
  now : Time
  forNodes : Range t.nodes
  forPrimary : Range t.nodes
  acquire : PoolID → Except Text ConnId

/-- Whether the port is one that is served. -/
def isValidPort : Port → Bool
  | .write => true
  | .read => true
  | .compat => true
  | .other _ => false

/-- The name of a port in the keys of the decision counters. -/
def portKey : Port → Text
  | .write => text "write"
  | .read => text "read"
  | .compat => text "compat"
  | .other _ => text "invalid"

/-- The name of an outcome in the keys of the decision counters. -/
def outcomeKey : OutcomeKind → Text
  | .empty => []
  | .leased => text "leased"
  | .rejected => text "rejected"
  | .fallback => text "fallback"

/-- The key of the counter of an event. -/
def counterKey (event : Event) : Text :=
  portKey event.port ++ text ":" ++ outcomeKey event.outcome.kind ++ text ":" ++ event.outcome.reason

/-- Count an event and give it to the bus, if there is one. -/
def Pipeline.emitEvent (p : Pipeline) (event : Event) : Pipeline :=
  if p.hasBus then
    let key := counterKey event
    { p with
      publishedTotal := p.publishedTotal + 1
      decisionCounters := p.decisionCounters.insert key ((p.decisionCounters.lookup key).getD 0 + 1)
      published := p.published ++ [event] }
  else p

/-- Classify a text for a port, outside any transaction and without a statement cache. -/
def classifyFor (port : Port) (sql : Text) : Classifier.Class :=
  (classify ⟨[], sql⟩ ⟨port, .idle, none⟩).1

/-- The event of a write that the read port refuses. -/
def readPortWriteEvent (sql : Text) (poolMode : PoolMode) : Event :=
  let cls := classifyFor .read sql
  { port := .read, poolMode, leaseType := text "transaction", source := text "client",
    classification := some ⟨cls.kind, cls.source, truncateSQL sql 256⟩,
    outcome := { kind := .rejected, sqlState := "25006", reason := text "read_port:write_attempted" } }

/-- Record a write that the read port refuses. -/
def Pipeline.rejectReadPortWrite (p : Pipeline) (sql : Text) (poolMode : PoolMode) : Event × Pipeline :=
  let event := readPortWriteEvent sql poolMode
  (event,
    { p with
      decisionsTotal := p.decisionsTotal + 1
      decisionsRejected := p.decisionsRejected + 1 }.emitEvent event)

/-- The event of a write in a transaction that the compat port leased as a read. -/
def compatReclassificationEvent (sql : Text) (poolMode : PoolMode) : Event :=
  let cls := classifyFor .compat sql
  { port := .compat, poolMode, leaseType := text "transaction", source := text "client",
    classification := some ⟨cls.kind, cls.source, truncateSQL sql 256⟩,
    outcome := { kind := .rejected, sqlState := "25006", reason := text "compat:reclassification" },
    consistency := some { mode := .boundedStaleness } }

/-- Record a write in a transaction that the compat port leased as a read. -/
def Pipeline.rejectCompatReclassification (p : Pipeline) (sql : Text) (poolMode : PoolMode) :
    Event × Pipeline :=
  let event := compatReclassificationEvent sql poolMode
  (event,
    { p with
      decisionsTotal := p.decisionsTotal + 1
      decisionsRejected := p.decisionsRejected + 1
      compatReclassificationRejections := p.compatReclassificationRejections + 1 }.emitEvent event)

/-- Whether a policy leaves a node eligible, and the condition; without an engine all do. -/
def Pipeline.policyState (p : Pipeline) (policyName nodeID : Text) : Bool × Text :=
  match p.policyEng with
  | some e => e.evaluatePolicyState policyName nodeID
  | none => (true, [])

/-- The reason a policy gives for excluding a node, with a default for an empty condition. -/
def Pipeline.policyReasons (p : Pipeline) (policyName nodeID default : Text) : List Text :=
  let state := p.policyState policyName nodeID
  if state.1 then [] else if state.2 ≠ [] then [state.2] else [default]

/-- The reason a role gives for excluding a node. The open post-write window narrows a compat
read to the primary. -/
def roleReasons (port : Port) (classType : Kind) (postWriteWindowActive : Bool) (role : Role) :
    List Text :=
  if port = .compat ∧ classType = .read ∧ postWriteWindowActive then
    if role = .unknown then [text "role:unknown"]
    else if role ≠ .primary then [text "post_write_window:primary_only"]
    else []
  else if (port = .write ∨ (port = .compat ∧ classType = .write)) ∧ role ≠ .primary then
    if role = .unknown then [text "role:unknown"] else [text "role:not_primary"]
  else if (port = .read ∨ (port = .compat ∧ classType = .read)) ∧ role ≠ .replica then
    if role = .unknown then [text "role:unknown"] else [text "role:not_replica"]
  else []

/-- The reasons that exclude a node, in the order of the filters. A write on the compat port is
not filtered by lag. -/
def Pipeline.reasons (p : Pipeline) (port : Port) (classType : Kind) (postWriteWindowActive : Bool)
    (nv : NodeView) : List Text :=
  (if nv.systemID ≠ [] ∧ nv.systemID ≠ p.topo.clusterID then [text "system_id:mismatch"] else []) ++
  roleReasons port classType postWriteWindowActive nv.observedRole ++
  p.policyReasons p.defaultHealthPolicyName nv.id (text "liveness:not_up") ++
  (if classType ≠ .write then
    p.policyReasons p.defaultLagPolicyName nv.id (text "lag:policy_active") else []) ++
  p.policyReasons p.defaultSatPolicyName nv.id (text "pool:saturated")

/-- Judge every node of a snapshot. -/
def Pipeline.filterCandidates (p : Pipeline) (nodes : List NodeView) (port : Port)
    (classType : Kind) (postWriteWindowActive : Bool) : List Candidate :=
  nodes.map fun nv =>
    let reasons := p.reasons port classType postWriteWindowActive nv
    ⟨nv.id, decide (reasons = []), reasons⟩

/-- The eligible nodes, in the order of the candidates. -/
def eligibleNodes (candidates : List Candidate) : List NodeID :=
  (candidates.filter Candidate.eligible).map Candidate.nodeID

/-- The policies that hold some candidate in state active. -/
def Pipeline.activePolicies (p : Pipeline) (candidates : List Candidate) : List Text :=
  match p.policyEng with
  | none => []
  | some e =>
    (e.instances.filter fun inst =>
      candidates.any fun c => (e.candidateState inst.name c.nodeID).1 == .active).map Instance.name

/-- Select an eligible node and advance the round-robin counter where it is used. On the write
port the primary is taken if it is eligible, and the first eligible node by name if not. -/
def selectNode (readRR : UInt64) (eligible : List NodeID) (h : eligible ≠ []) (port : Port)
    (primary : Option NodeView) : NodeID × UInt64 :=
  if port = .write then
    match primary.bind fun view => eligible.find? fun id => id == view.id with
    | some id => (id, readRR)
    | none =>
      let first := eligible.head h
      (eligible.foldl (fun selected id => if id < selected then id else selected) first, readRR)
  else if eligible.length = 1 then (eligible.head h, readRR)
  else
    (eligible.get ⟨(readRR + 1).toNat % eligible.length,
      Nat.mod_lt _ (List.length_pos_of_ne_nil h)⟩, readRR + 1)

/-- Acquire a connection from the pool of a node. -/
def acquireFrom (t : Topology) (env : Env t) (chosen : NodeID) :
    Except (ProxyError × Text) ConnId :=
  match t.poolFor chosen with
  | .error err =>
    .error (⟨"57P03", "[grunyas] no upstream available", some err⟩, text "pool_lookup_failed")
  | .ok pool =>
    match env.acquire pool with
    | .error err =>
      .error (⟨"53300", "[grunyas] pool saturated", some err⟩, text "pool:acquisition_failed")
    | .ok conn => .ok conn

/-- Answer with an error: the event carries its code and the reason. -/
def Pipeline.reject (p : Pipeline) (event : Event) (nodeID : NodeID) (error : ProxyError)
    (reason : Text) : LeaseResult × Pipeline :=
  let event := { event with outcome := { kind := .rejected, sqlState := error.code, reason } }
  ({ nodeID, decision := some event, error := some error },
    { p with decisionsRejected := p.decisionsRejected + 1 }.emitEvent event)

/-- The consistency a decision states for a request that found no eligible node. -/
def emptyConsistency (port : Port) (kind : Kind) : Option Consistency :=
  match port with
  | .read => some { mode := .boundedStaleness }
  | .write => some { mode := .linearizable }
  | .compat => some { mode := if kind = .write then .linearizable else .boundedStaleness }
  | .other _ => none

/-- The consistency a decision states for a leased connection. -/
def leasedConsistency (req : LeaseRequest) (kind : Kind) : Option Consistency :=
  match req.port with
  | .read => some { mode := .boundedStaleness }
  | .write => some { mode := .linearizable }
  | .compat =>
    if kind = .write then some { mode := .linearizable }
    else if req.postWriteWindowActive then
      some { mode := .postWriteWindow, windowRemainingMs := some req.postWriteWindowRemainingMs }
    else some { mode := .boundedStaleness }
  | .other _ => none

/-- Answer a request for which no node is eligible. A compat read falls back to the primary. -/
def Pipeline.leaseEmpty (p : Pipeline) (env : Env p.topo) (req : LeaseRequest) (kind : Kind)
    (event : Event) : LeaseResult × Pipeline :=
  match if req.port = .compat ∧ kind = .read then p.topo.primary env.now env.forPrimary else none with
  | some primary =>
    let event := { event with
      outcome := { kind := .fallback, nodeID := primary.id, reason := text "empty_eligible_set" }
      consistency := some { mode := .linearizable } }
    match acquireFrom p.topo env primary.id with
    | .error (error, reason) => p.reject event primary.id error reason
    | .ok conn =>
      ({ upstream := some conn, nodeID := primary.id, decision := some event },
        { p with decisionsFallback := p.decisionsFallback + 1 }.emitEvent event)
  | none =>
    let event := { event with consistency := emptyConsistency req.port kind }
    if req.port = .write ∨ (req.port = .compat ∧ kind = .write) then
      p.reject event [] ⟨"57P03", "[grunyas] no primary available", none⟩ (text "no_primary")
    else
      p.reject event [] ⟨"57P03", "[grunyas] no eligible replica available", none⟩
        (text "no_eligible_replica")

/-- Answer a request for which some node is eligible. The write port refuses when no single
primary is observed, and then leaves the decision of the result unset. -/
def Pipeline.leaseEligible (p : Pipeline) (env : Env p.topo) (req : LeaseRequest) (kind : Kind)
    (event : Event) (eligible : List NodeID) (h : eligible ≠ []) : LeaseResult × Pipeline :=
  let primary := p.topo.primary env.now env.forPrimary
  if req.port = .write ∧ primary = none then
    let event := { event with consistency := some { mode := .linearizable } }
    let refused := p.reject event [] ⟨"57P03", "[grunyas] no primary available", none⟩
      (text "no_primary")
    ({ refused.1 with decision := none }, refused.2)
  else
    let selected := selectNode p.readRR eligible h req.port primary
    match acquireFrom p.topo env selected.1 with
    | .error (error, reason) => { p with readRR := selected.2 }.reject event selected.1 error reason
    | .ok conn =>
      let event := { event with
        outcome := { kind := .leased, nodeID := selected.1 }
        consistency := leasedConsistency req kind }
      ({ upstream := some conn, nodeID := selected.1, decision := some event },
        { p with
          readRR := selected.2
          decisionsLeased := p.decisionsLeased + 1 }.emitEvent event)

/-- The type of the statement, which matters for routing on the compat port only. -/
def LeaseRequest.classType (req : LeaseRequest) : Kind :=
  if req.port = .compat then (classifyFor req.port req.sql).kind else .empty

/-- The candidates of a request. -/
def Pipeline.candidates (p : Pipeline) (env : Env p.topo) (req : LeaseRequest) : List Candidate :=
  p.filterCandidates (p.topo.nodeViews env.now env.forNodes) req.port req.classType
    req.postWriteWindowActive

/-- Record the size of the eligible set. -/
def Pipeline.recordEligible (p : Pipeline) (port : Port) (size : ℕ) : Pipeline :=
  { p with
    eligibleSetRead := if port = .read ∨ port = .compat then size else p.eligibleSetRead
    eligibleSetWrite := if port = .read ∨ port = .compat then p.eligibleSetWrite else size }

/-- Answer a lease request. -/
def Pipeline.lease (p : Pipeline) (env : Env p.topo) (req : LeaseRequest) :
    LeaseResult × Pipeline :=
  let counted : Pipeline := { p with decisionsTotal := p.decisionsTotal + 1 }
  let event : Event :=
    { port := req.port, poolMode := req.poolMode, leaseType := req.leaseType,
      source := text "client" }
  if isValidPort req.port = false then
    counted.reject event [] ⟨"0A000", "[grunyas] invalid port", none⟩ (text "invalid_port")
  else
    let cls := classifyFor req.port req.sql
    let event := { event with
      classification := some ⟨cls.kind, cls.source, truncateSQL req.sql 256⟩ }
    if p.topo.nodeViews env.now env.forNodes = [] then
      counted.reject event [] ⟨"57P03", "[grunyas] no upstream available", none⟩ (text "no_nodes")
    else
      let candidates := p.candidates env req
      let event := { event with candidates, policiesActive := p.activePolicies candidates }
      let eligible := eligibleNodes candidates
      let recorded := counted.recordEligible req.port eligible.length
      if h : eligible = [] then recorded.leaseEmpty env req cls.kind event
      else recorded.leaseEligible env req cls.kind event eligible h

end Grunyas.Routing
