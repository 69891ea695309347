import Grunyas.Routing.Selection

/-!
# Routing of writes to a single primary

A write should reach the one node that is observed as primary. Three views of the cluster meet
in a lease: the filters judge a snapshot in which old observations are unknown and from which
permanently-down nodes are not removed, the search for the primary skips those nodes and ignores
the age of an observation, and only the write port refuses when that search fails.
`lease_single_writer_iff` says exactly when the three agree.
-/

namespace Grunyas.Routing

open GoText GoMap Grunyas.Server Grunyas.Classifier Grunyas.Cluster Grunyas.Decisions Grunyas.Policy

variable {p : Pipeline} {req : LeaseRequest} {now : Time}

/-- The request is for a write: on the write port, or of a write statement on the compat port. -/
def LeaseRequest.WriteClassified (req : LeaseRequest) : Prop :=
  req.port = .write ∨ (req.port = .compat ∧ (classifyFor .compat req.sql).kind = .write)

/-- The recorded state with which a node is eligible for a write: of this cluster, seen as
primary recently enough, and held by none of the policies consulted on the port. -/
structure Pipeline.AdmitsWrite (p : Pipeline) (now : Time) (port : Port) (id : NodeID)
    (ns : NodeState) : Prop where
  cluster : ns.systemID = [] ∨ ns.systemID = p.topo.clusterID
  role : ns.observedRole = .primary
  recent : expired now ns.lastProbeAt p.topo.observedRoleMaxAgeMs = false
  health : (p.policyState p.defaultHealthPolicyName id).1 = true
  lag : port = .write → (p.policyState p.defaultLagPolicyName id).1 = true
  saturation : (p.policyState p.defaultSatPolicyName id).1 = true

/-- The node is declared and eligible for a write. -/
def Pipeline.Writable (p : Pipeline) (now : Time) (port : Port) (id : NodeID) : Prop :=
  ∃ ns, p.topo.nodes.lookup id = some ns ∧ p.AdmitsWrite now port id ns

/-- Nothing but the sole primary can be leased for a write. The write port demands that there is
one, which then has to be writable if any node is. On the compat port no permanently-down node may
be writable, and while some node is, no two nodes may be observed as primary. -/
def Pipeline.WriterSettled (p : Pipeline) (now : Time) : Port → Prop
  | .write => ∀ primary, p.topo.SolePrimary primary → (∃ id, p.Writable now .write id) →
      p.Writable now .write primary
  | port => (∀ id, p.Writable now port id → ¬p.topo.PermanentlyDown id) ∧
      ((∃ id, p.Writable now port id) → ∀ first second, p.topo.ObservesPrimary first →
        p.topo.ObservesPrimary second → first = second)

/-- The classification under which a write is filtered. -/
theorem classType_of_writeClassified (hwrite : req.WriteClassified) :
    (req.port = .write ∧ req.classType = .empty) ∨ (req.port = .compat ∧ req.classType = .write) := by
  rcases hwrite with hport | ⟨hport, hkind⟩
  · exact Or.inl ⟨hport, by rw [LeaseRequest.classType, hport, if_neg (by decide)]⟩
  · refine Or.inr ⟨hport, ?_⟩
    rw [LeaseRequest.classType, if_pos hport, hport]
    exact hkind

/-- A write finds no fault with a role exactly when it is primary. -/
theorem roleReasons_eq_nil_of_write {port : Port} {classType : Kind} {windowActive : Bool}
    (h : (port = .write ∧ classType = .empty) ∨ (port = .compat ∧ classType = .write))
    (role : Role) : roleReasons port classType windowActive role = [] ↔ role = .primary := by
  rcases h with ⟨rfl, rfl⟩ | ⟨rfl, rfl⟩ <;> cases role <;> simp [roleReasons]

/-- No filter excludes a node from a write exactly when its recorded state admits it. -/
theorem admits_iff_of_write (hwrite : req.WriteClassified) (id : NodeID) (ns : NodeState) :
    p.admits now req ⟨id, ns⟩ = true ↔ p.AdmitsWrite now req.port id ns := by
  have hclass := classType_of_writeClassified hwrite
  have hfilters : req.classType ≠ .write ↔ req.port = .write := by
    rcases hclass with ⟨hport, htype⟩ | ⟨hport, htype⟩ <;> simp [hport, htype]
  rw [Pipeline.admits, decide_eq_true_iff, reasons_eq_nil_iff, roleReasons_eq_nil_of_write hclass,
    Topology.nodeView_primary_iff, hfilters]
  constructor
  · intro h
    obtain ⟨hsystem, ⟨hrole, hrecent⟩, hhealth, hlag, hsat⟩ := h
    exact ⟨hsystem, hrole, hrecent, hhealth, hlag, hsat⟩
  · intro h
    exact ⟨h.cluster, ⟨h.role, h.recent⟩, h.health, h.lag, h.saturation⟩

/-- The eligible nodes of a write are the writable ones. -/
theorem mem_eligibleNodes_of_write (hwrite : req.WriteClassified) {env : Env p.topo} {id : NodeID} :
    id ∈ eligibleNodes (p.candidates env req) ↔ p.Writable env.now req.port id := by
  rw [mem_eligibleNodes]
  exact exists_congr fun ns => and_congr_right fun _ => admits_iff_of_write hwrite id ns

/-- When some node is eligible the answer is the selected node, if the write port sees a sole
primary and the node's pool has a connection. -/
theorem leaseEligible_ok_iff {env : Env p.topo} {kind : Kind} {event : Event}
    {eligible : List NodeID} (h : eligible ≠ []) {id : NodeID} :
    ((p.leaseEligible env req kind event eligible h).1.error = none ∧
        (p.leaseEligible env req kind event eligible h).1.nodeID = id) ↔
      (req.port = .write → ∃ primary, p.topo.SolePrimary primary) ∧
        (selectNode p.readRR eligible h req.port
          (p.topo.primary env.now env.forPrimary)).1 = id ∧
        ∃ conn, acquireFrom p.topo env id = .ok conn := by
  have hguard : (req.port = .write ∧ p.topo.primary env.now env.forPrimary = none) ↔
      ¬(req.port = .write → ∃ primary, p.topo.SolePrimary primary) := by
    rw [Classical.not_imp, ← Topology.primary_isSome_iff env.now env.forPrimary,
      Bool.not_eq_true, Option.isSome_eq_false_iff, Option.isNone_iff_eq_none]
  unfold Pipeline.leaseEligible
  dsimp only
  by_cases hrefused : req.port = .write ∧ p.topo.primary env.now env.forPrimary = none
  · rw [if_pos hrefused]
    apply iff_of_false
    · intro hleased
      cases hleased.1
    · intro hleased
      exact hguard.mp hrefused hleased.1
  · have hsole := not_not.mp (mt hguard.mpr hrefused)
    rw [if_neg hrefused]
    cases hacquire : acquireFrom p.topo env (selectNode p.readRR eligible h req.port
        (p.topo.primary env.now env.forPrimary)).1 with
    | error refusal =>
      apply iff_of_false
      · intro hleased
        cases hleased.1
      · intro hleased
        obtain ⟨-, rfl, conn, hconn⟩ := hleased
        rw [hacquire] at hconn
        cases hconn
    | ok conn =>
      constructor
      · intro hleased
        exact ⟨hsole, hleased.2, conn, hleased.2 ▸ hacquire⟩
      · intro hleased
        exact ⟨rfl, hleased.2.1⟩

/-- Without an eligible node only a read on the compat port is answered with a node, the primary. -/
theorem leaseEmpty_ok {env : Env p.topo} {kind : Kind} {event : Event}
    (hok : (p.leaseEmpty env req kind event).1.error = none) :
    (req.port = .compat ∧ kind = .read) ∧
      ∃ primary, p.topo.primary env.now env.forPrimary = some primary ∧
        (p.leaseEmpty env req kind event).1.nodeID = primary.id ∧
        (p.leaseEmpty env req kind event).1.decision = some { event with
          outcome := { kind := .fallback, nodeID := primary.id, reason := text "empty_eligible_set" }
          consistency := some { mode := .linearizable } } := by
  unfold Pipeline.leaseEmpty at hok ⊢
  split at hok
  next primary hsearch =>
    rw [Option.ite_none_right_eq_some] at hsearch
    split at hok
    next => cases hok
    next conn hconn => exact ⟨hsearch.1, primary, hsearch.2, rfl, rfl⟩
  next =>
    dsimp only at hok
    split_ifs at hok
    · cases hok
    · cases hok

/-- The decision on a leased node names it and keeps the candidates. -/
theorem leaseEligible_decision {env : Env p.topo} {kind : Kind} {event : Event}
    {eligible : List NodeID} (h : eligible ≠ [])
    (hok : (p.leaseEligible env req kind event eligible h).1.error = none) :
    (p.leaseEligible env req kind event eligible h).1.decision = some { event with
      outcome := { kind := .leased, nodeID := (p.leaseEligible env req kind event eligible h).1.nodeID }
      consistency := leasedConsistency req kind } := by
  unfold Pipeline.leaseEligible at hok ⊢
  dsimp only at hok ⊢
  split_ifs at hok ⊢
  · cases hok
  · split at hok
    next => cases hok
    next conn hconn => rfl

/-- A write is no read on the compat port. -/
theorem LeaseRequest.WriteClassified.not_compatRead (hwrite : req.WriteClassified) :
    ¬(req.port = .compat ∧ (classifyFor req.port req.sql).kind = .read) := by
  intro hread
  rcases hwrite with hport | ⟨hport, hkind⟩
  · rw [hport] at hread
    cases hread.1
  · rw [hport, hkind] at hread
    cases hread.2

/-- A write for which no node is eligible is refused. -/
theorem leaseEmpty_error_of_write (hwrite : req.WriteClassified) (env : Env p.topo) (event : Event) :
    (p.leaseEmpty env req (classifyFor req.port req.sql).kind event).1.error ≠ none := by
  unfold Pipeline.leaseEmpty
  rw [if_neg hwrite.not_compatRead]
  dsimp only
  split_ifs <;> exact Option.some_ne_none _

/-- On a port that is served, the node that is leased is the selected one if some node is eligible. -/
theorem lease_ok_iff_of_eligible (hvalid : isValidPort req.port = true) {env : Env p.topo}
    (h : eligibleNodes (p.candidates env req) ≠ []) {id : NodeID} :
    ((p.lease env req).1.error = none ∧ (p.lease env req).1.nodeID = id) ↔
      (req.port = .write → ∃ primary, p.topo.SolePrimary primary) ∧
        (selectNode p.readRR _ h req.port (p.topo.primary env.now env.forPrimary)).1 = id ∧
        ∃ conn, acquireFrom p.topo env id = .ok conn := by
  have hnodes : p.topo.nodeViews env.now env.forNodes ≠ [] := by
    intro hnodes
    exact h (by rw [Pipeline.candidates, hnodes]; rfl)
  unfold Pipeline.lease
  dsimp only
  rw [if_neg (Bool.not_eq_false _ ▸ hvalid), if_neg hnodes, dif_neg h]
  exact leaseEligible_ok_iff h

/-- The nodes a write is leased on: the selected one among those eligible. -/
theorem lease_ok_iff (hwrite : req.WriteClassified) {env : Env p.topo} {id : NodeID} :
    ((p.lease env req).1.error = none ∧ (p.lease env req).1.nodeID = id) ↔
      ∃ h : eligibleNodes (p.candidates env req) ≠ [],
        (req.port = .write → ∃ primary, p.topo.SolePrimary primary) ∧
        (selectNode p.readRR _ h req.port (p.topo.primary env.now env.forPrimary)).1 = id ∧
        ∃ conn, acquireFrom p.topo env id = .ok conn := by
  have hvalid : isValidPort req.port = true := by
    rcases hwrite with hport | ⟨hport, -⟩ <;> rw [hport] <;> rfl
  by_cases hempty : eligibleNodes (p.candidates env req) = []
  · apply iff_of_false
    · intro hleased
      have herror := hleased.1
      unfold Pipeline.lease at herror
      dsimp only at herror
      split_ifs at herror
      · cases herror
      · cases herror
      · exact leaseEmpty_error_of_write hwrite _ _ herror
    · intro hleased
      exact hleased.1 hempty
  · rw [exists_prop_of_true hempty]
    exact lease_ok_iff_of_eligible hvalid hempty

/-- An environment whose pools all have a connection. -/
def Env.supplied (t : Topology) (now : Time) (forNodes forPrimary : Range t.nodes) : Env t where
  now := now
  forNodes := forNodes
  forPrimary := forPrimary
  acquire := fun _ => .ok 0

/-- With supplied pools a declared node gives a connection. -/
theorem acquireFrom_supplied {t : Topology} {forNodes forPrimary : Range t.nodes} {id : NodeID}
    {ns : NodeState} (hlookup : t.nodes.lookup id = some ns) :
    acquireFrom t (.supplied t now forNodes forPrimary) id = .ok 0 := by
  simp only [acquireFrom, Topology.poolFor, hlookup, Env.supplied]

/-- Selected nodes are writable. -/
theorem writable_of_selected (hwrite : req.WriteClassified) {env : Env p.topo}
    (h : eligibleNodes (p.candidates env req) ≠ []) (primary : Option NodeView) :
    p.Writable env.now req.port (selectNode p.readRR _ h req.port primary).1 :=
  (mem_eligibleNodes_of_write hwrite).mp (selectNode_mem _ h _ _)

/-- With supplied pools a write is leased on the selected node, where the port allows it. -/
theorem lease_supplied (hwrite : req.WriteClassified) {forNodes forPrimary : Range p.topo.nodes}
    (h : eligibleNodes (p.candidates (.supplied p.topo now forNodes forPrimary) req) ≠ [])
    (hsole : req.port = .write → ∃ primary, p.topo.SolePrimary primary) :
    (p.lease (.supplied p.topo now forNodes forPrimary) req).1.error = none ∧
      (p.lease (.supplied p.topo now forNodes forPrimary) req).1.nodeID =
        (selectNode p.readRR _ h req.port (p.topo.primary now forPrimary)).1 := by
  obtain ⟨ns, hlookup, -⟩ := writable_of_selected hwrite h (p.topo.primary now forPrimary)
  exact (lease_ok_iff hwrite).mpr ⟨h, hsole, rfl, 0, acquireFrom_supplied hlookup⟩

/-- On the write port a settled writer is what is leased. -/
theorem solePrimary_of_lease_write (hport : req.port = .write) (hsettled : p.WriterSettled now .write)
    {env : Env p.topo} (hnow : env.now = now) (hok : (p.lease env req).1.error = none) :
    p.topo.SolePrimary (p.lease env req).1.nodeID := by
  have hwrite : req.WriteClassified := Or.inl hport
  obtain ⟨h, hsole, hselected, -⟩ := (lease_ok_iff hwrite).mp ⟨hok, rfl⟩
  obtain ⟨primary, hprimary⟩ := hsole hport
  have hany := writable_of_selected hwrite h (p.topo.primary env.now env.forPrimary)
  rw [hnow, hport] at hany
  have hmem : primary ∈ eligibleNodes (p.candidates env req) := by
    rw [mem_eligibleNodes_of_write hwrite, hnow, hport]
    exact hsettled primary hprimary ⟨_, hany⟩
  obtain ⟨view, hview, rfl⟩ :=
    Option.map_eq_some_iff.mp ((Topology.primary_id env.now env.forPrimary primary).mpr hprimary)
  rw [hview, selectNode_write _ h hport hmem] at hselected
  exact hselected ▸ hprimary

/-- On the compat port a settled writer is what is leased. -/
theorem solePrimary_of_lease_compat (hport : req.port = .compat) (hwrite : req.WriteClassified)
    (hsettled : p.WriterSettled now .compat) {env : Env p.topo} (hnow : env.now = now)
    (hok : (p.lease env req).1.error = none) : p.topo.SolePrimary (p.lease env req).1.nodeID := by
  obtain ⟨h, -, hselected, -⟩ := (lease_ok_iff hwrite).mp ⟨hok, rfl⟩
  have hwritable := writable_of_selected hwrite h (p.topo.primary env.now env.forPrimary)
  rw [hselected, hnow, hport] at hwritable
  obtain ⟨ns, hlookup, hadmits⟩ := hwritable
  have hdown : ns.permanentlyDown = false := by
    rw [← Bool.not_eq_true]
    exact fun hdown => hsettled.1 _ ⟨ns, hlookup, hadmits⟩ ⟨ns, hlookup, hdown⟩
  have hprimary : p.topo.ObservesPrimary (p.lease env req).1.nodeID :=
    ⟨ns, hlookup, hdown, hadmits.role⟩
  exact ⟨hprimary, fun other hother =>
    hsettled.2 ⟨_, ns, hlookup, hadmits⟩ other _ hother hprimary⟩

/-- If every lease on the write port is of the sole primary, the writer is settled there: with
the primary not eligible the selection would fall back to another node. -/
theorem writerSettled_write (hport : req.port = .write)
    (hall : ∀ env : Env p.topo, env.now = now → (p.lease env req).1.error = none →
      p.topo.SolePrimary (p.lease env req).1.nodeID) : p.WriterSettled now .write := by
  intro primary hprimary hany
  have hwrite : req.WriteClassified := Or.inl hport
  obtain ⟨order⟩ := Range.nonempty p.topo.nodes
  obtain ⟨id, hid⟩ := hany
  have h : eligibleNodes (p.candidates (.supplied p.topo now order order) req) ≠ [] :=
    List.ne_nil_of_mem ((mem_eligibleNodes_of_write hwrite).mpr (hport ▸ hid))
  obtain ⟨hok, hselected⟩ := lease_supplied hwrite h fun _ => ⟨primary, hprimary⟩
  have hsole := hall _ rfl hok
  have hsame := hprimary.2 _ hsole.1
  have hwritable := writable_of_selected hwrite h (p.topo.primary now order)
  rw [← hselected, hsame, hport] at hwritable
  exact hwritable

/-- If every write leased on the compat port is of the sole primary, every writable node is it:
each is selected for some order of the snapshot. -/
theorem solePrimary_of_writable (hport : req.port = .compat) (hwrite : req.WriteClassified)
    (hall : ∀ env : Env p.topo, env.now = now → (p.lease env req).1.error = none →
      p.topo.SolePrimary (p.lease env req).1.nodeID) {id : NodeID}
    (hid : p.Writable now .compat id) : p.topo.SolePrimary id := by
  obtain ⟨first⟩ := Range.nonempty p.topo.nodes
  have hmem (order : Range p.topo.nodes) :
      id ∈ eligibleNodes (p.candidates (.supplied p.topo now order first) req) :=
    (mem_eligibleNodes_of_write hwrite).mpr (hport ▸ hid)
  have hnotWrite : req.port ≠ .write := by rw [hport]; decide
  obtain ⟨order, horder⟩ := exists_selectNode hnotWrite (p.topo.primary now first) (hmem first)
  have h := List.ne_nil_of_mem (hmem order)
  obtain ⟨hok, hselected⟩ :=
    lease_supplied hwrite h fun hwritePort => absurd hwritePort hnotWrite
  have hsole := hall _ rfl hok
  rw [hselected] at hsole
  exact horder h ▸ hsole

/-- A sole primary is not permanently down. -/
theorem not_permanentlyDown_of_solePrimary {t : Topology} {id : NodeID} (h : t.SolePrimary id) :
    ¬t.PermanentlyDown id := by
  intro hexcluded
  obtain ⟨ns, hlookup, hdown⟩ := hexcluded
  obtain ⟨found, hfound, hnot, -⟩ := h.1
  rw [hlookup, Option.some.injEq] at hfound
  rw [← hfound, hdown] at hnot
  cases hnot

/-- If every write leased on the compat port is of the sole primary, the writer is settled there. -/
theorem writerSettled_compat (hport : req.port = .compat) (hwrite : req.WriteClassified)
    (hall : ∀ env : Env p.topo, env.now = now → (p.lease env req).1.error = none →
      p.topo.SolePrimary (p.lease env req).1.nodeID) : p.WriterSettled now .compat := by
  constructor
  · intro id hid
    exact not_permanentlyDown_of_solePrimary (solePrimary_of_writable hport hwrite hall hid)
  · intro hany first second hfirst hsecond
    obtain ⟨id, hid⟩ := hany
    have hsole := solePrimary_of_writable hport hwrite hall hid
    exact (hsole.2 first hfirst).trans (hsole.2 second hsecond).symm

/-- Whatever the orders in which the map of nodes is visited and whatever the pools answer, a
write is leased on the sole primary only, exactly when the writer is settled on its port. -/
theorem lease_single_writer_iff (p : Pipeline) (now : Time) (req : LeaseRequest)
    (hwrite : req.WriteClassified) :
    (∀ env : Env p.topo, env.now = now → (p.lease env req).1.error = none →
        p.topo.SolePrimary (p.lease env req).1.nodeID) ↔ p.WriterSettled now req.port := by
  rcases hwrite with hport | hcompat
  · rw [hport]
    exact ⟨writerSettled_write hport, fun hsettled env hnow hok =>
      solePrimary_of_lease_write hport hsettled hnow hok⟩
  · rw [hcompat.1]
    exact ⟨writerSettled_compat hcompat.1 (Or.inr hcompat), fun hsettled env hnow hok =>
      solePrimary_of_lease_compat hcompat.1 (Or.inr hcompat) hsettled hnow hok⟩

/-- A node seen up nine seconds after the zero time, with its role. -/
def seenNode (role : Role) : NodeState where
  config := ⟨text "db", 5432, text "replica"⟩
  pool := 0
  observedRole := role
  liveness := .up
  systemID := text "7"
  lastProbeAt := 9000000000
  lastProbeErr := none
  permanentlyDown := false
  replicationLagMs := none
  replicationLagState := .notApplicable
  lastLagSampleAt := 0

/-- The entries of a cluster of two nodes `a` and `b`. -/
def twoEntries (a b : NodeState) : List (Sigma fun _ : NodeID => NodeState) :=
  [⟨text "a", a⟩, ⟨text "b", b⟩]

/-- A cluster of two nodes `a` and `b`. -/
def twoNodes (a b : NodeState) : Topology where
  nodes := ⟨twoEntries a b, Multiset.coe_nodupKeys.mpr
    (show [text "a", text "b"].Nodup by decide)⟩
  clusterID := text "7"
  livenessMaxAgeMs := 5000
  observedRoleMaxAgeMs := 5000
  replicationLagMaxAgeMs := 2000

/-- Both loops visit `a` before `b`, ten seconds after the zero time. -/
def twoNodesEnv (a b : NodeState) : Env (twoNodes a b) :=
  .supplied _ 10000000000 ⟨twoEntries a b, rfl⟩ ⟨twoEntries a b, rfl⟩

/-- The nodes of a cluster of two. -/
theorem lookup_twoNodes {a b ns : NodeState} {id : NodeID} :
    (twoNodes a b).nodes.lookup id = some ns ↔ (id = text "a" ∧ ns = a) ∨ (id = text "b" ∧ ns = b) := by
  rw [← (twoNodesEnv a b).forNodes.mem_entries]
  simp [twoNodesEnv, Env.supplied, twoEntries]

/-- An insert on a port. -/
def insertRequest (port : Port) : LeaseRequest where
  port := port
  poolMode := .transaction
  leaseType := text "transaction"
  sql := text "INSERT INTO t VALUES (1)"
  postWriteWindowActive := false
  postWriteWindowRemainingMs := 0

/-- The pipeline over a primary and a replica. -/
def primaryAndReplica : Pipeline :=
  newPipeline (twoNodes (seenNode .primary) (seenNode .replica)) none true

/-- The pipeline over two primaries. -/
def twoPrimaries : Pipeline :=
  newPipeline (twoNodes (seenNode .primary) (seenNode .primary)) none true

/-- Only `a` is observed as primary in the cluster of a primary and a replica. -/
theorem observesPrimary_primaryAndReplica {id : NodeID}
    (h : primaryAndReplica.topo.ObservesPrimary id) : id = text "a" := by
  obtain ⟨ns, hlookup, -, hrole⟩ := h
  rcases lookup_twoNodes.mp hlookup with ⟨hid, -⟩ | ⟨-, rfl⟩
  · exact hid
  · cases hrole

/-- With one primary an insert on the compat port is leased on it. -/
theorem lease_single_writer_one_primary :
    (primaryAndReplica.lease (twoNodesEnv _ _) (insertRequest .compat)).1.error = none ∧
      primaryAndReplica.topo.SolePrimary
        (primaryAndReplica.lease (twoNodesEnv _ _) (insertRequest .compat)).1.nodeID := by
  have hwrite : (insertRequest .compat).WriteClassified := Or.inr ⟨rfl, by decide⟩
  have hok : (primaryAndReplica.lease (twoNodesEnv _ _) (insertRequest .compat)).1.error = none := by
    decide
  refine ⟨hok, (lease_single_writer_iff primaryAndReplica 10000000000 _ hwrite).mpr ?_ _ rfl hok⟩
  constructor
  · intro id _ hexcluded
    obtain ⟨ns, hlookup, hdown⟩ := hexcluded
    rcases lookup_twoNodes.mp hlookup with ⟨-, rfl⟩ | ⟨-, rfl⟩ <;> cases hdown
  · intro _ first second hfirst hsecond
    exact (observesPrimary_primaryAndReplica hfirst).trans
      (observesPrimary_primaryAndReplica hsecond).symm

/-- With two primaries an insert on the compat port is leased on one of them. -/
theorem lease_two_primaries :
    (twoPrimaries.lease (twoNodesEnv _ _) (insertRequest .compat)).1.error = none ∧
      ¬twoPrimaries.topo.SolePrimary
        (twoPrimaries.lease (twoNodesEnv _ _) (insertRequest .compat)).1.nodeID := by
  refine ⟨by decide, fun hsole => ?_⟩
  have ha := hsole.2 (text "a")
    ⟨seenNode .primary, lookup_twoNodes.mpr (Or.inl ⟨rfl, rfl⟩), rfl, rfl⟩
  have hb := hsole.2 (text "b")
    ⟨seenNode .primary, lookup_twoNodes.mpr (Or.inr ⟨rfl, rfl⟩), rfl, rfl⟩
  exact absurd (ha.trans hb.symm) (by decide)

/-- The pipeline over a primary last probed nine seconds ago and a permanently-down one. -/
def silentAndExcluded : Pipeline :=
  newPipeline (twoNodes { seenNode .primary with lastProbeAt := 1000000000 }
    { seenNode .primary with permanentlyDown := true }) none true

example : (silentAndExcluded.lease (twoNodesEnv _ _) (insertRequest .write)).1.error = none ∧
    (silentAndExcluded.lease (twoNodesEnv _ _) (insertRequest .write)).1.nodeID = text "b" := by
  decide

end Grunyas.Routing
