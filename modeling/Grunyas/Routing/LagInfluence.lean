import Grunyas.Policy.Transitions
import Grunyas.Routing.SingleWriter

/-!
# The influence of the replication lag on writes

Two runs of one write request meet engines that differ in the states of lag filters only. The lag
filter is skipped for a statement that is classified as a write, which happens on the compat port; on
the write port the classification is dropped before the filters see it.
`lag_never_influences_iff` says when the answers are the same.
-/

namespace Grunyas.Routing

open GoText GoMap Grunyas.Server Grunyas.Classifier Grunyas.Cluster Grunyas.Decisions Grunyas.Policy

/-- What a caller sees of an answer: the node and the outcome of the decision. -/
structure Answer where
  nodeID : NodeID
  kind : OutcomeKind
  sqlState : String
  reason : Text
  deriving DecidableEq, Repr

/-- The answer in a result. A decision that was never set has the zero outcome. -/
def LeaseResult.answer (result : LeaseResult) : Answer :=
  let outcome := (result.decision.map Decisions.Event.outcome).getD {}
  ⟨result.nodeID, outcome.kind, outcome.sqlState, outcome.reason⟩

/-- A pipeline with its engine in some state. -/
abbrev Pipeline.withEngine (p : Pipeline) (e : Engine) : Pipeline := { p with policyEng := some e }

/-- The policy is a lag filter. -/
def LagPolicy (e : Engine) (policyName : Text) : Prop :=
  ∃ inst ∈ e.instances, inst.name = policyName ∧ inst.template = .lagFilter

instance (e : Engine) (policyName : Text) : Decidable (LagPolicy e policyName) :=
  inferInstanceAs (Decidable (∃ inst ∈ e.instances, _))

/-- The engines differ in the states of lag filters only. -/
structure DiffersInLag (e e' : Engine) : Prop where
  instances : e'.instances = e.instances
  states : ∀ policyName nodeID, ¬LagPolicy e policyName →
    e'.perNodeState policyName nodeID = e.perNodeState policyName nodeID

/-- The policies that are consulted for a write on a port. -/
def Pipeline.consulted (p : Pipeline) (port : Port) : List Text :=
  if port = .write then [p.defaultHealthPolicyName, p.defaultLagPolicyName, p.defaultSatPolicyName]
  else [p.defaultHealthPolicyName, p.defaultSatPolicyName]

/-- The node is declared and writable, apart from the policies. -/
def Pipeline.PrimaryOf (p : Pipeline) (now : Time) (id : NodeID) : Prop :=
  ∃ ns, p.topo.nodes.lookup id = some ns ∧ (ns.systemID = [] ∨ ns.systemID = p.topo.clusterID) ∧
    ns.observedRole = .primary ∧ expired now ns.lastProbeAt p.topo.observedRoleMaxAgeMs = false

/-- The node is writable apart from the lag filters. -/
def Pipeline.WritableButLag (p : Pipeline) (e : Engine) (now : Time) (port : Port)
    (id : NodeID) : Prop :=
  p.PrimaryOf now id ∧ ∀ policyName ∈ p.consulted port, ¬LagPolicy e policyName →
    (e.evaluatePolicyState policyName id).1 = true

variable {p : Pipeline} {e e' : Engine} {req : LeaseRequest} {now : Time}

/-- A node is writable exactly if it is a primary that none of the consulted policies holds. -/
theorem writable_withEngine_iff {port : Port} {id : NodeID} :
    (p.withEngine e).Writable now port id ↔ p.PrimaryOf now id ∧
      ∀ policyName ∈ p.consulted port, (e.evaluatePolicyState policyName id).1 = true := by
  have hconsulted : (∀ policyName ∈ p.consulted port, (e.evaluatePolicyState policyName id).1 = true) ↔
      (e.evaluatePolicyState p.defaultHealthPolicyName id).1 = true ∧
        (port = .write → (e.evaluatePolicyState p.defaultLagPolicyName id).1 = true) ∧
        (e.evaluatePolicyState p.defaultSatPolicyName id).1 = true := by
    unfold Pipeline.consulted
    split_ifs with hport <;> simp [hport]
  rw [hconsulted]
  constructor
  · rintro ⟨ns, hlookup, h⟩
    exact ⟨⟨ns, hlookup, h.cluster, h.role, h.recent⟩, h.health, h.lag, h.saturation⟩
  · rintro ⟨⟨ns, hlookup, hcluster, hrole, hrecent⟩, hhealth, hlag, hsat⟩
    exact ⟨ns, hlookup, hcluster, hrole, hrecent, hhealth, hlag, hsat⟩

/-- The answer to a write for which some node is eligible. -/
def eligibleAnswer (t : Topology) (readRR : UInt64) (env : Env t) (port : Port) (eligible : List NodeID)
    (h : eligible ≠ []) : Answer :=
  if port = .write ∧ t.primary env.now env.forPrimary = none then ⟨[], .empty, "", []⟩
  else
    let selected := (selectNode readRR eligible h port (t.primary env.now env.forPrimary)).1
    match acquireFrom t env selected with
    | .error (error, reason) => ⟨selected, .rejected, error.code, reason⟩
    | .ok _ => ⟨selected, .leased, "", []⟩

/-- The answer to a write, from the nodes that are eligible. -/
def writeAnswer (t : Topology) (readRR : UInt64) (env : Env t) (port : Port) (eligible : List NodeID) :
    Answer :=
  if t.nodeViews env.now env.forNodes = [] then ⟨[], .rejected, "57P03", text "no_nodes"⟩
  else if h : eligible = [] then ⟨[], .rejected, "57P03", text "no_primary"⟩
  else eligibleAnswer t readRR env port eligible h

/-- A write for which no node is eligible is told that there is no primary. -/
theorem answer_leaseEmpty (hwrite : req.WriteClassified) (env : Env p.topo) (event : Decisions.Event) :
    (p.leaseEmpty env req (classifyFor req.port req.sql).kind event).1.answer =
      ⟨[], .rejected, "57P03", text "no_primary"⟩ := by
  have hfor : req.port = .write ∨
      (req.port = .compat ∧ (classifyFor req.port req.sql).kind = .write) := by
    rcases hwrite with hport | ⟨hport, hkind⟩
    · exact .inl hport
    · exact .inr ⟨hport, hport ▸ hkind⟩
  unfold Pipeline.leaseEmpty
  rw [if_neg hwrite.not_compatRead]
  dsimp only
  rw [if_pos hfor]
  rfl

/-- The answer to a write for which some node is eligible, whatever its event says else. -/
theorem answer_leaseEligible (env : Env p.topo) (kind : Kind) (event : Decisions.Event)
    {eligible : List NodeID} (h : eligible ≠ []) :
    (p.leaseEligible env req kind event eligible h).1.answer =
      eligibleAnswer p.topo p.readRR env req.port eligible h := by
  unfold Pipeline.leaseEligible eligibleAnswer
  dsimp only
  split_ifs with hrefused
  · rfl
  · cases acquireFrom p.topo env (selectNode p.readRR eligible h req.port
      (p.topo.primary env.now env.forPrimary)).1 <;> rfl

/-- The answer to a write depends on the policies through the eligible nodes only. -/
theorem answer_lease (hwrite : req.WriteClassified) (env : Env p.topo) :
    (p.lease env req).1.answer =
      writeAnswer p.topo p.readRR env req.port (eligibleNodes (p.candidates env req)) := by
  have hvalid : isValidPort req.port = true := by
    rcases hwrite with hport | ⟨hport, -⟩ <;> rw [hport] <;> rfl
  unfold Pipeline.lease writeAnswer
  dsimp only
  rw [if_neg (Bool.not_eq_false _ ▸ hvalid)]
  split_ifs with hnodes hempty
  · rfl
  · exact answer_leaseEmpty hwrite _ _
  · exact answer_leaseEligible _ _ _ hempty

/-- A pool that gives no connection is no missing primary. -/
theorem reason_of_acquireFrom {t : Topology} {env : Env t} {id : NodeID} {error : ProxyError}
    {reason : Text} (h : acquireFrom t env id = .error (error, reason)) :
    reason ≠ text "no_primary" := by
  unfold acquireFrom at h
  split at h
  · cases h
    decide
  · split at h
    · cases h
      decide
    · cases h

/-- Some node being eligible shows in the answer. -/
theorem writeAnswer_ne_of_ne_nil {t : Topology} {readRR : UInt64} {env : Env t} {port : Port}
    {eligible : List NodeID} (h : eligible ≠ []) (hnodes : t.nodeViews env.now env.forNodes ≠ []) :
    writeAnswer t readRR env port eligible ≠ writeAnswer t readRR env port [] := by
  unfold writeAnswer
  rw [if_neg hnodes, if_neg hnodes, dif_neg h, dif_pos rfl, eligibleAnswer]
  dsimp only
  split_ifs
  · simp
  · split
    next error reason hacquire =>
      intro hsame
      exact reason_of_acquireFrom hacquire (congrArg Answer.reason hsame)
    next => simp

/-- The engine in which every lag filter has the given states. -/
def setLag (e : Engine) (perNode : Finmap fun _ : Text => PerNodeState) : Engine :=
  { e with
    states := (e.instances.filter fun inst => inst.template = .lagFilter).foldl
      (fun states inst => states.insert inst.name perNode) e.states }

/-- The states in that engine. -/
theorem perNodeState_setLag (e : Engine) (perNode : Finmap fun _ : Text => PerNodeState)
    (policyName nodeID : Text) :
    (setLag e perNode).perNodeState policyName nodeID =
      if LagPolicy e policyName then perNode.lookup nodeID else e.perNodeState policyName nodeID := by
  have hlag : policyName ∈
      (e.instances.filter fun inst => inst.template = .lagFilter).map Instance.name ↔
        LagPolicy e policyName := by
    simp [LagPolicy, and_assoc, and_comm, and_left_comm]
  simp only [Engine.perNodeState, setLag, lookup_foldl_insert, hlag]
  by_cases h : LagPolicy e policyName
  · simp only [h, if_true, Option.bind_some]
  · simp only [h, if_false]

/-- The engine differs in the states of lag filters only. -/
theorem differsInLag_setLag (e : Engine) (perNode : Finmap fun _ : Text => PerNodeState) :
    DiffersInLag e (setLag e perNode) := by
  refine ⟨rfl, fun policyName nodeID hother => ?_⟩
  rw [perNodeState_setLag, if_neg hother]

/-- The states that hold every declared node. -/
def allActive {t : Topology} (order : Range t.nodes) : Finmap fun _ : Text => PerNodeState :=
  order.entries.foldl (fun perNode entry => perNode.insert entry.1 ⟨.active, 0, []⟩) ∅

/-- Every declared node is held. -/
theorem lookup_allActive {t : Topology} (order : Range t.nodes) {id : NodeID} {ns : NodeState}
    (h : t.nodes.lookup id = some ns) : (allActive order).lookup id = some ⟨.active, 0, []⟩ := by
  rw [allActive, lookup_foldl_insert, if_pos]
  exact List.mem_map.mpr ⟨⟨id, ns⟩, order.mem_entries.mpr h, rfl⟩

/-- A write is answered alike if the same nodes are writable. -/
theorem answer_congr (hwrite : req.WriteClassified) {env : Env p.topo}
    (h : ∀ id, (p.withEngine e').Writable env.now req.port id ↔
      (p.withEngine e).Writable env.now req.port id) :
    ((p.withEngine e').lease env req).1.answer = ((p.withEngine e).lease env req).1.answer := by
  have hadmits : ∀ entry ∈ env.forNodes.entries, (p.withEngine e').admits env.now req entry =
      (p.withEngine e).admits env.now req entry := by
    rintro ⟨id, ns⟩ hentry
    have hlookup : p.topo.nodes.lookup id = some ns := env.forNodes.mem_entries.mp hentry
    have hwritable (e : Engine) : (p.withEngine e).admits env.now req ⟨id, ns⟩ = true ↔
        (p.withEngine e).Writable env.now req.port id := by
      rw [admits_iff_of_write hwrite]
      constructor
      · intro hadmits
        exact ⟨ns, hlookup, hadmits⟩
      · rintro ⟨found, hfound, hadmits⟩
        obtain rfl := Option.some.inj (hlookup.symm.trans hfound)
        exact hadmits
    rw [Bool.eq_iff_iff, hwritable e', hwritable e]
    exact h id
  have heligible : eligibleNodes ((p.withEngine e').candidates env req) =
      eligibleNodes ((p.withEngine e).candidates env req) := by
    rw [eligibleNodes_candidates, eligibleNodes_candidates]
    exact congrArg _ (List.filter_congr hadmits)
  rw [answer_lease hwrite, answer_lease hwrite, heligible]

/-- Without a consulted lag filter the same nodes are writable. -/
theorem DiffersInLag.writable_iff (h : DiffersInLag e e') {port : Port}
    (hfree : ∀ policyName ∈ p.consulted port, ¬LagPolicy e policyName) (id : NodeID) :
    (p.withEngine e').Writable now port id ↔ (p.withEngine e).Writable now port id := by
  rw [writable_withEngine_iff, writable_withEngine_iff]
  refine and_congr_right fun _ => forall₂_congr fun policyName hname => ?_
  rw [Engine.evaluatePolicyState, Engine.evaluatePolicyState, h.states _ _ (hfree policyName hname)]

/-- A writable node is writable apart from the lag filters, in both engines. -/
theorem DiffersInLag.writableButLag (h : DiffersInLag e e') {port : Port} {id : NodeID}
    (hwritable : (p.withEngine e').Writable now port id) : p.WritableButLag e now port id := by
  obtain ⟨hprimary, hpolicies⟩ := writable_withEngine_iff.mp hwritable
  refine ⟨hprimary, fun policyName hname hother => ?_⟩
  have hstate := hpolicies policyName hname
  rwa [Engine.evaluatePolicyState, h.states _ _ hother] at hstate

/-- An engine differs from itself in nothing. -/
theorem DiffersInLag.refl (e : Engine) : DiffersInLag e e := ⟨rfl, fun _ _ _ => rfl⟩

/-- With clean lag filters a node is writable if it is, apart from them. -/
theorem writable_setLag_empty {port : Port} {id : NodeID} (h : p.WritableButLag e now port id) :
    (p.withEngine (setLag e ∅)).Writable now port id := by
  refine writable_withEngine_iff.mpr ⟨h.1, fun policyName hname => ?_⟩
  unfold Engine.evaluatePolicyState
  rw [perNodeState_setLag]
  split_ifs with hlag
  · rfl
  · exact h.2 policyName hname hlag

/-- With a consulted lag filter that holds all nodes, none is writable. -/
theorem not_writable_setLag_allActive (order : Range p.topo.nodes) {port : Port} {policyName : Text}
    (hname : policyName ∈ p.consulted port) (hlag : LagPolicy e policyName) (id : NodeID) :
    ¬(p.withEngine (setLag e (allActive order))).Writable now port id := by
  intro hwritable
  obtain ⟨⟨ns, hlookup, -⟩, hpolicies⟩ := writable_withEngine_iff.mp hwritable
  have hstate := hpolicies policyName hname
  rw [Engine.evaluatePolicyState, perNodeState_setLag, if_pos hlag, lookup_allActive order hlookup]
    at hstate
  cases hstate

/-- Whether some node is writable shows in the answer. -/
theorem answer_ne_of_writable (hwrite : req.WriteClassified) {env : Env p.topo} {id : NodeID}
    (hsome : (p.withEngine e).Writable env.now req.port id)
    (hnone : ∀ id, ¬(p.withEngine e').Writable env.now req.port id) :
    ((p.withEngine e).lease env req).1.answer ≠ ((p.withEngine e').lease env req).1.answer := by
  have hmem : id ∈ eligibleNodes ((p.withEngine e).candidates env req) :=
    (mem_eligibleNodes_of_write hwrite).mpr hsome
  have hnil : eligibleNodes ((p.withEngine e').candidates env req) = [] := by
    refine List.eq_nil_iff_forall_not_mem.mpr fun other hother => ?_
    exact hnone other ((mem_eligibleNodes_of_write hwrite).mp hother)
  have hnodes : p.topo.nodeViews env.now env.forNodes ≠ [] := by
    obtain ⟨ns, hlookup, -⟩ := hsome
    exact List.ne_nil_of_mem (List.mem_map_of_mem (env.forNodes.mem_entries.mpr hlookup))
  rw [answer_lease hwrite, answer_lease hwrite, hnil]
  exact writeAnswer_ne_of_ne_nil (List.ne_nil_of_mem hmem) hnodes

/-- For every pipeline and state of its engine, every time and every write request: whatever the states
of the lag filters, the order of the nodes and the answers of the pools are, the request is answered with
the same node, kind, SQLSTATE and reason, exactly if none of the policies that are consulted on the port
is a lag filter, or no node is writable even apart from the lag filters. -/
theorem lag_never_influences_iff (p : Pipeline) (e : Engine) (now : Time) (req : LeaseRequest)
    (hwrite : req.WriteClassified) :
    (∀ e', DiffersInLag e e' → ∀ env : Env p.topo, env.now = now →
        ((p.withEngine e').lease env req).1.answer = ((p.withEngine e).lease env req).1.answer) ↔
      (∀ policyName ∈ p.consulted req.port, ¬LagPolicy e policyName) ∨
        ∀ id, ¬p.WritableButLag e now req.port id := by
  constructor
  · intro hsame
    by_contra hfails
    simp only [not_or, not_forall, not_not] at hfails
    obtain ⟨⟨policyName, hname, hlag⟩, id, hid⟩ := hfails
    obtain ⟨order⟩ := Range.nonempty p.topo.nodes
    let env : Env p.topo := .supplied p.topo now order order
    have hfree := hsame (setLag e ∅) (differsInLag_setLag e ∅) env rfl
    have hheld := hsame (setLag e (allActive order)) (differsInLag_setLag e _) env rfl
    refine answer_ne_of_writable hwrite (writable_setLag_empty hid) ?_ (hfree.trans hheld.symm)
    exact not_writable_setLag_allActive order hname hlag
  · rintro (hfree | hnone) e' hdiffers env rfl
    · exact answer_congr hwrite fun id => hdiffers.writable_iff hfree id
    · refine answer_congr hwrite fun id => iff_of_false ?_ ?_
      · exact fun hwritable => hnone id (hdiffers.writableButLag hwritable)
      · exact fun hwritable => hnone id ((DiffersInLag.refl e).writableButLag hwritable)

/-- The pipeline over a primary `a` and a replica, with the default policies. -/
def defaultPipeline : Pipeline :=
  newPipeline (twoNodes (seenNode .primary) (seenNode .replica)) (some (newEngine [])) true

/-- The engine once `a`, excluded as a lagging replica, was promoted. -/
def promotedEngine : Engine :=
  (newEngine []).record (text "default-lag-filter") (text "a") fun _ => ⟨.releasing, 9000000000, []⟩

/-- The engine differs from a new one in the state of the lag filter for `a`. -/
theorem differsInLag_promotedEngine : DiffersInLag (newEngine []) promotedEngine := by
  refine ⟨rfl, fun policyName nodeID hother => ?_⟩
  rw [promotedEngine, Engine.perNodeState_record, if_neg]
  rintro ⟨rfl, -⟩
  exact hother (by decide)

/-- On the compat port an insert is answered alike. -/
theorem lag_never_influences_compat_insert :
    ((defaultPipeline.withEngine promotedEngine).lease (twoNodesEnv _ _) (insertRequest .compat)).1.answer =
      ((defaultPipeline.withEngine (newEngine [])).lease (twoNodesEnv _ _)
        (insertRequest .compat)).1.answer := by
  have hwrite : (insertRequest .compat).WriteClassified := .inr ⟨rfl, by decide⟩
  exact (lag_never_influences_iff defaultPipeline (newEngine []) 10000000000 _ hwrite).mpr
    (.inl (by decide)) promotedEngine differsInLag_promotedEngine _ rfl

/-- On the write port an insert is leased, or refused while the lag filter releases the promoted node. -/
theorem promoted_primary_refused :
    DiffersInLag (newEngine []) promotedEngine ∧
      ((defaultPipeline.withEngine (newEngine [])).lease (twoNodesEnv _ _)
        (insertRequest .write)).1.answer = ⟨text "a", .leased, "", []⟩ ∧
      ((defaultPipeline.withEngine promotedEngine).lease (twoNodesEnv _ _)
        (insertRequest .write)).1.answer = ⟨[], .rejected, "57P03", text "no_primary"⟩ :=
  ⟨differsInLag_promotedEngine, by decide, by decide⟩

end Grunyas.Routing
