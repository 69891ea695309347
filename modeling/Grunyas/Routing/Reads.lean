import Grunyas.Routing.Enforcement

/-!
# Where reads are routed

A read goes to a replica of the cluster that none of the consulted policies holds. On the compat port
it falls back to the primary when there is no such replica, and goes to the primary alone while the
post-write window is open. `reads_routed` says so for every answered request, together with what its
event tells of the candidates.
-/

namespace Grunyas.Routing

open GoText GoMap Grunyas.Server Grunyas.Classifier Grunyas.Cluster Grunyas.Decisions Grunyas.Policy

/-- The request is for a read: on the read port, or of a read statement on the compat port. -/
def LeaseRequest.ReadClassified (req : LeaseRequest) : Prop :=
  req.port = .read ∨ (req.port = .compat ∧ (classifyFor .compat req.sql).kind = .read)

/-- One of the consulted policies holds the node in state active or releasing. -/
def Pipeline.HeldByPolicy (p : Pipeline) (id : NodeID) : Prop :=
  ∃ e ∈ p.policyEng,
    ∃ policyName ∈ [p.defaultHealthPolicyName, p.defaultLagPolicyName, p.defaultSatPolicyName],
      Excludes e policyName id

/-- The node is shown as a replica of the cluster, and no consulted policy holds it. -/
def Pipeline.Readable (p : Pipeline) (now : Time) (id : NodeID) : Prop :=
  ∃ view, p.topo.node now id = some view ∧ view.observedRole = .replica ∧
    (view.systemID = [] ∨ view.systemID = p.topo.clusterID) ∧ ¬p.HeldByPolicy id

/-- What an event tells of the candidates: every node is listed once, the eligible ones are those
without reasons, and a leased node is one of them. -/
structure CandidatesTold (t : Topology) (event : Decisions.Event) : Prop where
  nodup : (event.candidates.map Candidate.nodeID).Nodup
  declared : ∀ id, id ∈ event.candidates.map Candidate.nodeID ↔ (t.nodes.lookup id).isSome = true
  eligible : ∀ c ∈ event.candidates, c.eligible = true ↔ c.reasons = []
  leased : event.outcome.kind = .leased →
    ∃ c ∈ event.candidates, c.eligible = true ∧ c.nodeID = event.outcome.nodeID

variable {p : Pipeline} {req : LeaseRequest} {env : Env p.topo}

/-- No consulted policy holds a node exactly if all of them leave it eligible. -/
theorem not_heldByPolicy_iff {id : NodeID} : ¬p.HeldByPolicy id ↔
    (p.policyState p.defaultHealthPolicyName id).1 = true ∧
      (p.policyState p.defaultLagPolicyName id).1 = true ∧
      (p.policyState p.defaultSatPolicyName id).1 = true := by
  unfold Pipeline.HeldByPolicy Pipeline.policyState
  cases p.policyEng with
  | none => simp
  | some e => simp [evaluatePolicyState_iff]

/-- The classification under which a read is filtered. -/
theorem LeaseRequest.ReadClassified.classType (hread : req.ReadClassified) :
    (req.port = .read ∧ req.classType = .empty) ∨ (req.port = .compat ∧ req.classType = .read) := by
  rcases hread with hport | ⟨hport, hkind⟩
  · exact .inl ⟨hport, by rw [LeaseRequest.classType, hport, if_neg (by decide)]⟩
  · refine .inr ⟨hport, ?_⟩
    rw [LeaseRequest.classType, if_pos hport, hport]
    exact hkind

/-- Without the window a read finds no fault with a role exactly if it is replica. -/
theorem roleReasons_eq_nil_of_read {port : Port} {classType : Kind}
    (h : (port = .read ∧ classType = .empty) ∨ (port = .compat ∧ classType = .read)) (role : Role) :
    roleReasons port classType false role = [] ↔ role = .replica := by
  rcases h with ⟨rfl, rfl⟩ | ⟨rfl, rfl⟩ <;> cases role <;> simp [roleReasons]

/-- Within the window a read on the compat port finds no fault with a primary only. -/
theorem roleReasons_eq_nil_of_window (role : Role) :
    roleReasons .compat .read true role = [] ↔ role = .primary := by
  cases role <;> simp [roleReasons]

/-- Without the window the eligible nodes of a read are the readable ones. -/
theorem mem_eligibleNodes_of_read (hread : req.ReadClassified)
    (hclosed : req.postWriteWindowActive = false) {id : NodeID} :
    id ∈ eligibleNodes (p.candidates env req) ↔ p.Readable env.now id := by
  have htype : req.classType ≠ .write := by
    rcases hread.classType with ⟨-, h⟩ | ⟨-, h⟩ <;> simp [h]
  have hadmits (ns : NodeState) : p.admits env.now req ⟨id, ns⟩ = true ↔
      (p.topo.nodeView env.now id ns).observedRole = .replica ∧
        (ns.systemID = [] ∨ ns.systemID = p.topo.clusterID) ∧ ¬p.HeldByPolicy id := by
    rw [Pipeline.admits, decide_eq_true_iff, reasons_eq_nil_iff, hclosed,
      roleReasons_eq_nil_of_read hread.classType, not_heldByPolicy_iff]
    constructor
    · rintro ⟨hsystem, hrole, hhealth, hlag, hsat⟩
      exact ⟨hrole, hsystem, hhealth, hlag htype, hsat⟩
    · rintro ⟨hrole, hsystem, hhealth, hlag, hsat⟩
      exact ⟨hsystem, hrole, hhealth, fun _ => hlag, hsat⟩
  simp only [mem_eligibleNodes, hadmits, Pipeline.Readable, Topology.node]
  constructor
  · rintro ⟨ns, hlookup, hrole, hsystem, hfree⟩
    exact ⟨p.topo.nodeView env.now id ns, by rw [hlookup]; rfl, hrole, hsystem, hfree⟩
  · rintro ⟨view, hview, hrole, hsystem, hfree⟩
    obtain ⟨ns, hlookup, rfl⟩ := Option.map_eq_some_iff.mp hview
    exact ⟨ns, hlookup, hrole, hsystem, hfree⟩

/-- Within the window an eligible node of the compat port is shown as primary. -/
theorem observedRole_of_window (hport : req.port = .compat) (hread : req.ReadClassified)
    (hopen : req.postWriteWindowActive = true) {id : NodeID}
    (hmem : id ∈ eligibleNodes (p.candidates env req)) :
    ∃ view, p.topo.node env.now id = some view ∧ view.observedRole = .primary := by
  have htype : req.classType = .read := by
    rcases hread.classType with ⟨hother, -⟩ | ⟨-, h⟩
    · rw [hport] at hother
      cases hother
    · exact h
  obtain ⟨ns, hlookup, hadmits⟩ := mem_eligibleNodes.mp hmem
  rw [Pipeline.admits, decide_eq_true_iff, reasons_eq_nil_iff, hport, htype, hopen,
    roleReasons_eq_nil_of_window] at hadmits
  exact ⟨p.topo.nodeView env.now id ns, by rw [Topology.node, hlookup]; rfl, hadmits.2.1⟩

/-- The sole primary is shown as primary or unknown. -/
theorem observedRole_of_solePrimary {t : Topology} {id : NodeID} (h : t.SolePrimary id) (now : Time) :
    ∃ view, t.node now id = some view ∧ view.observedRole ≠ .replica := by
  obtain ⟨⟨ns, hlookup, -, hrole⟩, -⟩ := h
  refine ⟨t.nodeView now id ns, by rw [Topology.node, hlookup]; rfl, ?_⟩
  simp only [Topology.nodeView, hrole]
  split_ifs <;> decide

/-- An answered request was leased one of the eligible nodes, or fell back to the primary. -/
theorem lease_ok_cases (hok : (p.lease env req).1.error = none) :
    ∃ event, (p.lease env req).1.decision = some event ∧ event.candidates = p.candidates env req ∧
      ((event.outcome.kind = .leased ∧ event.outcome.nodeID = (p.lease env req).1.nodeID ∧
          (p.lease env req).1.nodeID ∈ eligibleNodes (p.candidates env req)) ∨
        (event.outcome.kind = .fallback ∧ req.port = .compat ∧
          eligibleNodes (p.candidates env req) = [] ∧
          (p.topo.primary env.now env.forPrimary).map NodeView.id = some (p.lease env req).1.nodeID)) := by
  unfold Pipeline.lease at hok ⊢
  dsimp only at hok ⊢
  split_ifs at hok ⊢ with hport hnodes hempty
  · cases hok
  · cases hok
  · obtain ⟨⟨hcompat, -⟩, primary, hprimary, hnode, hdecision⟩ := leaseEmpty_ok hok
    exact ⟨_, hdecision, rfl, .inr ⟨rfl, hcompat, hempty, hnode ▸ congrArg (Option.map _) hprimary⟩⟩
  · obtain ⟨-, hselected, -⟩ := (leaseEligible_ok_iff hempty).mp ⟨hok, rfl⟩
    refine ⟨_, leaseEligible_decision hempty hok, rfl, .inl ⟨rfl, rfl, ?_⟩⟩
    rw [← hselected]
    exact selectNode_mem _ hempty _ _

/-- The candidates are the declared nodes, in the order of the snapshot. -/
theorem candidates_nodeIDs : (p.candidates env req).map Candidate.nodeID =
    env.forNodes.entries.map Sigma.fst := by
  simp only [Pipeline.candidates, Pipeline.filterCandidates, Topology.nodeViews, List.map_map]
  rfl

/-- An event with the candidates of a request tells of them, if the leased node is eligible. -/
theorem candidatesTold {event : Decisions.Event} (hevent : event.candidates = p.candidates env req)
    (hleased : event.outcome.kind = .leased →
      event.outcome.nodeID ∈ eligibleNodes (p.candidates env req)) : CandidatesTold p.topo event := by
  refine ⟨?_, fun id => ?_, fun c hc => ?_, fun hkind => ?_⟩
  · rw [hevent, candidates_nodeIDs]
    exact env.forNodes.nodup_keys
  · rw [hevent, candidates_nodeIDs, Option.isSome_iff_exists, List.mem_map]
    constructor
    · rintro ⟨⟨found, ns⟩, hentry, rfl⟩
      exact ⟨ns, env.forNodes.mem_entries.mp hentry⟩
    · rintro ⟨ns, hlookup⟩
      exact ⟨⟨id, ns⟩, env.forNodes.mem_entries.mpr hlookup, rfl⟩
  · rw [hevent] at hc
    obtain ⟨nv, -, rfl⟩ := mem_candidates.mp hc
    simp
  · obtain ⟨c, hc, hid⟩ := List.mem_map.mp (hleased hkind)
    obtain ⟨hmem, heligible⟩ := List.mem_filter.mp hc
    exact ⟨c, hevent ▸ hmem, heligible, hid⟩

/-- For every pipeline, every state of its topology and engine, and every read that is answered. Without
the post-write window the node is readable, or, on the compat port, no candidate is, and the read falls
back to the primary. With the window on the compat port the node is not shown as a replica. In every
case the event tells of the candidates. -/
theorem reads_routed (p : Pipeline) (env : Env p.topo) (req : LeaseRequest) (hread : req.ReadClassified)
    (hok : (p.lease env req).1.error = none) :
    let id := (p.lease env req).1.nodeID
    ∃ event, (p.lease env req).1.decision = some event ∧
      (req.postWriteWindowActive = false → p.Readable env.now id ∨
        (req.port = .compat ∧ (∀ c ∈ event.candidates, ¬p.Readable env.now c.nodeID) ∧
          (p.topo.primary env.now env.forPrimary).map NodeView.id = some id ∧
          event.outcome.kind = .fallback)) ∧
      (req.port = .compat → req.postWriteWindowActive = true →
        ∃ view, p.topo.node env.now id = some view ∧ view.observedRole ≠ .replica) ∧
      CandidatesTold p.topo event := by
  intro id
  obtain ⟨event, hdecision, hevent, ⟨hkind, hnode, hmem⟩ | ⟨hkind, hport, hempty, hprimary⟩⟩ :=
    lease_ok_cases hok
  · refine ⟨event, hdecision, fun hclosed => ?_, fun hport hopen => ?_, candidatesTold hevent fun _ => ?_⟩
    · exact .inl ((mem_eligibleNodes_of_read hread hclosed).mp hmem)
    · obtain ⟨view, hview, hrole⟩ := observedRole_of_window hport hread hopen hmem
      exact ⟨view, hview, by rw [hrole]; decide⟩
    · rw [hnode]
      exact hmem
  · have hsole : p.topo.SolePrimary id := (Topology.primary_id _ _ _).mp hprimary
    refine ⟨event, hdecision, fun hclosed => .inr ⟨hport, fun c _ => ?_, hprimary, hkind⟩, fun _ _ => ?_,
      candidatesTold hevent fun hleased => ?_⟩
    · rw [← mem_eligibleNodes_of_read hread hclosed, hempty]
      exact List.not_mem_nil
    · exact observedRole_of_solePrimary hsole env.now
    · rw [hkind] at hleased
      cases hleased

/-- A query on the read port is leased on the replica, which is the only eligible candidate. -/
theorem reads_routed_replica :
    primaryAndReplica.Readable 10000000000
      (primaryAndReplica.lease (twoNodesEnv _ _) readRequest).1.nodeID := by
  have hok : (primaryAndReplica.lease (twoNodesEnv _ _) readRequest).1.error = none := by decide
  obtain ⟨event, -, hrouted, -⟩ :=
    reads_routed primaryAndReplica (twoNodesEnv _ _) readRequest (.inl rfl) hok
  refine (hrouted rfl).resolve_right ?_
  rintro ⟨hport, -⟩
  cases hport

end Grunyas.Routing
