import Grunyas.Routing.SingleWriter

/-!
# What a lease answers and what it publishes

`Lease` has many exits, and each of them fills the result, the event and the counters by hand.
`lease_exit` lists what they do. One of them forgets the decision of the result: the write port finds
an eligible node, but the search for the primary fails. `lease_agrees_iff` says that this is the only
request for which the result and the event disagree.
-/

namespace Grunyas.Routing

open GoText GoMap Grunyas.Server Grunyas.Classifier Grunyas.Cluster Grunyas.Decisions Grunyas.Policy

/-- The pipeline when a request is answered: the request is counted, the round robin and the sizes of
the eligible sets have some values. -/
def Pipeline.entered (p : Pipeline) (readRR : UInt64) (read write : ℕ) : Pipeline :=
  { p with
    decisionsTotal := p.decisionsTotal + 1
    readRR := readRR
    eligibleSetRead := read
    eligibleSetWrite := write }

/-- The write port finds an eligible node, but there is no sole primary. -/
def Pipeline.LacksPrimary (p : Pipeline) (env : Env p.topo) (req : LeaseRequest) : Prop :=
  req.port = .write ∧ eligibleNodes (p.candidates env req) ≠ [] ∧
    p.topo.primary env.now env.forPrimary = none

/-- Everything that answering a request can do. -/
inductive Exit (p : Pipeline) (env : Env p.topo) (req : LeaseRequest) : LeaseResult × Pipeline → Prop
  | rejected (readRR : UInt64) (read write : ℕ) (event : Event) (nodeID : NodeID) (error : ProxyError)
      (reason : Text) (port : event.port = req.port) (primary : ¬p.LacksPrimary env req) :
    Exit p env req ((p.entered readRR read write).reject event nodeID error reason)
  | undecided (readRR : UInt64) (read write : ℕ) (event : Event) (error : ProxyError) (reason : Text)
      (port : event.port = req.port) (primary : p.LacksPrimary env req) :
    Exit p env req
      ({ ((p.entered readRR read write).reject event [] error reason).1 with decision := none },
        ((p.entered readRR read write).reject event [] error reason).2)
  | fallback (readRR : UInt64) (read write : ℕ) (event : Event) (nodeID : NodeID) (conn : ConnId)
      (port : event.port = req.port) (kind : event.outcome.kind = .fallback)
      (named : event.outcome.nodeID = nodeID) (primary : ¬p.LacksPrimary env req) :
    Exit p env req
      ({ upstream := some conn, nodeID, decision := some event },
        { p.entered readRR read write with
          decisionsFallback := p.decisionsFallback + 1 }.emitEvent event)
  | leased (readRR : UInt64) (read write : ℕ) (event : Event) (nodeID : NodeID) (conn : ConnId)
      (port : event.port = req.port) (kind : event.outcome.kind = .leased)
      (named : event.outcome.nodeID = nodeID) (primary : ¬p.LacksPrimary env req) :
    Exit p env req
      ({ upstream := some conn, nodeID, decision := some event },
        { p.entered readRR read write with
          decisionsLeased := p.decisionsLeased + 1 }.emitEvent event)

variable {p : Pipeline} {env : Env p.topo} {req : LeaseRequest}

/-- The exits without an eligible node. -/
theorem leaseEmpty_exit (readRR : UInt64) (read write : ℕ) (kind : Kind) {event : Event}
    (hport : event.port = req.port) (hempty : eligibleNodes (p.candidates env req) = []) :
    Exit p env req ((p.entered readRR read write).leaseEmpty env req kind event) := by
  have hprimary : ¬p.LacksPrimary env req := fun h => h.2.1 hempty
  unfold Pipeline.leaseEmpty
  split
  next primary hsearch =>
    dsimp only
    split
    next error reason hacquire => exact .rejected readRR read write _ _ error reason hport hprimary
    next conn hacquire =>
      refine .fallback readRR read write _ _ conn ?_ ?_ ?_ hprimary
      · exact hport
      · rfl
      · rfl
  next =>
    dsimp only
    split_ifs
    · exact .rejected readRR read write _ _ _ _ hport hprimary
    · exact .rejected readRR read write _ _ _ _ hport hprimary

/-- The exits with an eligible node. -/
theorem leaseEligible_exit (readRR : UInt64) (read write : ℕ) (kind : Kind) {event : Event}
    (hport : event.port = req.port) (h : eligibleNodes (p.candidates env req) ≠ []) :
    Exit p env req ((p.entered readRR read write).leaseEligible env req kind event _ h) := by
  unfold Pipeline.leaseEligible
  dsimp only
  split_ifs with hguard
  · exact .undecided readRR read write _ _ _ hport ⟨hguard.1, h, hguard.2⟩
  · have hprimary : ¬p.LacksPrimary env req := fun hlacks => hguard ⟨hlacks.1, hlacks.2.2⟩
    split
    next error reason hacquire => exact .rejected _ read write _ _ error reason hport hprimary
    next conn hacquire =>
      refine .leased (selectNode readRR _ h req.port (p.topo.primary env.now env.forPrimary)).2
        read write _ _ conn ?_ ?_ ?_ hprimary
      · exact hport
      · rfl
      · rfl

/-- The list is complete. -/
theorem lease_exit (p : Pipeline) (env : Env p.topo) (req : LeaseRequest) :
    Exit p env req (p.lease env req) := by
  unfold Pipeline.lease
  dsimp only
  split_ifs with hvalid hnodes hempty
  · refine .rejected p.readRR _ _ _ _ _ _ rfl fun hlacks => ?_
    rw [hlacks.1] at hvalid
    cases hvalid
  · refine .rejected p.readRR _ _ _ _ _ _ rfl fun hlacks => hlacks.2.1 ?_
    rw [Pipeline.candidates, hnodes]
    rfl
  · exact leaseEmpty_exit p.readRR _ _ _ rfl hempty
  · exact leaseEligible_exit p.readRR _ _ _ rfl hempty

/-- What routing reads of a pipeline, apart from the counter of the round robin. -/
def Pipeline.routed (p : Pipeline) : Topology × Option Engine × Text × Text × Text :=
  (p.topo, p.policyEng, p.defaultHealthPolicyName, p.defaultLagPolicyName, p.defaultSatPolicyName)

/-- An event is counted and published only. -/
theorem routed_emitEvent (p : Pipeline) (event : Event) : (p.emitEvent event).routed = p.routed := by
  unfold Pipeline.emitEvent
  split_ifs <;> rfl

/-- A request changes neither the topology nor the policies. -/
theorem routed_lease (p : Pipeline) (env : Env p.topo) (req : LeaseRequest) :
    (p.lease env req).2.routed = p.routed := by
  have hexit := lease_exit p env req
  generalize p.lease env req = answer at hexit
  cases hexit with
  | rejected => exact routed_emitEvent _ _
  | undecided => exact routed_emitEvent _ _
  | fallback => exact routed_emitEvent _ _
  | leased => exact routed_emitEvent _ _

/-- The result carries the event that is published, which names the error or the leased node. -/
def Agrees (p : Pipeline) (answer : LeaseResult × Pipeline) : Prop :=
  ∃ event, answer.1.decision = some event ∧
    answer.2.published = p.published ++ (if p.hasBus then [event] else []) ∧
    (answer.1.error ≠ none ↔ event.outcome.kind = .rejected) ∧
    (∀ error, answer.1.error = some error → error.code = event.outcome.sqlState) ∧
    (answer.1.upstream ≠ none ↔ event.outcome.kind = .leased ∨ event.outcome.kind = .fallback) ∧
    (answer.1.upstream ≠ none → event.outcome.nodeID = answer.1.nodeID)

/-- What is published after an event was emitted. -/
theorem published_emitEvent (p : Pipeline) (event : Event) :
    (p.emitEvent event).published = p.published ++ (if p.hasBus then [event] else []) := by
  unfold Pipeline.emitEvent
  cases p.hasBus with
  | false => simp
  | true => rfl

/-- The exits agree with their event, apart from the one that leaves the decision unset. -/
theorem Exit.agrees_iff {answer : LeaseResult × Pipeline} (hexit : Exit p env req answer) :
    Agrees p answer ↔ ¬p.LacksPrimary env req := by
  cases hexit with
  | rejected readRR read write event nodeID error reason _ hprimary =>
    refine iff_of_true ⟨_, rfl, published_emitEvent _ _, ?_⟩ hprimary
    simp [Pipeline.reject]
  | undecided readRR read write event error reason _ hprimary =>
    refine iff_of_false ?_ (not_not_intro hprimary)
    intro hagrees
    obtain ⟨event, hdecision, -⟩ := hagrees
    cases hdecision
  | fallback readRR read write event nodeID conn _ hkind hnamed hprimary =>
    refine iff_of_true ⟨event, rfl, published_emitEvent _ _, ?_⟩ hprimary
    simp [hkind, hnamed]
  | leased readRR read write event nodeID conn _ hkind hnamed hprimary =>
    refine iff_of_true ⟨event, rfl, published_emitEvent _ _, ?_⟩ hprimary
    simp [hkind, hnamed]

/-- The write port lacks a primary exactly if some node is writable and none is the sole primary. -/
theorem lacksPrimary_iff : p.LacksPrimary env req ↔
    req.port = .write ∧ (∃ id, p.Writable env.now .write id) ∧ ¬∃ id, p.topo.SolePrimary id := by
  unfold Pipeline.LacksPrimary
  refine and_congr_right fun hport => and_congr ?_ ?_
  · rw [ne_eq, List.eq_nil_iff_forall_not_mem, not_forall_not]
    refine exists_congr fun id => ?_
    rw [mem_eligibleNodes_of_write (.inl hport), hport]
  · rw [← Topology.primary_isSome_iff env.now env.forPrimary, Bool.not_eq_true,
      Option.isSome_eq_false_iff, Option.isNone_iff_eq_none]

/-- For every pipeline, whatever the topology, the policies, the clock, the orders of the nodes and the
pools: the result of a request, its error and the published event agree exactly if, on the write port,
some node is the sole primary as soon as some node is writable. -/
theorem lease_agrees_iff (p : Pipeline) (env : Env p.topo) (req : LeaseRequest) :
    Agrees p (p.lease env req) ↔
      (req.port = .write → (∃ id, p.Writable env.now .write id) → ∃ id, p.topo.SolePrimary id) := by
  rw [(lease_exit p env req).agrees_iff, lacksPrimary_iff]
  tauto

/-- With two primaries an insert on the write port is refused with a rejected event, but the decision
of the result stays unset. -/
theorem split_brain_undecided :
    (twoPrimaries.lease (twoNodesEnv _ _) (insertRequest .write)).1.error =
        some ⟨"57P03", "[grunyas] no primary available", none⟩ ∧
      (twoPrimaries.lease (twoNodesEnv _ _) (insertRequest .write)).2.published.map
        (fun event => event.outcome.kind) = [.rejected] ∧
      ¬Agrees twoPrimaries (twoPrimaries.lease (twoNodesEnv _ _) (insertRequest .write)) := by
  refine ⟨by decide, by decide, ?_⟩
  intro hagrees
  obtain ⟨event, hdecision, -⟩ := hagrees
  have hunset : (twoPrimaries.lease (twoNodesEnv _ _) (insertRequest .write)).1.decision = none := by
    decide
  rw [hunset] at hdecision
  cases hdecision

end Grunyas.Routing
