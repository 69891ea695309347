import Grunyas.Cluster.Probes
import Grunyas.Machine.Run
import Grunyas.Policy.Transitions
import Grunyas.Routing.Agreement

/-!
# Nodes of another cluster

A node that reports the system identifier of another cluster is marked permanently down. Routing does
not look at the mark when it filters the nodes, and the identifier that differs is not recorded, so
that only the health policy excludes the node: once it has evaluated the node, and its dwell time has
passed. The runs below interleave the reports of the probes, the evaluations of the policies and the
lease requests, on a clock that never goes back.
-/

namespace Grunyas.Routing

open GoText GoMap Grunyas.Server Grunyas.Classifier Grunyas.Cluster Grunyas.Policy Machine

/-- Evaluate every policy on every node. `saturated` says which pools have no connection left. The
source has no evaluation without an engine. -/
def Pipeline.updatePolicyEvaluation (p : Pipeline) (now : Time) (order : Range p.topo.nodes)
    (saturated : NodeID → Bool) : Pipeline :=
  { p with
    policyEng := p.policyEng.map fun e =>
      (p.topo.nodeViews now order).foldl (fun e nv => e.evaluateNode now nv (saturated nv.id)) e }

/-- What happens to a cluster: a report of a probe, an evaluation of the policies, or a request. The
orders in which maps are visited are left open. -/
inductive ClusterEvent where
  | report (node : NodeID) (report : Report)
  | evaluate (order : (t : Topology) → Range t.nodes) (saturated : NodeID → Bool)
  | lease (forNodes forPrimary : (t : Topology) → Range t.nodes)
      (acquire : PoolID → Except Text ConnId) (req : LeaseRequest)

/-- An event with the nanoseconds since the event before it. -/
structure Timed where
  elapsed : ℕ
  event : ClusterEvent

/-- What has happened to a node: it belongs to the cluster as far as is known, it was reported
foreign, it was evaluated since then, and the dwell time of the health policy has passed. -/
inductive Watch where
  | home
  | foreign
  | rejectedAt (since : Time)
  | settled
  deriving DecidableEq, Repr

/-- The pipeline with the clock and what has happened to one node. -/
structure Monitored where
  pipeline : Pipeline
  now : Time
  watch : Watch

/-- The health policy that routing consults, if there is one. -/
def Pipeline.healthPolicy (p : Pipeline) : Option Instance :=
  p.policyEng.bind fun e => e.instances.find? fun inst => inst.template == .healthFilter

/-- An evaluation by the health policy. -/
def Watch.evaluated (inst : Instance) (now : Time) : Watch → Watch
  | .home => .home
  | .foreign => if milliseconds inst.dwellMs = 0 then .settled else .rejectedAt now
  | .rejectedAt since =>
    if milliseconds inst.dwellMs ≤ now - since then .settled else .rejectedAt since
  | .settled => .settled

/-- What a request meets. -/
def leaseEnv (now : Time) (forNodes forPrimary : (t : Topology) → Range t.nodes)
    (acquire : PoolID → Except Text ConnId) (t : Topology) : Env t :=
  ⟨now, forNodes t, forPrimary t, acquire⟩

/-- The cluster after an event, with what has happened to the node `id`. -/
def clusterStep (id : NodeID) (m : Monitored) (i : Timed) : Monitored :=
  let now := m.now + i.elapsed
  match i.event with
  | .report node report =>
    { pipeline := { m.pipeline with topo := m.pipeline.topo.accept now node report }
      now
      watch := if m.watch = .home ∧ node = id ∧ m.pipeline.topo.reportsForeign node report
        then .foreign else m.watch }
  | .evaluate order saturated =>
    { pipeline := m.pipeline.updatePolicyEvaluation now (order m.pipeline.topo) saturated
      now
      watch := (m.pipeline.healthPolicy.map fun inst => m.watch.evaluated inst now).getD m.watch }
  | .lease forNodes forPrimary acquire req =>
    { pipeline := (m.pipeline.lease (leaseEnv now forNodes forPrimary acquire _) req).2
      now
      watch := m.watch }

/-- The cluster before its first event; without policies there is no engine. -/
def monitoring (cfg : ProbeConfig) (specs : List NodeSpec) (policies : Option (List Instance))
    (hasBus : Bool) (now : Time) : Monitored :=
  ⟨newPipeline (newTopology cfg specs) (policies.map newEngine) hasBus, now, .home⟩

/-- The node is not leased once it was reported foreign. -/
def NoForeignLease (id : NodeID) (m : Monitored) (i : Timed) : Prop :=
  match i.event with
  | .lease forNodes forPrimary acquire req =>
    let result :=
      (m.pipeline.lease (leaseEnv (m.now + i.elapsed) forNodes forPrimary acquire _) req).1
    result.error = none → result.nodeID = id → m.watch = .home
  | _ => True

/-- A node is a candidate for a request: the filters by role, by lag and by saturation keep it. Its health
is left to the health policy. -/
def Pipeline.Candidate (p : Pipeline) (now : Time) (req : LeaseRequest) (id : NodeID) : Prop :=
  ∃ ns, p.topo.nodes.lookup id = some ns ∧
    roleReasons req.port req.classType req.postWriteWindowActive
      (p.topo.nodeView now id ns).observedRole = [] ∧
    (req.classType ≠ .write → (p.policyState p.defaultLagPolicyName id).1 = true) ∧
    (p.policyState p.defaultSatPolicyName id).1 = true

/-- No request for which the node is a candidate is made after it was reported foreign and before the
health policy has evaluated it and its dwell time has passed. -/
def SettledAtLease (id : NodeID) (m : Monitored) (i : Timed) : Prop :=
  match i.event with
  | .lease _ _ _ req =>
    m.watch = .home ∨ m.watch = .settled ∨ ¬m.pipeline.Candidate (m.now + i.elapsed) req id
  | _ => True

/-- The state in which the health policy holds the node. -/
def Pipeline.healthState (p : Pipeline) (id : NodeID) : Option PerNodeState :=
  p.policyEng.bind fun e => e.perNodeState p.defaultHealthPolicyName id

/-- What is known about a node by what has happened to it. -/
def Guards (p : Pipeline) (id : NodeID) : Watch → Prop
  | .home => True
  | .foreign => p.topo.PermanentlyDown id
  | .rejectedAt since =>
    p.topo.PermanentlyDown id ∧ p.healthPolicy ≠ none ∧ ∃ pns ∈ p.healthState id, pns.HeldSince since
  | .settled =>
    p.topo.PermanentlyDown id ∧ p.healthPolicy ≠ none ∧ ∃ pns ∈ p.healthState id, pns.state = .active

/-- The pipeline consults the health policy of its engine, which has entered its states in the past,
and knows what it should about the node. -/
structure Guarded (id : NodeID) (m : Monitored) : Prop where
  named : ∀ inst ∈ m.pipeline.healthPolicy, m.pipeline.defaultHealthPolicyName = inst.name
  entered : ∀ pns ∈ m.pipeline.healthState id, m.pipeline.healthPolicy ≠ none →
    pns.state = .pending → pns.enteredAt ≤ m.now
  guards : Guards m.pipeline id m.watch

section Lease

variable {p : Pipeline} {req : LeaseRequest}

/-- What the guard of a node reads of a pipeline. -/
def Pipeline.watched (p : Pipeline) : Topology × Option Engine × Text :=
  (p.topo, p.policyEng, p.defaultHealthPolicyName)

/-- A request changes neither the topology nor the policies. -/
theorem watched_lease (env : Env p.topo) (req : LeaseRequest) :
    (p.lease env req).2.watched = p.watched :=
  congrArg (fun routed => (routed.1, routed.2.1, routed.2.2.1)) (routed_lease p env req)

/-- A request keeps the health policy. -/
@[simp] theorem healthPolicy_lease (env : Env p.topo) (req : LeaseRequest) :
    (p.lease env req).2.healthPolicy = p.healthPolicy := by
  have heng := congrArg (fun watched => watched.2.1) (watched_lease env req)
  exact congrArg (Option.bind · _) heng

/-- A request for which no node is eligible is refused or answered with the sole primary. -/
theorem solePrimary_of_leaseEmpty {env : Env p.topo} {kind : Kind} {event : Decisions.Event}
    (hok : (p.leaseEmpty env req kind event).1.error = none) :
    p.topo.SolePrimary (p.leaseEmpty env req kind event).1.nodeID := by
  obtain ⟨-, primary, hprimary, hnode, -⟩ := leaseEmpty_ok hok
  rw [hnode]
  exact (Topology.primary_id env.now env.forPrimary _).mp (by rw [hprimary]; rfl)

/-- A leased node is an eligible one or the sole primary. -/
theorem eligible_or_solePrimary_of_lease {env : Env p.topo}
    (hok : (p.lease env req).1.error = none) :
    (p.lease env req).1.nodeID ∈ eligibleNodes (p.candidates env req) ∨
      p.topo.SolePrimary (p.lease env req).1.nodeID := by
  unfold Pipeline.lease at hok ⊢
  dsimp only at hok ⊢
  split_ifs at hok ⊢ with hport hnodes hempty
  · cases hok
  · cases hok
  · exact .inr (solePrimary_of_leaseEmpty hok)
  · obtain ⟨-, hselected, -⟩ := (leaseEligible_ok_iff hempty).mp ⟨hok, rfl⟩
    rw [← hselected]
    exact .inl (selectNode_mem _ hempty _ _)

/-- An eligible node is a candidate. -/
theorem candidate_of_eligible {env : Env p.topo} {id : NodeID}
    (hmem : id ∈ eligibleNodes (p.candidates env req)) : p.Candidate env.now req id := by
  obtain ⟨ns, hlookup, hadmits⟩ := mem_eligibleNodes.mp hmem
  rw [Pipeline.admits, decide_eq_true_iff, reasons_eq_nil_iff] at hadmits
  obtain ⟨-, hrole, -, hlag, hsat⟩ := hadmits
  exact ⟨ns, hlookup, hrole, hlag, hsat⟩

/-- A node that the health policy excludes is not eligible. -/
theorem not_eligible_of_active {env : Env p.topo} {id : NodeID} {pns : PerNodeState}
    (hstate : pns ∈ p.healthState id) (hactive : pns.state = .active) :
    id ∉ eligibleNodes (p.candidates env req) := by
  intro hmem
  obtain ⟨ns, -, hadmits⟩ := mem_eligibleNodes.mp hmem
  rw [Pipeline.admits, decide_eq_true_iff, reasons_eq_nil_iff] at hadmits
  have hhealth : (p.policyState p.defaultHealthPolicyName id).1 = true := hadmits.2.2.1
  obtain ⟨e, he, hpns⟩ := Option.bind_eq_some_iff.mp hstate
  simp [Pipeline.policyState, he, Engine.evaluatePolicyState, hpns, hactive] at hhealth

end Lease

section Evaluate

variable {p : Pipeline} {now : Time} {order : Range p.topo.nodes} {saturated : NodeID → Bool}

/-- An evaluation keeps the health policy. -/
@[simp] theorem healthPolicy_updatePolicyEvaluation :
    (p.updatePolicyEvaluation now order saturated).healthPolicy = p.healthPolicy := by
  unfold Pipeline.healthPolicy Pipeline.updatePolicyEvaluation
  cases p.policyEng with
  | none => rfl
  | some e =>
    refine congrArg (List.find? _) ?_
    exact foldl_frame Engine.instances (fun e nv _ => e.instances_evaluateNode _ _ _) e

/-- An evaluation judges a declared node by the health policy. -/
theorem healthState_updatePolicyEvaluation {inst : Instance} (hinst : inst ∈ p.healthPolicy)
    (hname : p.defaultHealthPolicyName = inst.name) {id : NodeID} {ns : NodeState}
    (hlookup : p.topo.nodes.lookup id = some ns) :
    (p.updatePolicyEvaluation now order saturated).healthState id =
      some (((p.healthState id).getD .clean).transition inst now
        (evaluateHealth (p.topo.nodeView now id ns)).1
        (evaluateHealth (p.topo.nodeView now id ns)).2) := by
  obtain ⟨e, he, hfind⟩ := Option.bind_eq_some_iff.mp hinst
  have hmem : inst ∈ e.instances := List.mem_of_find?_eq_some hfind
  have htemplate : inst.template = .healthFilter := by simpa using List.find?_some hfind
  have hjudged (nv : NodeView) (full : Bool) :
      inst.evaluate nv full = some ((evaluateHealth nv).1, (evaluateHealth nv).2) := by
    rw [Instance.evaluate, htemplate]
  simp only [Pipeline.healthState, Pipeline.updatePolicyEvaluation, he, hname, Option.map_some,
    Option.bind_some, Topology.nodeViews, List.foldl_map]
  refine foldl_focus (fun acc : Engine => inst ∈ acc.instances)
    (fun acc => acc.perNodeState inst.name id)
    (fun pns => some ((pns.getD .clean).transition inst now _ _))
    (order.mem_entries.mpr hlookup) order.nodup ?_ ?_ ?_ hmem
  · intro acc entry _ hacc
    rw [Engine.instances_evaluateNode]
    exact hacc
  · intro acc entry hentry hne
    refine acc.perNodeState_evaluateNode_of_ne now _ _ fun hid => hne ?_
    exact order.eq_of_key_eq hentry (order.mem_entries.mpr hlookup) hid.symm
  · intro acc hacc
    exact acc.perNodeState_evaluateNode now (p.topo.nodeView now id ns) _ hacc (hjudged _ _)

/-- An evaluation leaves a node alone that is not declared. -/
theorem healthState_updatePolicyEvaluation_of_none {id : NodeID}
    (hlookup : p.topo.nodes.lookup id = none) :
    (p.updatePolicyEvaluation now order saturated).healthState id = p.healthState id := by
  unfold Pipeline.healthState Pipeline.updatePolicyEvaluation
  cases p.policyEng with
  | none => rfl
  | some e =>
    refine foldl_frame (fun acc : Engine => acc.perNodeState p.defaultHealthPolicyName id)
      (fun acc nv hnv => ?_) e
    obtain ⟨⟨other, ns⟩, hentry, rfl⟩ := List.mem_map.mp hnv
    refine acc.perNodeState_evaluateNode_of_ne now _ _ fun hid => ?_
    obtain rfl : id = other := hid
    rw [order.mem_entries.mp hentry] at hlookup
    cases hlookup

/-- The health policy rejects a permanently-down node. -/
theorem healthState_of_permanentlyDown (now : Time) (order : Range p.topo.nodes)
    (saturated : NodeID → Bool) {inst : Instance} (hinst : inst ∈ p.healthPolicy)
    (hname : p.defaultHealthPolicyName = inst.name) {id : NodeID}
    (hdown : p.topo.PermanentlyDown id) :
    ∃ reason, (p.updatePolicyEvaluation now order saturated).healthState id =
      some (((p.healthState id).getD .clean).transition inst now true reason) := by
  obtain ⟨ns, hlookup, hdown⟩ := hdown
  have hnotUp : (p.topo.nodeView now id ns).liveness ≠ .up := by
    have hshown : (p.topo.nodeView now id ns).liveness = .down ∨
        (p.topo.nodeView now id ns).liveness = .unknown := Topology.liveness_of_permanentlyDown hdown
    rcases hshown with h | h <;> rw [h] <;> decide
  refine ⟨livenessReason (p.topo.nodeView now id ns).liveness, ?_⟩
  rw [healthState_updatePolicyEvaluation hinst hname hlookup, evaluateHealth, if_pos hnotUp]

end Evaluate

section Guard

variable {id : NodeID} {m : Monitored} {p : Pipeline} {watch : Watch}

/-- The guard of a node depends on its mark and on the state of the health policy only. -/
theorem Guards.congr {p' : Pipeline} (h : Guards p id watch)
    (hdown : p.topo.PermanentlyDown id → p'.topo.PermanentlyDown id)
    (hpolicy : p'.healthPolicy = p.healthPolicy) (hstate : p'.healthState id = p.healthState id) :
    Guards p' id watch := by
  cases watch with
  | home => trivial
  | foreign => exact hdown h
  | rejectedAt since => exact ⟨hdown h.1, hpolicy ▸ h.2.1, hstate ▸ h.2.2⟩
  | settled => exact ⟨hdown h.1, hpolicy ▸ h.2.1, hstate ▸ h.2.2⟩

/-- A node that was reported foreign stays marked. -/
theorem Guards.permanentlyDown (h : Guards p id watch) (hwatch : watch ≠ .home) :
    p.topo.PermanentlyDown id := by
  cases watch with
  | home => exact absurd rfl hwatch
  | foreign => exact h
  | rejectedAt since => exact h.1
  | settled => exact h.1

/-- A pending state was entered in the past. -/
theorem Guarded.pending_enteredAt (h : Guarded id m) {now : Time} (hnow : m.now ≤ now)
    (hpolicy : m.pipeline.healthPolicy ≠ none) :
    ((m.pipeline.healthState id).getD .clean).state = .pending →
      ((m.pipeline.healthState id).getD .clean).enteredAt ≤ now := by
  intro hpending
  cases hstate : m.pipeline.healthState id with
  | none =>
    rw [hstate] at hpending
    cases hpending
  | some pns =>
    rw [hstate] at hpending
    exact (h.entered pns hstate hpolicy hpending).trans hnow

/-- An evaluation enters its states now. -/
theorem Guarded.entered_evaluate (h : Guarded id m) {now : Time} (hnow : m.now ≤ now)
    {order : Range m.pipeline.topo.nodes} {saturated : NodeID → Bool} {pns : PerNodeState}
    (hpns : pns ∈ (m.pipeline.updatePolicyEvaluation now order saturated).healthState id)
    (hpolicy : m.pipeline.healthPolicy ≠ none) (hpending : pns.state = .pending) :
    pns.enteredAt ≤ now := by
  obtain ⟨inst, hinst⟩ := Option.ne_none_iff_exists'.mp hpolicy
  cases hlookup : m.pipeline.topo.nodes.lookup id with
  | none =>
    rw [healthState_updatePolicyEvaluation_of_none hlookup] at hpns
    exact (h.entered pns hpns hpolicy hpending).trans hnow
  | some ns =>
    rw [healthState_updatePolicyEvaluation hinst (h.named inst hinst) hlookup] at hpns
    obtain rfl := Option.some.inj hpns
    exact PerNodeState.enteredAt_transition (h.pending_enteredAt hnow hpolicy) hpending

/-- An evaluation guards the node as its history demands. -/
theorem Guarded.guards_evaluate (h : Guarded id m) {now : Time} (hnow : m.now ≤ now)
    (order : Range m.pipeline.topo.nodes) (saturated : NodeID → Bool) {inst : Instance}
    (hinst : m.pipeline.healthPolicy = some inst) :
    Guards (m.pipeline.updatePolicyEvaluation now order saturated) id
      (m.watch.evaluated inst now) := by
  have hguards := h.guards
  have hpolicy : m.pipeline.healthPolicy ≠ none := hinst ▸ Option.some_ne_none inst
  have hpast := h.pending_enteredAt hnow hpolicy
  have hkept : (m.pipeline.updatePolicyEvaluation now order saturated).healthPolicy ≠ none := by
    rw [healthPolicy_updatePolicyEvaluation]
    exact hpolicy
  have hrejected (hdown : m.pipeline.topo.PermanentlyDown id) :=
    healthState_of_permanentlyDown now order saturated hinst (h.named inst hinst) hdown
  cases hwatch : m.watch with
  | home => trivial
  | foreign =>
    rw [hwatch] at hguards
    obtain ⟨reason, hstate⟩ := hrejected hguards
    rw [Watch.evaluated]
    split_ifs with hdwell
    · exact ⟨hguards, hkept, _, hstate, PerNodeState.transition_of_no_dwell hdwell hpast⟩
    · exact ⟨hguards, hkept, _, hstate, PerNodeState.heldSince_transition hpast⟩
  | rejectedAt since =>
    rw [hwatch] at hguards
    obtain ⟨hdown, -, pns, hpns, hheld⟩ := hguards
    obtain ⟨reason, hstate⟩ := hrejected hdown
    rw [Option.mem_def.mp hpns, Option.getD_some] at hstate
    rw [Watch.evaluated]
    split_ifs with hdwell
    · exact ⟨hdown, hkept, _, hstate, hheld.transition_of_dwell hdwell⟩
    · exact ⟨hdown, hkept, _, hstate, hheld.transition⟩
  | settled =>
    rw [hwatch] at hguards
    obtain ⟨hdown, -, pns, hpns, hactive⟩ := hguards
    obtain ⟨reason, hstate⟩ := hrejected hdown
    rw [Option.mem_def.mp hpns, Option.getD_some] at hstate
    exact ⟨hdown, hkept, _, hstate, PerNodeState.transition_of_active hactive⟩

/-- Reports keep the guard, and a foreign one starts it. -/
theorem Guarded.report (h : Guarded id m) (elapsed : ℕ) (node : NodeID) (report : Report) :
    Guarded id (clusterStep id m ⟨elapsed, .report node report⟩) where
  named := h.named
  entered pns hpns hpolicy hpending :=
    (h.entered pns hpns hpolicy hpending).trans (Int.le_add_of_nonneg_right (Int.natCast_nonneg elapsed))
  guards := by
    simp only [clusterStep]
    split_ifs with hforeign
    · obtain ⟨-, rfl, hforeign⟩ := hforeign
      exact Topology.permanentlyDown_of_reportsForeign hforeign _
    · exact h.guards.congr (fun hdown => hdown.accept _ node report) rfl rfl

/-- Evaluations keep the guard. -/
theorem Guarded.evaluate (h : Guarded id m) (elapsed : ℕ)
    (order : (t : Topology) → Range t.nodes) (saturated : NodeID → Bool) :
    Guarded id (clusterStep id m ⟨elapsed, .evaluate order saturated⟩) := by
  have hnow : m.now ≤ m.now + elapsed := Int.le_add_of_nonneg_right (Int.natCast_nonneg elapsed)
  refine ⟨?_, ?_, ?_⟩
  · intro inst hinst
    simp only [clusterStep, healthPolicy_updatePolicyEvaluation] at hinst
    exact h.named inst hinst
  · intro pns hpns hpolicy hpending
    simp only [clusterStep, healthPolicy_updatePolicyEvaluation] at hpolicy
    exact h.entered_evaluate hnow hpns hpolicy hpending
  · simp only [clusterStep]
    cases hinst : m.pipeline.healthPolicy with
    | some inst => exact h.guards_evaluate hnow _ saturated hinst
    | none =>
      -- Without a health policy nothing was settled, and the mark stays.
      have hguards := h.guards
      cases hwatch : m.watch with
      | home => trivial
      | foreign => rwa [hwatch] at hguards
      | rejectedAt since =>
        rw [hwatch] at hguards
        exact absurd hinst hguards.2.1
      | settled =>
        rw [hwatch] at hguards
        exact absurd hinst hguards.2.1

/-- Requests keep the guard. -/
theorem Guarded.lease (h : Guarded id m) (elapsed : ℕ)
    (forNodes forPrimary : (t : Topology) → Range t.nodes) (acquire : PoolID → Except Text ConnId)
    (req : LeaseRequest) :
    Guarded id (clusterStep id m ⟨elapsed, .lease forNodes forPrimary acquire req⟩) := by
  have hwatched := watched_lease
    (leaseEnv (m.now + elapsed) forNodes forPrimary acquire m.pipeline.topo) req
  simp only [clusterStep]
  generalize (m.pipeline.lease _ req).2 = after at hwatched ⊢
  simp only [Pipeline.watched, Prod.mk.injEq] at hwatched
  obtain ⟨htopo, heng, hname⟩ := hwatched
  have hpolicy : after.healthPolicy = m.pipeline.healthPolicy := by
    rw [Pipeline.healthPolicy, heng, Pipeline.healthPolicy]
  have hstate : after.healthState id = m.pipeline.healthState id := by
    rw [Pipeline.healthState, heng, hname, Pipeline.healthState]
  refine ⟨?_, ?_, ?_⟩
  · intro inst hinst
    exact hname.trans (h.named inst (hpolicy ▸ hinst))
  · intro pns hpns hsome hpending
    exact (h.entered pns (hstate ▸ hpns) (hpolicy ▸ hsome) hpending).trans
      (Int.le_add_of_nonneg_right (Int.natCast_nonneg elapsed))
  · exact h.guards.congr (fun hdown => htopo ▸ hdown) hpolicy hstate

/-- Every event keeps the guard. -/
theorem Guarded.step (h : Guarded id m) (i : Timed) : Guarded id (clusterStep id m i) := by
  obtain ⟨elapsed, event⟩ := i
  cases event with
  | report node report => exact h.report elapsed node report
  | evaluate order saturated => exact h.evaluate elapsed order saturated
  | lease forNodes forPrimary acquire req => exact h.lease elapsed forNodes forPrimary acquire req

/-- Before the first event the node belongs to the cluster as far as is known. -/
theorem guarded_monitoring (id : NodeID) (cfg : ProbeConfig) (specs : List NodeSpec)
    (policies : Option (List Instance)) (hasBus : Bool) (now : Time) :
    Guarded id (monitoring cfg specs policies hasBus now) where
  named inst hinst := by
    cases policies with
    | none => cases hinst
    | some policies =>
      have hfind : (newEngine policies).instances.find? (fun inst => inst.template == .healthFilter) =
        some inst := hinst
      simp [monitoring, newPipeline, policyDefaultHealthNameOrFirst, Engine.nameOrFirst, hfind]
  entered pns hpns := by
    cases policies with
    | none => cases hpns
    | some policies =>
      simp [monitoring, newPipeline, Pipeline.healthState, Engine.perNodeState, newEngine] at hpns
  guards := trivial

/-- A request on which the node is settled, or for which it is no candidate, is not answered with it. -/
theorem Guarded.noForeignLease (h : Guarded id m) {i : Timed} (hsettled : SettledAtLease id m i) :
    NoForeignLease id m i := by
  obtain ⟨elapsed, event⟩ := i
  cases event with
  | report node report => trivial
  | evaluate order saturated => trivial
  | lease forNodes forPrimary acquire req =>
    intro hok hid
    by_contra hwatch
    have hguards := h.guards
    have hleased := eligible_or_solePrimary_of_lease hok
    rw [hid] at hleased
    rcases hleased with heligible | hprimary
    · obtain hsettled | hcandidate := hsettled.resolve_left hwatch
      · rw [hsettled] at hguards
        obtain ⟨-, -, pns, hpns, hactive⟩ := hguards
        exact not_eligible_of_active hpns hactive heligible
      · have hkept := candidate_of_eligible heligible
        exact hcandidate hkept
    · exact not_permanentlyDown_of_solePrimary hprimary (hguards.permanentlyDown hwatch)

end Guard

/-- In every run, a node that was reported foreign is leased no more, if no request for which it is a
candidate is made before the health policy has evaluated it and its dwell time has passed. -/
theorem foreign_not_leased (id : NodeID) (cfg : ProbeConfig) (specs : List NodeSpec)
    (policies : Option (List Instance)) (hasBus : Bool) (start : Time) (inputs : List Timed)
    (hsettled : Throughout (clusterStep id) (SettledAtLease id)
      (monitoring cfg specs policies hasBus start) inputs) :
    Throughout (clusterStep id) (NoForeignLease id) (monitoring cfg specs policies hasBus start)
      inputs :=
  throughout_of_invariant (I := Guarded id) (fun _ i h _ => h.step i) (fun _ _ h => h.noForeignLease)
    (guarded_monitoring id cfg specs policies hasBus start) hsettled

/-- Some order of visiting the nodes. -/
noncomputable def anyOrder (t : Topology) : Range t.nodes := Classical.choice (Range.nonempty t.nodes)

/-- A query on the read port. -/
def readRequest : LeaseRequest where
  port := .read
  poolMode := .transaction
  leaseType := text "transaction"
  sql := text "SELECT 1"
  postWriteWindowActive := false
  postWriteWindowRemainingMs := 0

/-- The query, in whatever order the nodes are visited, with pools that have a connection. -/
noncomputable def readLease : ClusterEvent :=
  .lease anyOrder anyOrder (fun _ => .ok 0) readRequest

/-- The query on the write port. -/
noncomputable def writeLease : ClusterEvent :=
  .lease anyOrder anyOrder (fun _ => .ok 0) { readRequest with port := .write }

/-- Two nodes `a` and `b` that are probed every second, with the default policies. -/
def monitoredPair : Monitored :=
  monitoring ⟨1000, 0, 0, 0⟩
    [⟨text "a", ⟨text "db-a", 5432, text "replica"⟩, 0⟩,
      ⟨text "b", ⟨text "db-b", 5432, text "replica"⟩, 1⟩] (some []) true 0

/-- The first probes: `a` names the cluster, and `b` is a replica of another one. -/
def foreignReplica : List Timed :=
  [⟨0, .report (text "a") (.systemID (text "7"))⟩, ⟨0, .report (text "b") (.observedRole .replica)⟩,
    ⟨0, .report (text "b") (.systemID (text "8"))⟩]

/-- The pipeline after the first probes. -/
def afterForeignReplica : Pipeline :=
  (run (clusterStep (text "b")) monitoredPair foreignReplica).pipeline

/-- The replica is no candidate on the write port. -/
theorem not_candidate_afterForeignReplica :
    ¬afterForeignReplica.Candidate 0 { readRequest with port := .write } (text "b") := by
  intro h
  obtain ⟨ns, hlookup, hrole, -⟩ := h
  have hroles : (afterForeignReplica.topo.nodes.lookup (text "b")).all (fun ns =>
      roleReasons .write .empty false
        (afterForeignReplica.topo.nodeView 0 (text "b") ns).observedRole ≠ []) = true := by
    decide
  rw [hlookup, Option.all_some, decide_eq_true_iff] at hroles
  exact hroles hrole

/-- The first probes, the query on the write port, two evaluations five seconds apart, and the query on the
read port. -/
noncomputable def settledForeignReplica : List Timed :=
  foreignReplica ++ [⟨0, writeLease⟩, ⟨0, .evaluate anyOrder fun _ => false⟩,
    ⟨5000000000, .evaluate anyOrder fun _ => false⟩, ⟨0, readLease⟩]

/-- The foreign replica is no candidate on the write port, and after two evaluations five seconds apart it
is not leased on the read port. -/
theorem foreign_not_leased_after_dwell :
    Throughout (clusterStep (text "b")) (SettledAtLease (text "b")) monitoredPair
        settledForeignReplica ∧
      Throughout (clusterStep (text "b")) (NoForeignLease (text "b")) monitoredPair
        settledForeignReplica := by
  have hsettled : Throughout (clusterStep (text "b")) (SettledAtLease (text "b")) monitoredPair
      settledForeignReplica := by
    refine ⟨trivial, trivial, trivial, .inr (.inr ?_), trivial, trivial, .inr (.inl ?_), trivial⟩
    · exact not_candidate_afterForeignReplica
    · simp only [clusterStep, writeLease, healthPolicy_updatePolicyEvaluation, healthPolicy_lease]
      decide
  exact ⟨hsettled, foreign_not_leased (text "b") ⟨1000, 0, 0, 0⟩ _ (some []) true 0 _ hsettled⟩

/-- After the first probes the foreign replica is the eligible node. -/
theorem mem_eligibleNodes_afterForeignReplica {env : Env afterForeignReplica.topo}
    (hnow : env.now = 0) {id : NodeID} :
    id ∈ eligibleNodes (afterForeignReplica.candidates env readRequest) ↔ id = text "b" := by
  have hkeys : afterForeignReplica.topo.nodes.keys = {text "a", text "b"} := by decide
  have hmem : id ∈ eligibleNodes (afterForeignReplica.candidates env readRequest) ↔
      (afterForeignReplica.topo.nodes.lookup id).any
        (fun ns => afterForeignReplica.admits 0 readRequest ⟨id, ns⟩) = true := by
    rw [mem_eligibleNodes, hnow, Option.any_eq_true]
  rw [hmem]
  constructor
  · intro hadmits
    obtain ⟨ns, hlookup, -⟩ := (Option.any_eq_true _ _).mp hadmits
    have hdeclared : id ∈ afterForeignReplica.topo.nodes.keys :=
      Finmap.mem_keys.mpr (Finmap.mem_of_lookup_eq_some hlookup)
    rw [hkeys, Finset.mem_insert, Finset.mem_singleton] at hdeclared
    refine hdeclared.resolve_left fun hid => ?_
    subst hid
    revert hadmits
    decide
  · intro hid
    subst hid
    decide

/-- A replica that was just reported foreign is leased. -/
theorem foreign_replica_leased :
    ¬Throughout (clusterStep (text "b")) (NoForeignLease (text "b")) monitoredPair
      (foreignReplica ++ [⟨0, readLease⟩]) := by
  intro h
  have hlease := ((throughout_append _ _).mp h).2.1
  let env := leaseEnv 0 anyOrder anyOrder (fun _ => .ok 0) afterForeignReplica.topo
  have hmem {id : NodeID} :
      id ∈ eligibleNodes (afterForeignReplica.candidates env readRequest) ↔ id = text "b" :=
    mem_eligibleNodes_afterForeignReplica rfl
  have hsome := List.ne_nil_of_mem (hmem.mpr rfl)
  have hport : readRequest.port ≠ .write := by decide
  have hconn : ∃ conn, acquireFrom afterForeignReplica.topo env (text "b") = .ok conn := ⟨0, rfl⟩
  have hleased := (lease_ok_iff_of_eligible rfl hsome).mpr
    ⟨fun hwrite => absurd hwrite hport, hmem.mp (selectNode_mem _ hsome _ _), hconn⟩
  exact absurd (hlease hleased.1 hleased.2) (by decide)

end Grunyas.Routing
