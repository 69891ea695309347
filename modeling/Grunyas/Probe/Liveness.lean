import Grunyas.Probe.Cycle

/-!
# The liveness that the probes leave in the topology

The topology is the sink of all probes. The reports of a cycle may be interleaved with those of the
other probes, which are about other nodes. A failure below the threshold is reported as up, and the
topology records what is reported, so that it brings up a node that was unknown or down;
`liveness_follows_iff` says for which runs the failures leave the liveness alone.
-/

namespace Grunyas.Probes

open GoText GoMap Grunyas.Server Grunyas.Cluster Machine

/-- A report about another node than the one given. -/
structure OtherReport (id : NodeID) where
  now : Time
  node : NodeID
  report : Report
  other : node ≠ id

/-- The kinds of reports of a cycle. -/
inductive SinkMethod where
  | observedRole
  | systemID
  | lag
  | liveness
  deriving DecidableEq, Repr

section

variable {id : NodeID}

/-- The topology after reports of the other probes. -/
def acceptOthers (t : Topology) (others : List (OtherReport id)) : Topology :=
  others.foldl (fun t r => t.accept r.now r.node r.report) t

/-- The topology as the sink of one probe, with what the others report before each of its reports. -/
def topologySink (others : SinkMethod → List (OtherReport id)) : Sink Topology where
  updateLiveness t now id l err := (acceptOthers t (others .liveness)).updateLiveness now id l err
  updateObservedRole t id role := (acceptOthers t (others .observedRole)).updateObservedRole id role
  updateSystemID t id sid := (acceptOthers t (others .systemID)).updateSystemID id sid
  updateLag t id lagMs sampledAt := (acceptOthers t (others .lag)).updateLag id lagMs sampledAt
  markLagIdle t id sampledAt := (acceptOthers t (others .lag)).markLagIdle id sampledAt
  markLagUnknown t id _ sampledAt := (acceptOthers t (others .lag)).markLagUnknown id sampledAt

/-- A cycle and what the other probes report meanwhile. -/
structure SharedCycle (id : NodeID) where
  cycle : Cycle
  others : SinkMethod → List (OtherReport id)

/-- The topology and one of the probes. -/
structure Observed where
  topo : Topology
  probe : Probe

/-- How a cycle ends. -/
def Observed.outcome (m : Observed) (i : SharedCycle id) : CycleOutcome :=
  m.probe.outcome (topologySink i.others) m.topo i.cycle

/-- The next cycle of the probe. -/
def observeStep (m : Observed) (i : SharedCycle id) : Observed where
  topo := (m.probe.probeOnce (topologySink i.others) m.topo i.cycle).2
  probe := (m.probe.probeOnce (topologySink i.others) m.topo i.cycle).1

/-- The liveness that is stored for a node. -/
def storedLiveness (t : Topology) (id : NodeID) : Option Liveness :=
  (t.nodes.lookup id).map NodeState.liveness

/-- A cycle brings its node up only if it succeeds, and leaves the liveness as it was if it fails
below the threshold. -/
def LivenessFollows (m : Observed) (i : SharedCycle id) : Prop :=
  let m' := observeStep m i
  (storedLiveness m'.topo id = some .up →
    storedLiveness m.topo id = some .up ∨ m.outcome i = .success) ∧
    (m.outcome i ≠ .success → m'.probe.failureCount < threshold m.probe.livenessFailureCount →
      storedLiveness m'.topo id = storedLiveness m.topo id)

/-- A failure below the threshold meets a node that is up or permanently down already, or one that is
down if the failure is that of a foreign identifier. -/
def FailsHarmlessly (m : Observed) (i : SharedCycle id) : Prop :=
  m.outcome i ≠ .success →
    countAfter m.probe.failureCount (m.outcome i) < threshold m.probe.livenessFailureCount →
    ∀ ns, m.topo.nodes.lookup id = some ns →
      if m.outcome i = .mismatch then ns.liveness = .down
      else ns.liveness = .up ∨ ns.permanentlyDown = true

/-- The liveness of a node and whether it is permanently down. -/
def health (t : Topology) (id : NodeID) : Option (Liveness × Bool) :=
  (t.nodes.lookup id).map fun ns => (ns.liveness, ns.permanentlyDown)

/-- What a cycle makes of the health of its node. -/
def healthAfter (livenessFailureCount : ℤ) (failureCount : ℕ) (o : CycleOutcome) (h : Liveness × Bool) :
    Liveness × Bool :=
  if o = .mismatch then (.down, true)
  else if h.2 then h
  else (livenessAfter livenessFailureCount failureCount o, false)

/-- An update that changes neither the liveness nor the mark keeps the health of every node. -/
theorem health_update (t : Topology) (node : NodeID) {f : NodeState → NodeState}
    (hf : ∀ ns, (f ns).liveness = ns.liveness ∧ (f ns).permanentlyDown = ns.permanentlyDown)
    (other : NodeID) : health (t.update node f) other = health t other := by
  unfold health
  rw [Topology.lookup_update]
  split_ifs
  · rw [Option.map_map]
    congr 1
    funext ns
    exact Prod.ext (hf ns).1 (hf ns).2
  · rfl

/-- The reports of the other probes keep the health of the node. -/
@[simp] theorem health_acceptOthers (t : Topology) (others : List (OtherReport id)) :
    health (acceptOthers t others) id = health t id := by
  refine foldl_frame (fun t => health t id) (fun t r _ => ?_) t
  unfold health
  rw [Topology.lookup_accept, if_neg (Ne.symm r.other)]

/-- An identifier that is accepted keeps the health of the node, a refused one marks it. -/
theorem health_updateSystemID (t : Topology) (id : NodeID) (sid : SystemID) :
    health (t.updateSystemID id sid).2 id =
      if (t.updateSystemID id sid).1 = none then health t id
      else (health t id).map fun _ => (.down, true) := by
  unfold Topology.updateSystemID
  cases hlookup : t.nodes.lookup id with
  | none => simp [health, hlookup]
  | some ns =>
    by_cases hfirst : t.clusterID = []
    · simp [hfirst, health, Topology.lookup_update, hlookup]
    · by_cases hsame : sid = t.clusterID
      · simp [hfirst, hsame, health, Topology.lookup_update, hlookup]
      · simp [hfirst, hsame, health, Topology.lookup_update, hlookup]

/-- A liveness report changes the health of a node that is not permanently down. -/
theorem health_updateLiveness (t : Topology) (now : Time) (id : NodeID) (l : Liveness)
    (err : Option Text) : health (t.updateLiveness now id l err) id =
      (health t id).map fun h => if h.2 then h else (l, false) := by
  unfold health Topology.updateLiveness
  rw [Topology.lookup_update, if_pos rfl, Option.map_map, Option.map_map]
  congr 1
  funext ns
  cases hdown : ns.permanentlyDown <;> simp [NodeState.updateLiveness, hdown]
  split_ifs <;> simp [hdown]

/-- A role that is reported leaves the health of the node alone. -/
theorem health_reportRole (i : SharedCycle id) (t : Topology) (role : Role) :
    health ((topologySink i.others).updateObservedRole t id role) id = health t id := by
  refine Eq.trans (health_update _ id ?_ id) (health_acceptOthers t (i.others .observedRole))
  exact fun ns => ⟨rfl, rfl⟩

/-- An identifier that is reported marks the node if it is refused, and leaves its health alone
otherwise. -/
theorem health_reportSystemID (i : SharedCycle id) (t : Topology) (sid : SystemID) :
    health ((topologySink i.others).updateSystemID t id sid).2 id =
      if ((topologySink i.others).updateSystemID t id sid).1 = none then health t id
      else (health t id).map fun _ => (.down, true) := by
  refine (health_updateSystemID _ id sid).trans ?_
  rw [health_acceptOthers]
  rfl

/-- A lag and the absence of one leave the health of the node alone. -/
theorem health_reportLag {p : Probe} (hid : p.id = id) (t : Topology) (i : SharedCycle id) :
    health (p.reportLag (topologySink i.others) t i.cycle) id = health t id := by
  subst hid
  unfold Probe.reportLag
  rcases fetchLag i.cycle with err | _ | lagMs
  all_goals
    refine Eq.trans (health_update _ p.id ?_ p.id) (health_acceptOthers t (i.others .lag))
    exact fun ns => ⟨rfl, rfl⟩

/-- Before its liveness is reported, a node has kept its health, unless its identifier was refused. -/
theorem health_informed {p : Probe} (hid : p.id = id) (t : Topology) (i : SharedCycle id) :
    health (p.informed (topologySink i.others) t i.cycle) id =
      (health t id).map fun h =>
        if p.outcome (topologySink i.others) t i.cycle = .mismatch then (.down, true) else h := by
  subst hid
  unfold Probe.informed
  cases ho : p.outcome (topologySink i.others) t i.cycle with
  | connectFailed => simp
  | pingFailed => simp
  | roleFailed => simp
  | systemIDFailed =>
    cases fetchRole i.cycle with
    | error err => simp
    | ok role => simpa using health_reportRole i t role
  | mismatch =>
    obtain ⟨role, sid, hfetch, hfetch', hanswer⟩ := Probe.answer_of_outcome (.inl ho)
    rw [hfetch, hfetch']
    have hrefused := mt hanswer.mp (by simp [ho])
    simp only [health_reportSystemID, health_reportRole, hrefused, if_true, if_false]
  | success =>
    obtain ⟨role, sid, hfetch, hfetch', hanswer⟩ := Probe.answer_of_outcome (.inr ho)
    rw [hfetch, hfetch']
    simp only [reduceCtorEq, if_false, Option.map_id_fun', id_eq]
    split_ifs
    · rw [health_reportLag rfl, health_reportSystemID, if_pos (hanswer.mpr ho), health_reportRole]
    · rw [health_reportSystemID, if_pos (hanswer.mpr ho), health_reportRole]

/-- A cycle changes the health of its node as its outcome says. -/
theorem health_observeStep {m : Observed} (hid : m.probe.id = id)
    (hcount : m.probe.conn = true → m.probe.failureCount = 0) (i : SharedCycle id) :
    health (observeStep m i).topo id = (health m.topo id).map
      (healthAfter m.probe.livenessFailureCount m.probe.failureCount (m.outcome i)) := by
  obtain ⟨err, hcycle⟩ := m.probe.probeOnce_eq (S := topologySink i.others) hcount m.topo i.cycle
  have hreport : (observeStep m i).topo =
      (acceptOthers (m.probe.informed (topologySink i.others) m.topo i.cycle)
        (i.others .liveness)).updateLiveness i.cycle.now id
        (livenessAfter m.probe.livenessFailureCount m.probe.failureCount (m.outcome i)) err := by
    rw [observeStep, hcycle, hid]
    rfl
  rw [hreport, health_updateLiveness, health_acceptOthers, health_informed hid, Option.map_map]
  congr 1
  funext h
  by_cases ho : m.outcome i = .mismatch
  · have ho' : m.probe.outcome (topologySink i.others) m.topo i.cycle = .mismatch := ho
    simp [healthAfter, ho, ho']
  · have ho' : m.probe.outcome (topologySink i.others) m.topo i.cycle ≠ .mismatch := ho
    simp [healthAfter, ho, ho']

/-- What holds between two cycles of the probe of a node. -/
structure ProbeOf (id : NodeID) (m : Observed) : Prop where
  node : m.probe.id = id
  connected : m.probe.conn = true → m.probe.failureCount = 0

/-- A cycle keeps the probe that of its node. -/
theorem ProbeOf.step {m : Observed} (h : ProbeOf id m) (i : SharedCycle id) :
    ProbeOf id (observeStep m i) := by
  obtain ⟨err, hcycle⟩ := m.probe.probeOnce_eq (S := topologySink i.others) h.connected m.topo i.cycle
  refine ⟨?_, m.probe.failureCount_probeOnce h.connected m.topo i.cycle⟩
  simp only [observeStep, hcycle]
  exact h.node

/-- The failures that are counted after a cycle. -/
theorem ProbeOf.failureCount_observeStep {m : Observed} (h : ProbeOf id m) (i : SharedCycle id) :
    (observeStep m i).probe.failureCount = countAfter m.probe.failureCount (m.outcome i) := by
  obtain ⟨err, hcycle⟩ := m.probe.probeOnce_eq (S := topologySink i.others) h.connected m.topo i.cycle
  simp only [observeStep, hcycle]
  rfl

/-- A cycle leaves in the topology what its outcome makes of the health of the node. -/
theorem ProbeOf.storedLiveness_observeStep {m : Observed} (h : ProbeOf id m) (i : SharedCycle id) :
    storedLiveness (observeStep m i).topo id = (m.topo.nodes.lookup id).map fun ns =>
      (healthAfter m.probe.livenessFailureCount m.probe.failureCount (m.outcome i)
        (ns.liveness, ns.permanentlyDown)).1 := by
  have hhealth := congrArg (Option.map Prod.fst) (health_observeStep h.node h.connected i)
  simp only [health, Option.map_map] at hhealth
  exact hhealth

/-- A failure is reported as up below the threshold and as down from there on. -/
theorem livenessAfter_of_failure {o : CycleOutcome} (h : o ≠ .success) (livenessFailureCount : ℤ)
    (failureCount : ℕ) : livenessAfter livenessFailureCount failureCount o =
      if countAfter failureCount o < threshold livenessFailureCount then .up else .down := by
  simp only [livenessAfter, h, ne_eq, not_false_eq_true, true_and, ← not_le, ite_not]

/-- A cycle leaves the liveness as it should exactly if it fails without harm or not at all. -/
theorem ProbeOf.livenessFollows_iff {m : Observed} (h : ProbeOf id m) (i : SharedCycle id) :
    LivenessFollows m i ↔ FailsHarmlessly m i := by
  simp only [LivenessFollows, FailsHarmlessly, h.storedLiveness_observeStep, h.failureCount_observeStep]
  rw [storedLiveness]
  cases m.topo.nodes.lookup id with
  | none => simp
  | some ns =>
    simp only [Option.map_some, Option.some.injEq, forall_eq']
    by_cases hsuccess : m.outcome i = .success
    · simp [hsuccess]
    by_cases hmismatch : m.outcome i = .mismatch
    · simp [healthAfter, hmismatch, eq_comm]
    cases hdown : ns.permanentlyDown with
    | true => simp [healthAfter, hmismatch, hsuccess]
    | false =>
      simp only [healthAfter, hmismatch, livenessAfter_of_failure hsuccess]
      by_cases hbelow :
          countAfter m.probe.failureCount (m.outcome i) < threshold m.probe.livenessFailureCount
      · simp [hbelow, hsuccess, eq_comm]
      · simp [hbelow]

end

/-- For every run of the cycles of the probe of a node, with any reports of the other probes between its
reports: every cycle brings the node up only if it succeeds, and leaves the liveness as it was if it
fails below the threshold, exactly if every failure below the threshold meets a node that is up or
permanently down, or down if the identifier is refused. -/
theorem liveness_follows_iff (cfg : ProbeConfig) (specs : List NodeSpec) (id : NodeID)
    (livenessFailureCount : ℤ) (inputs : List (SharedCycle id)) :
    let m : Observed := ⟨newTopology cfg specs, .new id livenessFailureCount⟩
    Throughout observeStep LivenessFollows m inputs ↔
      Throughout observeStep FailsHarmlessly m inputs := by
  intro m
  have hm : ProbeOf id m := ⟨rfl, (fun hconn => by cases hconn)⟩
  exact throughout_congr (fun m i h => h.step i) (fun m i h => h.livenessFollows_iff i) hm

/-- A node that cannot be connected to. -/
def unreachableNode (now : Time) : Cycle := { silentNode now with connect := some (text "refused") }

/-- The first cycle of a probe fails, below the threshold, and brings the unknown node up. -/
theorem unreachable_node_comes_up :
    let m : Observed :=
      ⟨newTopology ⟨1000, 0, 0, 0⟩ [⟨text "a", ⟨text "db-a", 5432, text "primary"⟩, 0⟩],
        .new (text "a") 3⟩
    let i : SharedCycle (text "a") := ⟨unreachableNode 1, fun _ => []⟩
    storedLiveness m.topo (text "a") = some .unknown ∧ m.outcome i = .connectFailed ∧
      (observeStep m i).probe.failureCount < threshold 3 ∧
      storedLiveness (observeStep m i).topo (text "a") = some .up := by
  decide

end Grunyas.Probes
