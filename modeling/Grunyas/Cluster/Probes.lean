import Grunyas.Cluster.Topology

/-!
# What the probes report

Every node has a probe that reports to the topology: the liveness and the error of a probe cycle,
the role, the system identifier and the replication lag. A report about a node that is not declared
is ignored. The first system identifier that is reported becomes the one of the cluster; a node with
another one is marked permanently down.
-/

namespace Grunyas.Cluster

open GoText GoMap Grunyas.Server

/-- The declaration of a node with its pool. -/
structure NodeSpec where
  id : NodeID
  config : NodeConfig
  pool : PoolID
  deriving DecidableEq, Repr

/-- The configuration of the probes, in milliseconds. -/
structure ProbeConfig where
  intervalMs : ℤ
  livenessMaxAgeMs : ℤ
  roleMaxAgeMs : ℤ
  lagMaxAgeMs : ℤ
  deriving DecidableEq, Repr

/-- A maximal age, or its default where none is configured. -/
def maxAgeOrDefault (val fallback : ℤ) : ℤ := if 0 < val then val else fallback

/-- A node before its first probe. -/
def NodeState.new (spec : NodeSpec) : NodeState where
  config := spec.config
  pool := spec.pool
  observedRole := .unknown
  liveness := .unknown
  systemID := []
  lastProbeAt := 0
  lastProbeErr := none
  permanentlyDown := false
  replicationLagMs := none
  replicationLagState := .notApplicable
  lastLagSampleAt := 0

/-- The topology of the declared nodes before their first probes. -/
def newTopology (cfg : ProbeConfig) (specs : List NodeSpec) : Topology where
  nodes := specs.foldl (fun nodes spec => nodes.insert spec.id (.new spec)) ∅
  clusterID := []
  livenessMaxAgeMs := maxAgeOrDefault cfg.livenessMaxAgeMs (cfg.intervalMs * 2)
  observedRoleMaxAgeMs := maxAgeOrDefault cfg.roleMaxAgeMs (cfg.intervalMs * 5)
  replicationLagMaxAgeMs := maxAgeOrDefault cfg.lagMaxAgeMs (cfg.intervalMs * 2)

/-- Change the state of a declared node. -/
def Topology.update (t : Topology) (id : NodeID) (f : NodeState → NodeState) : Topology :=
  match t.nodes.lookup id with
  | none => t
  | some ns => { t with nodes := t.nodes.insert id (f ns) }

/-- The end of a probe cycle. A permanently-down node does not come up again. -/
def NodeState.updateLiveness (now : Time) (l : Liveness) (err : Option Text) (ns : NodeState) :
    NodeState :=
  if ns.permanentlyDown then
    if l = .up then ns else { ns with lastProbeAt := now, lastProbeErr := err }
  else { ns with liveness := l, lastProbeAt := now, lastProbeErr := err }

/-- The liveness of a node. -/
def Topology.updateLiveness (t : Topology) (now : Time) (id : NodeID) (l : Liveness)
    (err : Option Text) : Topology :=
  t.update id (.updateLiveness now l err)

/-- The role of a node. -/
def Topology.updateObservedRole (t : Topology) (id : NodeID) (role : Role) : Topology :=
  t.update id fun ns => { ns with observedRole := role }

/-- The error for a node of another cluster. -/
def mismatchError (id : NodeID) (sid clusterID : SystemID) : Text :=
  text "system_identifier mismatch for node " ++ id ++ text ": got " ++ sid ++
    text ", cluster has " ++ clusterID

/-- The system identifier of a node. -/
def Topology.updateSystemID (t : Topology) (id : NodeID) (sid : SystemID) : Option Text × Topology :=
  match t.nodes.lookup id with
  | none => (some (text "node " ++ id ++ text " not found"), t)
  | some _ =>
    if t.clusterID = [] then
      (none, { t with clusterID := sid }.update id fun ns => { ns with systemID := sid })
    else if sid ≠ t.clusterID then
      (some (mismatchError id sid t.clusterID),
        t.update id fun ns => { ns with permanentlyDown := true, liveness := .down })
    else (none, t.update id fun ns => { ns with systemID := sid })

/-- A sample of the replication lag. -/
def Topology.updateLag (t : Topology) (id : NodeID) (lagMs : ℤ) (sampledAt : Time) : Topology :=
  t.update id fun ns => { ns with
    replicationLagMs := some lagMs, replicationLagState := .fresh, lastLagSampleAt := sampledAt }

/-- A replica without anything to replay. -/
def Topology.markLagIdle (t : Topology) (id : NodeID) (sampledAt : Time) : Topology :=
  t.update id fun ns => { ns with
    replicationLagMs := none, replicationLagState := .idle, lastLagSampleAt := sampledAt }

/-- A replica whose lag could not be read. -/
def Topology.markLagUnknown (t : Topology) (id : NodeID) (sampledAt : Time) : Topology :=
  t.update id fun ns => { ns with
    replicationLagMs := none, replicationLagState := .unknown, lastLagSampleAt := sampledAt }

/-- One report of a probe. -/
inductive Report where
  | liveness (l : Liveness) (err : Option Text)
  | observedRole (role : Role)
  | systemID (sid : SystemID)
  | lag (lagMs : ℤ) (sampledAt : Time)
  | lagIdle (sampledAt : Time)
  | lagUnknown (sampledAt : Time)
  deriving DecidableEq, Repr

/-- The topology after a report about a node. -/
def Topology.accept (t : Topology) (now : Time) (id : NodeID) : Report → Topology
  | .liveness l err => t.updateLiveness now id l err
  | .observedRole role => t.updateObservedRole id role
  | .systemID sid => (t.updateSystemID id sid).2
  | .lag lagMs sampledAt => t.updateLag id lagMs sampledAt
  | .lagIdle sampledAt => t.markLagIdle id sampledAt
  | .lagUnknown sampledAt => t.markLagUnknown id sampledAt

/-- What a report does to the state of the node it is about. -/
def Report.apply (clusterID : SystemID) (now : Time) (ns : NodeState) : Report → NodeState
  | .liveness l err => ns.updateLiveness now l err
  | .observedRole role => { ns with observedRole := role }
  | .systemID sid =>
    if clusterID = [] ∨ sid = clusterID then { ns with systemID := sid }
    else { ns with permanentlyDown := true, liveness := .down }
  | .lag lagMs sampledAt => { ns with
      replicationLagMs := some lagMs, replicationLagState := .fresh, lastLagSampleAt := sampledAt }
  | .lagIdle sampledAt => { ns with
      replicationLagMs := none, replicationLagState := .idle, lastLagSampleAt := sampledAt }
  | .lagUnknown sampledAt => { ns with
      replicationLagMs := none, replicationLagState := .unknown, lastLagSampleAt := sampledAt }

/-- The report is the system identifier of another cluster. -/
def Topology.reportsForeign (t : Topology) (id : NodeID) : Report → Bool
  | .systemID sid => (t.nodes.lookup id).isSome && t.clusterID != [] && sid != t.clusterID
  | _ => false

variable {t : Topology}

/-- The nodes of a new topology were never probed. -/
theorem lookup_newTopology {cfg : ProbeConfig} {specs : List NodeSpec} {id : NodeID} {ns : NodeState}
    (hlookup : (newTopology cfg specs).nodes.lookup id = some ns) : ∃ spec, ns = .new spec := by
  have hfold (specs : List NodeSpec) (nodes : Finmap fun _ : NodeID => NodeState)
      (hnodes : ∀ ns, nodes.lookup id = some ns → ∃ spec, ns = .new spec) {ns : NodeState}
      (hlookup : (specs.foldl (fun nodes spec => nodes.insert spec.id (.new spec)) nodes).lookup id =
        some ns) : ∃ spec, ns = .new spec := by
    induction specs generalizing nodes with
    | nil => exact hnodes ns hlookup
    | cons spec rest ih =>
      refine ih (nodes.insert spec.id (.new spec)) (fun ns hlookup => ?_) hlookup
      by_cases hid : id = spec.id
      · subst hid
        rw [Finmap.lookup_insert, Option.some.injEq] at hlookup
        exact ⟨spec, hlookup.symm⟩
      · rw [Finmap.lookup_insert_of_ne _ hid] at hlookup
        exact hnodes ns hlookup
  exact hfold specs ∅ (fun ns hlookup => by simp at hlookup) hlookup

/-- An update changes the node it is about and no other. -/
theorem Topology.lookup_update (t : Topology) (id other : NodeID) (f : NodeState → NodeState) :
    (t.update id f).nodes.lookup other =
      if other = id then (t.nodes.lookup other).map f else t.nodes.lookup other := by
  unfold Topology.update
  by_cases hother : other = id
  · subst hother
    cases hlookup : t.nodes.lookup other with
    | none => simp [hlookup]
    | some ns => simp [Finmap.lookup_insert]
  · cases hlookup : t.nodes.lookup id with
    | none => simp [hother]
    | some ns => simp [hother, Finmap.lookup_insert_of_ne _ hother]

/-- An update keeps the identifier of the cluster. -/
@[simp] theorem Topology.clusterID_update (t : Topology) (id : NodeID) (f : NodeState → NodeState) :
    (t.update id f).clusterID = t.clusterID := by
  unfold Topology.update
  cases t.nodes.lookup id <;> rfl

/-- An update neither declares a node nor removes one. -/
@[simp] theorem Topology.isSome_lookup_update (t : Topology) (id other : NodeID)
    (f : NodeState → NodeState) :
    ((t.update id f).nodes.lookup other).isSome = (t.nodes.lookup other).isSome := by
  rw [Topology.lookup_update]
  split_ifs
  · rw [Option.isSome_map]
  · rfl

/-- An update that keeps the mark keeps a node permanently down. -/
theorem Topology.PermanentlyDown.update {other : NodeID} (h : t.PermanentlyDown other) (id : NodeID)
    {f : NodeState → NodeState} (hf : ∀ ns, ns.permanentlyDown = true → (f ns).permanentlyDown = true) :
    (t.update id f).PermanentlyDown other := by
  obtain ⟨ns, hlookup, hdown⟩ := h
  rw [Topology.PermanentlyDown, Topology.lookup_update, hlookup]
  split_ifs
  · exact ⟨_, rfl, hf ns hdown⟩
  · exact ⟨ns, rfl, hdown⟩

/-- A report changes the node it is about and no other. -/
theorem Topology.lookup_accept (t : Topology) (now : Time) (id other : NodeID) (report : Report) :
    (t.accept now id report).nodes.lookup other =
      if other = id then (t.nodes.lookup other).map fun ns => report.apply t.clusterID now ns
      else t.nodes.lookup other := by
  cases report with
  | systemID sid =>
    simp only [Topology.accept, Topology.updateSystemID]
    cases hlookup : t.nodes.lookup id with
    | none =>
      by_cases hother : other = id
      · subst hother
        simp [hlookup]
      · simp [hother]
    | some ns =>
      dsimp only
      split_ifs with hfirst hforeign <;> simp_all [Topology.lookup_update, Report.apply]
  | _ => exact Topology.lookup_update _ _ _ _

/-- No report brings a permanently-down node back. -/
theorem Report.permanentlyDown_apply {clusterID : SystemID} {now : Time} {ns : NodeState}
    (report : Report) (h : ns.permanentlyDown = true) :
    (report.apply clusterID now ns).permanentlyDown = true := by
  cases report with
  | liveness l err =>
    rw [Report.apply, NodeState.updateLiveness, if_pos h]
    split_ifs <;> exact h
  | systemID sid =>
    simp only [Report.apply]
    split_ifs
    · exact h
    · rfl
  | _ => exact h

/-- A permanently-down node stays so, whatever is reported. -/
theorem Topology.PermanentlyDown.accept {id : NodeID} (h : t.PermanentlyDown id) (now : Time)
    (node : NodeID) (report : Report) : (t.accept now node report).PermanentlyDown id := by
  obtain ⟨ns, hlookup, hdown⟩ := h
  rw [Topology.PermanentlyDown, Topology.lookup_accept, hlookup]
  split_ifs
  · exact ⟨_, rfl, report.permanentlyDown_apply hdown⟩
  · exact ⟨ns, rfl, hdown⟩

/-- What it takes for a report to be foreign: the node is declared, and the identifier is not the one
of the cluster, which is known. -/
theorem Topology.reportsForeign_iff {id : NodeID} {report : Report} :
    t.reportsForeign id report = true ↔ ∃ sid ns, report = .systemID sid ∧
      t.nodes.lookup id = some ns ∧ t.clusterID ≠ [] ∧ sid ≠ t.clusterID := by
  cases report with
  | systemID sid =>
    simp [Topology.reportsForeign, Option.isSome_iff_exists, and_assoc]
  | _ => simp [Topology.reportsForeign]

/-- A foreign report marks the node permanently down. -/
theorem Topology.permanentlyDown_of_reportsForeign {id : NodeID} {report : Report}
    (h : t.reportsForeign id report = true) (now : Time) :
    (t.accept now id report).PermanentlyDown id := by
  obtain ⟨sid, ns, rfl, hlookup, hknown, hforeign⟩ := Topology.reportsForeign_iff.mp h
  rw [Topology.PermanentlyDown, Topology.lookup_accept, hlookup, if_pos rfl]
  refine ⟨_, rfl, ?_⟩
  simp [Report.apply, hknown, hforeign]

/-- A permanently-down node is shown down, or unknown once the last probe is too old. -/
theorem Topology.liveness_of_permanentlyDown {now : Time} {id : NodeID} {ns : NodeState}
    (h : ns.permanentlyDown = true) :
    (t.nodeView now id ns).liveness = .down ∨ (t.nodeView now id ns).liveness = .unknown := by
  simp only [Topology.nodeView, h, if_true]
  split_ifs
  · exact .inr rfl
  · exact .inl rfl

end Grunyas.Cluster
