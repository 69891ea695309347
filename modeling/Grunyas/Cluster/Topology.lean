import Grunyas.Go.Maps
import Grunyas.Server.Types

/-!
# The cluster topology

The declared nodes with what the probes observed of them. A `NodeView` is a snapshot of one node
in which observations older than their maximal age read as unknown. `Topology.primary` looks at
the recorded roles instead, whatever their age, and passes over permanently-down nodes; the
order in which it meets the nodes is immaterial (`Topology.primary_id`).
-/

namespace Grunyas.Cluster

open GoText GoMap Grunyas.Server

/-- A node identifier. -/
abbrev NodeID := Text

/-- A PostgreSQL system identifier; empty where none is known. -/
abbrev SystemID := Text

/-- The identity of the pool manager of a node. -/
abbrev PoolID := ℕ

/-- The liveness a probe observed for a node. -/
inductive Liveness where
  | unknown
  | up
  | degraded
  | down
  deriving DecidableEq, Repr

/-- What is known about the replication lag of a node. -/
inductive LagState where
  | unknown
  | fresh
  | idle
  | stale
  | notApplicable
  deriving DecidableEq, Repr

/-- The declaration of a node, as far as its view shows it. -/
structure NodeConfig where
  host : Text
  port : ℕ
  declaredRole : Text
  deriving DecidableEq, Repr

/-- The recorded state of a node; the lag is absent where the source has a nil pointer. -/
structure NodeState where
  config : NodeConfig
  pool : PoolID
  observedRole : Role
  liveness : Liveness
  systemID : SystemID
  lastProbeAt : Time
  lastProbeErr : Option Text
  permanentlyDown : Bool
  replicationLagMs : Option ℤ
  replicationLagState : LagState
  lastLagSampleAt : Time
  deriving DecidableEq, Repr

/-- A snapshot of one node. -/
structure NodeView where
  id : NodeID
  host : Text
  port : ℕ
  declaredRole : Role
  observedRole : Role
  liveness : Liveness
  systemID : SystemID
  lastProbeAt : Time
  lastProbeErr : Option Text
  replicationLagMs : Option ℤ
  replicationLagState : LagState
  lastLagSampleAt : Time
  livenessMaxAgeMs : ℤ
  observedRoleMaxAgeMs : ℤ
  replicationLagMaxAgeMs : ℤ
  deriving DecidableEq, Repr

/-- The nodes of a cluster, the verified cluster identifier and the maximal ages. -/
structure Topology where
  nodes : Finmap (fun _ : NodeID => NodeState)
  clusterID : SystemID
  livenessMaxAgeMs : ℤ
  observedRoleMaxAgeMs : ℤ
  replicationLagMaxAgeMs : ℤ

/-- Whether a recorded instant lies further back than the maximal age; the zero instant never
does. The age is rounded towards zero. -/
def expired (now recordedAt : Time) (maxAgeMs : ℤ) : Bool :=
  recordedAt != 0 && maxAgeMs < (now - recordedAt).tdiv 1000000

/-- The role a declaration names. -/
def roleFromString (s : Text) : Role :=
  if s = text "primary" then .primary else if s = text "replica" then .replica else .unknown

/-- The snapshot of a node, with expired observations unknown. -/
def Topology.nodeView (t : Topology) (now : Time) (id : NodeID) (ns : NodeState) : NodeView where
  id := id
  host := ns.config.host
  port := ns.config.port
  declaredRole := roleFromString ns.config.declaredRole
  observedRole :=
    if expired now ns.lastProbeAt t.observedRoleMaxAgeMs then .unknown else ns.observedRole
  liveness :=
    if expired now ns.lastProbeAt t.livenessMaxAgeMs then .unknown
    else if ns.permanentlyDown then .down else ns.liveness
  systemID := ns.systemID
  lastProbeAt := ns.lastProbeAt
  lastProbeErr := ns.lastProbeErr
  replicationLagMs := ns.replicationLagMs
  replicationLagState :=
    if ns.replicationLagState = .fresh ∧ expired now ns.lastLagSampleAt t.replicationLagMaxAgeMs
    then .stale else ns.replicationLagState
  lastLagSampleAt := ns.lastLagSampleAt
  livenessMaxAgeMs := t.livenessMaxAgeMs
  observedRoleMaxAgeMs := t.observedRoleMaxAgeMs
  replicationLagMaxAgeMs := t.replicationLagMaxAgeMs

/-- The `Nodes` snapshot, in the order in which the map is visited. -/
def Topology.nodeViews (t : Topology) (now : Time) (order : Range t.nodes) : List NodeView :=
  order.entries.map fun entry => t.nodeView now entry.1 entry.2

/-- The `Node` snapshot of one node. -/
def Topology.node (t : Topology) (now : Time) (id : NodeID) : Option NodeView :=
  (t.nodes.lookup id).map (t.nodeView now id)

/-- The `Primary` search: the only node recorded as primary that is not permanently down. -/
def Topology.primary (t : Topology) (now : Time) (order : Range t.nodes) : Option NodeView :=
  (soleLoop (fun entry => !entry.2.permanentlyDown && entry.2.observedRole == .primary) none
    order.entries).map fun entry => t.nodeView now entry.1 entry.2

/-- The pool of a node. -/
def Topology.poolFor (t : Topology) (id : NodeID) : Except Text PoolID :=
  match t.nodes.lookup id with
  | none => .error (text "node " ++ id ++ text " not found")
  | some ns => .ok ns.pool

/-- The node is declared and permanently down. -/
def Topology.PermanentlyDown (t : Topology) (id : NodeID) : Prop :=
  ∃ ns, t.nodes.lookup id = some ns ∧ ns.permanentlyDown = true

/-- The node is recorded as primary and not permanently down. -/
def Topology.ObservesPrimary (t : Topology) (id : NodeID) : Prop :=
  ∃ ns, t.nodes.lookup id = some ns ∧ ns.permanentlyDown = false ∧ ns.observedRole = .primary

/-- The node is the only one recorded as primary among those that are not permanently down. -/
def Topology.SolePrimary (t : Topology) (id : NodeID) : Prop :=
  t.ObservesPrimary id ∧ ∀ other, t.ObservesPrimary other → other = id

variable {t : Topology}

/-- A snapshot shows a primary exactly when the role is recorded and not expired. -/
theorem Topology.nodeView_primary_iff {now : Time} {id : NodeID} {ns : NodeState} :
    (t.nodeView now id ns).observedRole = .primary ↔
      ns.observedRole = .primary ∧ expired now ns.lastProbeAt t.observedRoleMaxAgeMs = false := by
  cases hexpired : expired now ns.lastProbeAt t.observedRoleMaxAgeMs with
  | false => simp [Topology.nodeView, hexpired]
  | true => simp [Topology.nodeView, hexpired]

/-- The test of the search, as a proposition. -/
theorem primaryTest_iff (ns : NodeState) :
    (!ns.permanentlyDown && ns.observedRole == .primary) = true ↔
      ns.permanentlyDown = false ∧ ns.observedRole = .primary := by
  rw [Bool.and_eq_true, Bool.not_eq_true', beq_iff_eq]

/-- Whatever the order of the search and the clock, it finds the sole primary or nothing. -/
theorem Topology.primary_id (now : Time) (order : Range t.nodes) (id : NodeID) :
    (t.primary now order).map NodeView.id = some id ↔ t.SolePrimary id := by
  rw [Topology.primary, Option.map_map, Option.map_eq_some_iff]
  constructor
  · intro hsearch
    obtain ⟨⟨found, ns⟩, hfound, rfl⟩ := hsearch
    obtain ⟨hlookup, htest, honly⟩ := order.soleLoop_eq_some _ |>.mp hfound
    refine ⟨⟨ns, hlookup, (primaryTest_iff ns).mp htest⟩, ?_⟩
    intro other hother
    obtain ⟨ns', hlookup', hprimary⟩ := hother
    exact honly other ns' hlookup' ((primaryTest_iff ns').mpr hprimary)
  · intro hsole
    obtain ⟨⟨ns, hlookup, hprimary⟩, honly⟩ := hsole
    refine ⟨⟨id, ns⟩, order.soleLoop_eq_some _ |>.mpr ⟨hlookup, ?_, ?_⟩, rfl⟩
    · exact (primaryTest_iff ns).mpr hprimary
    · intro other ns' hlookup' htest
      exact honly other ⟨ns', hlookup', (primaryTest_iff ns').mp htest⟩

/-- The search succeeds exactly when there is a sole primary. -/
theorem Topology.primary_isSome_iff (now : Time) (order : Range t.nodes) :
    (t.primary now order).isSome = true ↔ ∃ id, t.SolePrimary id := by
  rw [Option.isSome_iff_exists]
  constructor
  · intro hsome
    obtain ⟨view, hview⟩ := hsome
    exact ⟨view.id, (Topology.primary_id now order _).mp (by rw [hview, Option.map_some])⟩
  · intro hsole
    obtain ⟨id, hid⟩ := hsole
    obtain ⟨view, hview, -⟩ := Option.map_eq_some_iff.mp ((Topology.primary_id now order id).mpr hid)
    exact ⟨view, hview⟩

end Grunyas.Cluster
