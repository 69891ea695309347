import Grunyas.Cluster.RoleAge
import Grunyas.Probe.Cycle

/-!
# The lag of a primary

A probe reports the role of its node in every cycle, and a lag only in those in which the node is a
replica. The topology records the two apart, and a report of the role leaves the recorded lag as it is.
`primary_lag_iff` says for which reports of the probes a primary has no lag all the same. The reports of
the probes may be interleaved in any way.
-/

namespace Grunyas.Probes

open GoText GoMap Grunyas.Server Grunyas.Cluster Machine

/-- A sink that keeps the reports, in order. Whether an identifier is refused is an input. -/
def logSink (answer : SystemID → Option Text) : Sink (List Report) where
  updateLiveness log _ _ l err := log ++ [.liveness l err]
  updateObservedRole log _ role := log ++ [.observedRole role]
  updateSystemID log _ sid := (answer sid, log ++ [.systemID sid])
  updateLag log _ lagMs sampledAt := log ++ [.lag lagMs sampledAt]
  markLagIdle log _ sampledAt := log ++ [.lagIdle sampledAt]
  markLagUnknown log _ _ sampledAt := log ++ [.lagUnknown sampledAt]

/-- A cycle, and how an identifier is answered in it. -/
structure LoggedCycle where
  cycle : Cycle
  answer : SystemID → Option Text

/-- The next cycle of a probe, with the reports so far. -/
def logStep (m : Probe × List Report) (i : LoggedCycle) : Probe × List Report :=
  m.1.probeOnce (logSink i.answer) m.2 i.cycle

/-- The reports that the probe of a node can have made. The clock does not show the zero time. -/
def ProbeReports (id : NodeID) (reports : List Report) : Prop :=
  ∃ (livenessFailureCount : ℤ) (inputs : List LoggedCycle), (∀ i ∈ inputs, i.cycle.sampledAt ≠ 0) ∧
    reports <+: (run logStep (.new id livenessFailureCount, []) inputs).2

/-- A report that reaches the topology, with the time at which it does. -/
structure SinkReport where
  now : Time
  node : NodeID
  report : Report
  deriving DecidableEq, Repr

/-- The topology after a report. -/
def acceptStep (t : Topology) (r : SinkReport) : Topology := t.accept r.now r.node r.report

/-- The reports about a node. -/
def reportsOf (id : NodeID) (reports : List SinkReport) : List Report :=
  reports.filterMap fun r => if r.node = id then some r.report else none

/-- The reports about a node, with one more before them. -/
theorem reportsOf_cons (id : NodeID) (r : SinkReport) (rest : List SinkReport) :
    reportsOf id (r :: rest) = if r.node = id then r.report :: reportsOf id rest else reportsOf id rest := by
  unfold reportsOf
  split_ifs with hid
  · exact List.filterMap_cons_some (if_pos hid)
  · exact List.filterMap_cons_none (if_neg hid)

/-- A node that is recorded as a primary has no lag. -/
def LagFollowsRole (t : Topology) (id : NodeID) : Prop :=
  ∀ ns, t.nodes.lookup id = some ns → ns.observedRole = .primary →
    ns.replicationLagState = .notApplicable ∧ ns.replicationLagMs = none

/-- A lag that a snapshot shows as fresh is known, and its sample within the maximal age. -/
def FreshLagCurrent (t : Topology) (id : NodeID) : Prop :=
  ∀ now view, t.node now id = some view → view.replicationLagState = .fresh →
    (∃ lagMs, view.replicationLagMs = some lagMs) ∧
      ageMs now view.lastLagSampleAt ≤ t.replicationLagMaxAgeMs

/-- A node that is reported to be a primary has not had its lag reported. -/
def PromotesUnsampled (t : Topology) (r : SinkReport) : Prop :=
  r.report = .observedRole .primary →
    ∀ ns, t.nodes.lookup r.node = some ns → ns.replicationLagState = .notApplicable

/-- The time of the sample, of a report about the lag. -/
def lagSample : Report → Option Time
  | .lag _ sampledAt => some sampledAt
  | .lagIdle sampledAt => some sampledAt
  | .lagUnknown sampledAt => some sampledAt
  | _ => none

/-- The role that was reported last. -/
def roleStep (last : Option Role) : Report → Option Role
  | .observedRole role => some role
  | _ => last

/-- A report about the lag is one about a replica. -/
def OfReplica (last : Option Role) (report : Report) : Prop :=
  ∀ sampledAt ∈ lagSample report, last = some .replica ∧ sampledAt ≠ 0

/-- The reports about the lag are about a replica, by the roles that were reported. -/
def LagsOfReplicas (log : List Report) : Prop := Throughout roleStep OfReplica none log

/-- One more report. -/
theorem lagsOfReplicas_concat {log : List Report} {report : Report} :
    LagsOfReplicas (log ++ [report]) ↔ LagsOfReplicas log ∧ OfReplica (run roleStep none log) report := by
  rw [LagsOfReplicas, throughout_append]
  simp [Throughout, LagsOfReplicas]

/-- A report that is not about the lag may follow any role. -/
theorem LagsOfReplicas.concat {log : List Report} (h : LagsOfReplicas log) {report : Report}
    (hreport : lagSample report = none) : LagsOfReplicas (log ++ [report]) :=
  lagsOfReplicas_concat.mpr ⟨h, by simp [OfReplica, hreport]⟩

/-- The lag may follow the role of a replica. -/
theorem LagsOfReplicas.reportLag {log : List Report} (h : LagsOfReplicas log)
    (hlast : run roleStep none log = some .replica) (p : Probe) (answer : SystemID → Option Text)
    {c : Cycle} (hsampled : c.sampledAt ≠ 0) : LagsOfReplicas (p.reportLag (logSink answer) log c) := by
  unfold Probe.reportLag
  rcases fetchLag c with err | _ | lagMs
  all_goals
    refine lagsOfReplicas_concat.mpr ⟨h, ?_⟩
    simp [OfReplica, lagSample, hlast, hsampled]

/-- A cycle reports the lag of a replica only. -/
theorem LagsOfReplicas.probeOnce {log : List Report} (h : LagsOfReplicas log) (p : Probe)
    (answer : SystemID → Option Text) {c : Cycle} (hsampled : c.sampledAt ≠ 0) :
    LagsOfReplicas (p.probeOnce (logSink answer) log c).2 := by
  unfold Probe.probeOnce
  rcases p.getOrOpenConn c with ⟨_ | err, p'⟩
  · cases c.ping with
    | some err => exact h.concat rfl
    | none =>
      cases fetchRole c with
      | error err => exact h.concat rfl
      | ok role =>
        have hrole : LagsOfReplicas (log ++ [.observedRole role]) := h.concat rfl
        cases fetchSystemID c with
        | error err => exact hrole.concat rfl
        | ok sid =>
          have hsid : LagsOfReplicas (log ++ [.observedRole role] ++ [.systemID sid]) := hrole.concat rfl
          dsimp only
          split
          next err s hanswer =>
            obtain ⟨-, rfl⟩ := Prod.mk.inj hanswer
            exact hsid.concat rfl
          next s hanswer =>
            obtain ⟨-, rfl⟩ := Prod.mk.inj hanswer
            refine LagsOfReplicas.concat ?_ rfl
            split_ifs with hreplica
            · refine hsid.reportLag ?_ p' answer hsampled
              simp [run, roleStep, hreplica]
            · exact hsid
  · exact h.concat rfl

/-- Whatever a probe has reported, the lags are those of a replica. -/
theorem ProbeReports.lagsOfReplicas {id : NodeID} {reports : List Report} (h : ProbeReports id reports) :
    LagsOfReplicas reports := by
  obtain ⟨livenessFailureCount, inputs, hsampled, rest, hrest⟩ := h
  have hall : LagsOfReplicas (run logStep (.new id livenessFailureCount, []) inputs).2 := by
    refine run_invariant (I := fun m : Probe × List Report => LagsOfReplicas m.2) ?_ trivial
      (throughout_of_forall hsampled)
    intro m i hm hi
    exact hm.probeOnce m.1 i.answer hi
  rw [← hrest] at hall
  exact ((throughout_append _ _).mp hall).1

/-- A report about the lag finds a replica. -/
def FindsReplica (t : Topology) (r : SinkReport) : Prop :=
  ∀ sampledAt ∈ lagSample r.report,
    (∀ ns, t.nodes.lookup r.node = some ns → ns.observedRole = .replica) ∧ sampledAt ≠ 0

/-- What the probes report one by one, the topology receives in any order. -/
theorem findsReplica_of_lagsOfReplicas {t : Topology} (last : NodeID → Option Role)
    (hroles : ∀ id ns, t.nodes.lookup id = some ns → ns.observedRole = (last id).getD .unknown)
    (reports : List SinkReport)
    (h : ∀ id, Throughout roleStep OfReplica (last id) (reportsOf id reports)) :
    Throughout acceptStep FindsReplica t reports := by
  induction reports generalizing t last with
  | nil => trivial
  | cons r rest ih =>
    have hfirst := h r.node
    rw [reportsOf_cons, if_pos rfl] at hfirst
    refine ⟨fun sampledAt hsample => ?_, ?_⟩
    · obtain ⟨hreplica, hsampled⟩ := hfirst.1 sampledAt hsample
      refine ⟨fun ns hlookup => ?_, hsampled⟩
      rw [hroles r.node ns hlookup, hreplica]
      rfl
    · refine ih (fun id => if id = r.node then roleStep (last id) r.report else last id) ?_ ?_
      · intro id ns hlookup
        rw [acceptStep, Topology.lookup_accept] at hlookup
        split_ifs at hlookup ⊢ with hid
        · obtain ⟨ns, hns, rfl⟩ := Option.map_eq_some_iff.mp hlookup
          rw [Report.apply_observedRole]
          cases r.report <;> first | rfl | exact hroles id ns hns
        · exact hroles id ns hlookup
      · intro id
        by_cases hid : id = r.node
        · subst hid
          rw [if_pos rfl]
          exact hfirst.2
        · have hrest := h id
          rw [reportsOf_cons, if_neg (Ne.symm hid)] at hrest
          rwa [if_neg hid]

/-- What is recorded of the lag of a node: a fresh one with its sample, and none where none applies. -/
structure Sampled (ns : NodeState) : Prop where
  fresh : ns.replicationLagState = .fresh → ns.replicationLagMs ≠ none ∧ ns.lastLagSampleAt ≠ 0
  unsampled : ns.replicationLagState = .notApplicable → ns.replicationLagMs = none

/-- A report keeps the record. -/
theorem Sampled.apply {ns : NodeState} (h : Sampled ns) (clusterID : SystemID)
    (now : Time) {report : Report} (hsample : ∀ sampledAt ∈ lagSample report, sampledAt ≠ 0) :
    Sampled (report.apply clusterID now ns) := by
  cases report with
  | liveness l err =>
    simp only [Report.apply, NodeState.updateLiveness]
    split_ifs
    · exact h
    · exact ⟨h.fresh, h.unsampled⟩
    · exact ⟨h.fresh, h.unsampled⟩
  | systemID sid =>
    simp only [Report.apply]
    split_ifs
    · exact ⟨h.fresh, h.unsampled⟩
    · exact ⟨h.fresh, h.unsampled⟩
  | observedRole role => exact ⟨h.fresh, h.unsampled⟩
  | lag lagMs sampledAt =>
    refine ⟨fun _ => ⟨by simp [Report.apply], hsample sampledAt rfl⟩, fun h => ?_⟩
    cases h
  | lagIdle sampledAt => exact ⟨(fun h => by cases h), (fun h => by cases h)⟩
  | lagUnknown sampledAt => exact ⟨(fun h => by cases h), (fun h => by cases h)⟩

/-- A snapshot shows a lag as fresh only within the maximal age of its sample. -/
theorem freshLagCurrent_of_sampled {t : Topology} {id : NodeID}
    (h : ∀ ns, t.nodes.lookup id = some ns → Sampled ns) : FreshLagCurrent t id := by
  intro now view hview hfresh
  obtain ⟨ns, hlookup, rfl⟩ := Option.map_eq_some_iff.mp hview
  simp only [Topology.nodeView] at hfresh ⊢
  split_ifs at hfresh with hstale
  obtain ⟨hknown, hsampled⟩ := (h ns hlookup).fresh hfresh
  refine ⟨Option.ne_none_iff_exists'.mp hknown, ?_⟩
  by_contra hold
  refine hstale ⟨hfresh, ?_⟩
  simp [expired, hsampled, ageMs] at hold ⊢
  exact hold

/-- The role and the lag of the nodes agree, and the lags are recorded with their samples. -/
def Coupled (t : Topology) : Prop :=
  ∀ id ns, t.nodes.lookup id = some ns →
    Sampled ns ∧ (ns.observedRole = .primary → ns.replicationLagState = .notApplicable)

/-- The lags stay recorded with their samples, whatever the probes report. -/
theorem Coupled.sampled_step {t : Topology} (h : Coupled t) {r : SinkReport} (hr : FindsReplica t r)
    {id : NodeID} {ns : NodeState} (hlookup : (acceptStep t r).nodes.lookup id = some ns) : Sampled ns := by
  rw [acceptStep, Topology.lookup_accept] at hlookup
  split_ifs at hlookup
  · obtain ⟨ns, hns, rfl⟩ := Option.map_eq_some_iff.mp hlookup
    exact (h id ns hns).1.apply _ _ fun sampledAt hsample => (hr sampledAt hsample).2
  · exact (h id ns hlookup).1

/-- The state of the lag of a node after a report about it that is not about the lag. -/
theorem replicationLagState_apply {report : Report} (h : lagSample report = none) (clusterID : SystemID)
    (now : Time) (ns : NodeState) :
    (report.apply clusterID now ns).replicationLagState = ns.replicationLagState := by
  cases report with
  | liveness l err =>
    simp only [Report.apply, NodeState.updateLiveness]
    split_ifs <;> rfl
  | systemID sid =>
    simp only [Report.apply]
    split_ifs <;> rfl
  | observedRole role => rfl
  | lag lagMs sampledAt => cases h
  | lagIdle sampledAt => cases h
  | lagUnknown sampledAt => cases h

/-- A report keeps role and lag in agreement exactly if it does not make a primary of a node whose lag
was reported. -/
theorem Coupled.step_iff {t : Topology} (h : Coupled t) {r : SinkReport} (hr : FindsReplica t r) :
    (∀ id, LagFollowsRole (acceptStep t r) id ∧ FreshLagCurrent (acceptStep t r) id) ↔
      PromotesUnsampled t r := by
  constructor
  · intro hafter hpromotes ns hlookup
    have hlookup' : (acceptStep t r).nodes.lookup r.node = some { ns with observedRole := .primary } := by
      rw [acceptStep, Topology.lookup_accept, if_pos rfl, hlookup, hpromotes]
      rfl
    exact ((hafter r.node).1 _ hlookup' rfl).1
  · intro hpromotes id
    refine ⟨fun ns hlookup hprimary => ?_, freshLagCurrent_of_sampled fun ns => h.sampled_step hr⟩
    have hsampled := h.sampled_step hr hlookup
    suffices hstate : ns.replicationLagState = .notApplicable from ⟨hstate, hsampled.unsampled hstate⟩
    rw [acceptStep, Topology.lookup_accept] at hlookup
    split_ifs at hlookup with hid
    · subst hid
      obtain ⟨ns, hns, rfl⟩ := Option.map_eq_some_iff.mp hlookup
      rw [Report.apply_observedRole] at hprimary
      cases hsample : lagSample r.report with
      | some sampledAt =>
        -- The node is a replica, and the report does not change its role.
        have hreplica := (hr sampledAt hsample).1 ns hns
        cases hreport : r.report <;> rw [hreport] at hprimary hsample <;>
          first | cases hsample; done | (rw [hreplica] at hprimary; cases hprimary)
      | none =>
        rw [replicationLagState_apply hsample]
        cases hreport : r.report with
        | observedRole role =>
          rw [hreport] at hprimary
          exact hpromotes (hreport.trans (congrArg _ hprimary)) ns hns
        | _ =>
          rw [hreport] at hprimary
          exact (h r.node ns hns).2 hprimary
    · exact (h id ns hlookup).2 hprimary

/-- For all reports of the probes, in any interleaving: after every report, a node that is recorded as a
primary has no lag, and a lag that is shown as fresh is known and not too old, exactly if no report makes
a primary of a node whose lag was reported before. -/
theorem primary_lag_iff (cfg : ProbeConfig) (specs : List NodeSpec) (reports : List SinkReport)
    (hprobes : ∀ id, ProbeReports id (reportsOf id reports)) :
    Throughout acceptStep
        (fun t r => ∀ id, LagFollowsRole (acceptStep t r) id ∧ FreshLagCurrent (acceptStep t r) id)
        (newTopology cfg specs) reports ↔
      Throughout acceptStep PromotesUnsampled (newTopology cfg specs) reports := by
  have hnew (id : NodeID) (ns : NodeState) (hlookup : (newTopology cfg specs).nodes.lookup id = some ns) :
      ∃ spec, ns = .new spec := lookup_newTopology hlookup
  have hfinds : Throughout acceptStep FindsReplica (newTopology cfg specs) reports := by
    refine findsReplica_of_lagsOfReplicas (fun _ => none) (fun id ns hlookup => ?_) reports fun id =>
      (hprobes id).lagsOfReplicas
    obtain ⟨spec, rfl⟩ := hnew id ns hlookup
    rfl
  refine throughout_congr_of_admissible (I := Coupled) ?_ ?_ ?_ hfinds
  · intro t r ht hr hafter id ns hlookup
    exact ⟨ht.sampled_step hr hlookup, fun hprimary => ((hafter id).1 ns hlookup hprimary).1⟩
  · intro t r ht hr
    exact ht.step_iff hr
  · intro id ns hlookup
    obtain ⟨spec, rfl⟩ := hnew id ns hlookup
    exact ⟨⟨(fun h => by cases h), fun _ => rfl⟩, fun _ => rfl⟩

/-- A cycle of a node that answers everything, with a lag of five milliseconds if it is a replica. -/
def answers (inRecovery : Bool) (now : Time) : LoggedCycle where
  cycle :=
    { alive := true
      connect := none
      ping := none
      inRecovery := .ok inRecovery
      systemIdentifier := .ok (text "7")
      lag := .ok (some 5, some now)
      sampledAt := now
      now := now }
  answer _ := none

/-- The reports of the probe of a node. -/
def timed (id : NodeID) (now : Time) (reports : List Report) : List SinkReport :=
  reports.map fun report => ⟨now, id, report⟩

/-- The reports of a node that is a replica first and is promoted then. -/
def promotion : List SinkReport :=
  timed (text "a") 1
    [.observedRole .replica, .systemID (text "7"), .lag 5 1, .liveness .up none, .observedRole .primary]

/-- The probes can report a promotion. -/
theorem probeReports_promotion (id : NodeID) : ProbeReports id (reportsOf id promotion) := by
  by_cases hid : text "a" = id
  · subst hid
    refine ⟨3, [answers true 1, answers false 1], by simp [answers], ?_⟩
    decide
  · refine ⟨3, [], by simp, ?_⟩
    simp [promotion, timed, reportsOf, hid]

/-- A node that was promoted is a primary with a fresh lag of five milliseconds. -/
theorem promoted_node_lags :
    let t := newTopology ⟨1000, 0, 0, 0⟩ [⟨text "a", ⟨text "db", 5432, text "replica"⟩, 0⟩]
    (∀ id, ProbeReports id (reportsOf id promotion)) ∧
      ((run acceptStep t promotion).node 2 (text "a")).map
        (fun view => (view.observedRole, view.replicationLagState, view.replicationLagMs)) =
          some (.primary, .fresh, some 5) :=
  ⟨probeReports_promotion, by decide⟩

/-- What it takes for role and lag to agree in the reports of a promotion. -/
theorem primary_lag_iff_promotion :
    let t := newTopology ⟨1000, 0, 0, 0⟩ [⟨text "a", ⟨text "db", 5432, text "replica"⟩, 0⟩]
    Throughout acceptStep
        (fun t r => ∀ id, LagFollowsRole (acceptStep t r) id ∧ FreshLagCurrent (acceptStep t r) id)
        t promotion ↔
      Throughout acceptStep PromotesUnsampled t promotion :=
  primary_lag_iff _ _ _ probeReports_promotion

end Grunyas.Probes
