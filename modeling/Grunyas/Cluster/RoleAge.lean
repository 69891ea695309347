import Grunyas.Cluster.Probes
import Grunyas.Machine.Run

/-!
# The age of an observed role

A snapshot shows a role as unknown once it is too old. Its age is taken from the end of the last
probe cycle, which is recorded for failed cycles as well, and not from the observation of the role.
What the topology records of a node is read off the reports here, the latest first
(`Topology.lookup_after`). `roles_expire_iff` says for which reports the two ages agree.
-/

namespace Grunyas.Cluster

open GoText GoMap Grunyas.Server Machine

/-- A report of a probe about a node, with its time. -/
structure Update where
  now : Time
  node : NodeID
  report : Report
  deriving DecidableEq, Repr

/-- The topology after reports, the latest first. -/
def Topology.after (t : Topology) (history : List Update) : Topology :=
  history.foldr (fun u t => t.accept u.now u.node u.report) t

/-- The identifier of the cluster: the first one that is reported of a declared node stays, unless it
is empty. -/
def Topology.identifiedAs (t : Topology) : List Update → SystemID
  | [] => t.clusterID
  | u :: earlier =>
    match u.report with
    | .systemID sid =>
      if t.identifiedAs earlier = [] ∧ (t.nodes.lookup u.node).isSome then sid
      else t.identifiedAs earlier
    | _ => t.identifiedAs earlier

/-- Whether another identifier than the one of the cluster was reported of a node. -/
def Topology.foundForeign (t : Topology) (id : NodeID) : List Update → Bool
  | [] => ((t.nodes.lookup id).map NodeState.permanentlyDown).getD false
  | u :: earlier =>
    t.foundForeign id earlier ||
      match u.report with
      | .systemID sid =>
        u.node == id && t.identifiedAs earlier != [] && sid != t.identifiedAs earlier
      | _ => false

/-- The time of the last report on the liveness of a node. That a foreign node is up does not count. -/
def Topology.lastProbe (t : Topology) (id : NodeID) : List Update → Time
  | [] => ((t.nodes.lookup id).map NodeState.lastProbeAt).getD 0
  | u :: earlier =>
    match u.report with
    | .liveness l _ =>
      if u.node = id ∧ ¬(l = .up ∧ t.foundForeign id earlier = true) then u.now
      else t.lastProbe id earlier
    | _ => t.lastProbe id earlier

/-- The role that a report gives a node, with its time. -/
def Update.roleOf (u : Update) (id : NodeID) : Option (Role × Time) :=
  match u.report with
  | .observedRole role => if u.node = id then some (role, u.now) else none
  | _ => none

/-- The role reported last for a node, with the time of the report. -/
def lastSeen (id : NodeID) (history : List Update) : Option (Role × Time) :=
  history.findSome? fun u => u.roleOf id

/-- The role reported last for a node, or else the recorded one. -/
def Topology.lastRole (t : Topology) (id : NodeID) (history : List Update) : Role :=
  ((lastSeen id history).map Prod.fst).getD
    (((t.nodes.lookup id).map NodeState.observedRole).getD .unknown)

/-- Reports one after the other. -/
theorem Topology.after_append (t : Topology) (later earlier : List Update) :
    t.after (later ++ earlier) = (t.after earlier).after later := List.foldr_append

/-- Reports change nodes and the identifier of the cluster only. -/
theorem Topology.observedRoleMaxAgeMs_accept (t : Topology) (now : Time) (id : NodeID)
    (report : Report) : (t.accept now id report).observedRoleMaxAgeMs = t.observedRoleMaxAgeMs := by
  have hupdate (t : Topology) (f : NodeState → NodeState) :
      (t.update id f).observedRoleMaxAgeMs = t.observedRoleMaxAgeMs := by
    unfold Topology.update
    split <;> rfl
  cases report with
  | systemID sid =>
    simp only [Topology.accept, Topology.updateSystemID]
    split
    · rfl
    · split_ifs <;> exact hupdate _ _
  | _ => exact hupdate _ _

/-- Reports leave the maximal age of a role alone. -/
theorem Topology.observedRoleMaxAgeMs_after (t : Topology) (history : List Update) :
    (t.after history).observedRoleMaxAgeMs = t.observedRoleMaxAgeMs := by
  induction history with
  | nil => rfl
  | cons u earlier ih => exact (Topology.observedRoleMaxAgeMs_accept _ _ _ _).trans ih

/-- Reports neither declare a node nor remove one. -/
theorem Topology.isSome_lookup_after (t : Topology) (history : List Update) (id : NodeID) :
    ((t.after history).nodes.lookup id).isSome = (t.nodes.lookup id).isSome := by
  induction history with
  | nil => rfl
  | cons u earlier ih =>
    rw [← ih, Topology.after, List.foldr_cons, Topology.lookup_accept]
    split_ifs
    · rw [Option.isSome_map]
      rfl
    · rfl

/-- The identifier of the cluster after a report. -/
theorem Topology.clusterID_accept (t : Topology) (now : Time) (id : NodeID) (report : Report) :
    (t.accept now id report).clusterID =
      match report with
      | .systemID sid =>
        if t.clusterID = [] ∧ (t.nodes.lookup id).isSome then sid else t.clusterID
      | _ => t.clusterID := by
  cases report with
  | systemID sid =>
    simp only [Topology.accept, Topology.updateSystemID]
    cases t.nodes.lookup id with
    | none => simp
    | some ns =>
      dsimp only
      split_ifs <;> simp_all
  | _ => exact Topology.clusterID_update _ _ _

/-- The topology has the identifier of the reports. -/
theorem Topology.clusterID_after (t : Topology) (history : List Update) :
    (t.after history).clusterID = t.identifiedAs history := by
  induction history with
  | nil => rfl
  | cons u earlier ih =>
    have hdeclared := t.isSome_lookup_after earlier u.node
    have hstep := (t.after earlier).clusterID_accept u.now u.node u.report
    rw [ih, hdeclared] at hstep
    exact hstep

/-- The role of a node after a report about it. -/
theorem Report.apply_observedRole (clusterID : SystemID) (now : Time) (ns : NodeState)
    (report : Report) :
    (report.apply clusterID now ns).observedRole =
      match report with
      | .observedRole role => role
      | _ => ns.observedRole := by
  cases report with
  | liveness l err =>
    simp only [Report.apply, NodeState.updateLiveness]
    split_ifs <;> rfl
  | systemID sid =>
    simp only [Report.apply]
    split_ifs <;> rfl
  | _ => rfl

/-- The end of the last probe cycle of a node after a report about it. -/
theorem Report.apply_lastProbeAt (clusterID : SystemID) (now : Time) (ns : NodeState)
    (report : Report) :
    (report.apply clusterID now ns).lastProbeAt =
      match report with
      | .liveness l _ => if l = .up ∧ ns.permanentlyDown = true then ns.lastProbeAt else now
      | _ => ns.lastProbeAt := by
  cases report with
  | liveness l err =>
    simp only [Report.apply, NodeState.updateLiveness]
    split_ifs <;> simp_all
  | systemID sid =>
    simp only [Report.apply]
    split_ifs <;> rfl
  | _ => rfl

/-- The mark of a node after a report about it. -/
theorem Report.apply_permanentlyDown (clusterID : SystemID) (now : Time) (ns : NodeState)
    (report : Report) :
    (report.apply clusterID now ns).permanentlyDown =
      (ns.permanentlyDown ||
        match report with
        | .systemID sid => clusterID != [] && sid != clusterID
        | _ => false) := by
  cases report with
  | liveness l err =>
    simp only [Report.apply, NodeState.updateLiveness]
    split_ifs <;> simp
  | systemID sid =>
    simp only [Report.apply]
    split_ifs with hsame
    · obtain hnew | hsame := hsame <;> simp_all
    · simp_all
  | _ => simp [Report.apply]

/-- What is recorded of a node can be read off the reports. -/
theorem Topology.lookup_after {t : Topology} {id : NodeID} {ns : NodeState}
    (hlookup : t.nodes.lookup id = some ns) (history : List Update) :
    ∃ later, (t.after history).nodes.lookup id = some later ∧
      later.observedRole = t.lastRole id history ∧ later.lastProbeAt = t.lastProbe id history ∧
      later.permanentlyDown = t.foundForeign id history := by
  induction history with
  | nil =>
    refine ⟨ns, hlookup, ?_⟩
    simp [Topology.lastRole, lastSeen, Topology.lastProbe, Topology.foundForeign, hlookup]
  | cons u earlier ih =>
    obtain ⟨later, hlater, hrole, hprobe, hforeign⟩ := ih
    have hstep := (t.after earlier).lookup_accept u.now u.node id u.report
    rw [hlater, t.clusterID_after] at hstep
    by_cases hid : id = u.node
    · rw [if_pos hid, Option.map_some] at hstep
      refine ⟨_, hstep, ?_, ?_, ?_⟩
      · rw [Report.apply_observedRole, hrole]
        cases hreport : u.report <;>
          simp [Topology.lastRole, lastSeen, Update.roleOf, hreport, hid]
      · rw [Report.apply_lastProbeAt, hprobe, hforeign]
        cases hreport : u.report <;> simp only [Topology.lastProbe, hreport, hid, true_and, ite_not]
      · rw [Report.apply_permanentlyDown, hforeign]
        cases hreport : u.report <;> simp [Topology.foundForeign, hreport, hid]
    · rw [if_neg hid] at hstep
      have hother : u.node ≠ id := fun h => hid h.symm
      refine ⟨later, hstep, ?_, ?_, ?_⟩
      · rw [hrole]
        cases hreport : u.report <;>
          simp [Topology.lastRole, lastSeen, Update.roleOf, hreport, hother]
      · rw [hprobe]
        cases hreport : u.report <;> simp [Topology.lastProbe, hreport, hother]
      · rw [hforeign]
        cases hreport : u.report <;> simp [Topology.foundForeign, hreport, hother]

/-- A report about a node, with the nanoseconds since the report before it. -/
structure SinkCall where
  elapsed : ℕ
  node : NodeID
  report : Report
  deriving DecidableEq, Repr

/-- The topology with the clock and the reports, the latest first. -/
structure Probed where
  topo : Topology
  now : Time
  history : List Update

/-- The topology after a report. -/
def sinkStep (w : Probed) (call : SinkCall) : Probed where
  topo := w.topo.accept (w.now + call.elapsed) call.node call.report
  now := w.now + call.elapsed
  history := ⟨w.now + call.elapsed, call.node, call.report⟩ :: w.history

/-- The topology before the first report. -/
def probing (t : Topology) (now : Time) : Probed := ⟨t, now, []⟩

/-- The age of an observation in whole milliseconds. -/
def ageMs (now seenAt : Time) : ℤ := (now - seenAt).tdiv 1000000

/-- A role that a snapshot shows was reported within the maximal age. -/
def RoleCurrent (w : Probed) (now : Time) (id : NodeID) : Prop :=
  ∀ view, w.topo.node now id = some view → view.observedRole ≠ .unknown →
    ∃ u ∈ w.history, u.node = id ∧ u.report = .observedRole view.observedRole ∧
      ageMs now u.now ≤ w.topo.observedRoleMaxAgeMs

/-- If the last report of a known role is too old, so is the last report on the liveness. -/
def ProbedWithRole (t : Topology) (history : List Update) (now : Time) (id : NodeID) : Prop :=
  (t.nodes.lookup id).isSome → ∀ role seenAt, lastSeen id history = some (role, seenAt) →
    role ≠ .unknown → t.observedRoleMaxAgeMs < ageMs now seenAt →
      t.lastProbe id history ≠ 0 ∧ t.observedRoleMaxAgeMs < ageMs now (t.lastProbe id history)

/-- The topology is what the reports have made of it, and the reports are in order. -/
structure Recorded (t : Topology) (w : Probed) : Prop where
  topo : w.topo = t.after w.history
  past : ∀ u ∈ w.history, u.now ≤ w.now
  ordered : w.history.Pairwise fun later earlier => earlier.now ≤ later.now

/-- Every report keeps the record. -/
theorem recorded_step {t : Topology} (w : Probed) (call : SinkCall) (hw : Recorded t w) :
    Recorded t (sinkStep w call) := by
  have hlater : w.now ≤ w.now + (call.elapsed : ℤ) :=
    Int.le_add_of_nonneg_right (Int.natCast_nonneg _)
  refine ⟨?_, ?_, ?_⟩
  · rw [sinkStep, hw.topo]
    rfl
  · intro u hu
    obtain rfl | hu := List.mem_cons.mp hu
    · exact le_rfl
    · exact (hw.past u hu).trans hlater
  · refine List.pairwise_cons.mpr ⟨fun u hu => ?_, hw.ordered⟩
    exact (hw.past u hu).trans hlater

/-- The report that is read. -/
theorem roleOf_eq_some_iff {u : Update} {id : NodeID} {role : Role} {seenAt : Time} :
    u.roleOf id = some (role, seenAt) ↔
      u.node = id ∧ u.report = .observedRole role ∧ u.now = seenAt := by
  unfold Update.roleOf
  cases u.report <;> simp

/-- The last report of a role is one of the reports. -/
theorem exists_of_lastSeen {id : NodeID} {history : List Update} {role : Role} {seenAt : Time}
    (h : lastSeen id history = some (role, seenAt)) :
    ∃ u ∈ history, u.node = id ∧ u.report = .observedRole role ∧ u.now = seenAt := by
  obtain ⟨u, hu, hrole⟩ := List.exists_of_findSome?_eq_some h
  exact ⟨u, hu, roleOf_eq_some_iff.mp hrole⟩

/-- The last report of a role is no older than any other. -/
theorem le_lastSeen {id : NodeID} {history : List Update}
    (hordered : history.Pairwise fun later earlier => earlier.now ≤ later.now) {u : Update}
    (hu : u ∈ history) {role : Role} (hnode : u.node = id) (hreport : u.report = .observedRole role) :
    ∃ last seenAt, lastSeen id history = some (last, seenAt) ∧ u.now ≤ seenAt := by
  induction history with
  | nil => cases hu
  | cons first earlier ih =>
    obtain ⟨hfirst, hearlier⟩ := List.pairwise_cons.mp hordered
    rw [lastSeen, List.findSome?_cons]
    cases hrole : first.roleOf id with
    | some seen =>
      obtain ⟨last, seenAt⟩ := seen
      obtain ⟨-, -, rfl⟩ := roleOf_eq_some_iff.mp hrole
      refine ⟨last, first.now, rfl, ?_⟩
      obtain rfl | hu := List.mem_cons.mp hu
      · exact le_rfl
      · exact hfirst u hu
    | none =>
      obtain rfl | hu := List.mem_cons.mp hu
      · rw [roleOf_eq_some_iff.mpr ⟨hnode, hreport, rfl⟩] at hrole
        cases hrole
      · exact ih hearlier hu

/-- Observations made later are younger. -/
theorem ageMs_le (now : Time) {earlier later : Time} (h : earlier ≤ later) :
    ageMs now later ≤ ageMs now earlier :=
  Int.tdiv_le_tdiv (by decide) (Int.sub_le_sub_left h now)

/-- A recorded instant is expired if it is not zero and too old. -/
theorem expired_iff {now recordedAt : Time} {maxAgeMs : ℤ} :
    expired now recordedAt maxAgeMs = true ↔ recordedAt ≠ 0 ∧ maxAgeMs < ageMs now recordedAt := by
  rw [expired, Bool.and_eq_true, bne_iff_ne, decide_eq_true_iff]
  rfl

/-- The role that a reading after reports shows. -/
theorem Topology.node_after {t : Topology} {id : NodeID} {ns : NodeState}
    (hlookup : t.nodes.lookup id = some ns) (history : List Update) (now : Time) :
    ((t.after history).node now id).map NodeView.observedRole =
      some (if expired now (t.lastProbe id history) t.observedRoleMaxAgeMs then .unknown
        else t.lastRole id history) := by
  obtain ⟨later, hlater, hrole, hprobe, -⟩ := Topology.lookup_after hlookup history
  rw [Topology.node, hlater, Option.map_some, Option.map_some, ← hrole, ← hprobe,
    ← t.observedRoleMaxAgeMs_after history]
  rfl

/-- Before its first probe a node has no role. -/
theorem lastRole_newTopology (cfg : ProbeConfig) (specs : List NodeSpec) (id : NodeID)
    (history : List Update) :
    (newTopology cfg specs).lastRole id history =
      ((lastSeen id history).map Prod.fst).getD .unknown := by
  rw [Topology.lastRole]
  cases hlookup : (newTopology cfg specs).nodes.lookup id with
  | none => rfl
  | some ns =>
    obtain ⟨spec, rfl⟩ := lookup_newTopology hlookup
    rfl

/-- What it takes for a shown role to be current: the record is expired, or the role reported last is
unknown or was reported in time. -/
theorem roleCurrent_iff_reported {cfg : ProbeConfig} {specs : List NodeSpec} {w : Probed}
    (hw : Recorded (newTopology cfg specs) w) {now : Time} {id : NodeID} {ns : NodeState}
    (hlookup : (newTopology cfg specs).nodes.lookup id = some ns) :
    RoleCurrent w now id ↔
      (expired now ((newTopology cfg specs).lastProbe id w.history) w.topo.observedRoleMaxAgeMs = false →
        ∀ role seenAt, lastSeen id w.history = some (role, seenAt) → role ≠ .unknown →
          ∃ u ∈ w.history, u.node = id ∧ u.report = .observedRole role ∧
            ageMs now u.now ≤ w.topo.observedRoleMaxAgeMs) := by
  have hshown := Topology.node_after hlookup w.history now
  have hmax := (newTopology cfg specs).observedRoleMaxAgeMs_after w.history
  rw [← hw.topo] at hshown hmax
  rw [← hmax, lastRole_newTopology] at hshown
  obtain ⟨view, hview, hrole⟩ := Option.map_eq_some_iff.mp hshown
  constructor
  · intro hcurrent hfresh role seenAt hlast hknown
    have hshows : view.observedRole = role := by simpa [hfresh, hlast] using hrole
    obtain ⟨u, hu, hnode, hreport, hage⟩ := hcurrent view hview (hshows ▸ hknown)
    exact ⟨u, hu, hnode, hshows ▸ hreport, hage⟩
  · intro hreported other hother hknown
    obtain rfl : view = other := Option.some.inj (hview.symm.trans hother)
    cases hexpired : expired now ((newTopology cfg specs).lastProbe id w.history)
        w.topo.observedRoleMaxAgeMs with
    | true => exact absurd (by simpa [hexpired] using hrole) hknown
    | false =>
      cases hlast : lastSeen id w.history with
      | none => exact absurd (by simpa [hexpired, hlast] using hrole) hknown
      | some seen =>
        have hshows : view.observedRole = seen.1 := by simpa [hexpired, hlast] using hrole
        rw [hshows] at hknown ⊢
        exact hreported hexpired seen.1 seen.2 hlast hknown

/-- With the reports on record, a snapshot shows a current role exactly if the last report on the
liveness is too old wherever the last report of the role is. -/
theorem roleCurrent_iff {cfg : ProbeConfig} {specs : List NodeSpec} {w : Probed}
    (hw : Recorded (newTopology cfg specs) w) (now : Time) (id : NodeID) :
    RoleCurrent w now id ↔ ProbedWithRole (newTopology cfg specs) w.history now id := by
  have hmax := (newTopology cfg specs).observedRoleMaxAgeMs_after w.history
  have hdeclared := (newTopology cfg specs).isSome_lookup_after w.history id
  rw [← hw.topo] at hmax hdeclared
  cases hlookup : (newTopology cfg specs).nodes.lookup id with
  | none =>
    rw [hlookup] at hdeclared
    have hnone : w.topo.node now id = none := by
      have hgone : w.topo.nodes.lookup id = none := by simpa using hdeclared
      rw [Topology.node, hgone, Option.map_none]
    refine iff_of_true (fun view hview => ?_) (fun hsome => ?_)
    · rw [hnone] at hview
      cases hview
    · rw [hlookup] at hsome
      cases hsome
  | some ns =>
    rw [roleCurrent_iff_reported hw hlookup, ProbedWithRole, hlookup]
    constructor
    · intro hreported _ role seenAt hlast hknown hold
      rw [← expired_iff]
      by_contra hfresh
      rw [← hmax] at hfresh
      obtain ⟨u, hu, hnode, hreport, hage⟩ :=
        hreported (Bool.not_eq_true _ ▸ hfresh) role seenAt hlast hknown
      obtain ⟨last, lastAt, hlast', hle⟩ := le_lastSeen hw.ordered hu hnode hreport
      obtain ⟨rfl, rfl⟩ := Prod.mk.inj (Option.some.inj (hlast.symm.trans hlast'))
      have hyounger := ageMs_le now hle
      omega
    · intro hprobed hfresh role seenAt hlast hknown
      obtain ⟨u, hu, hnode, hreport, rfl⟩ := exists_of_lastSeen hlast
      refine ⟨u, hu, hnode, hreport, ?_⟩
      by_contra hold
      have hexpired := expired_iff.mpr (hprobed rfl role u.now hlast hknown (hmax ▸ not_le.mp hold))
      rw [← hmax, hfresh] at hexpired
      cases hexpired

/-- In every run of reports, a snapshot at any time shows a role that was reported within the maximal
age exactly if, where the last report of a known role is older, the last report on the liveness is
too. -/
theorem roles_expire_iff (cfg : ProbeConfig) (specs : List NodeSpec) (start : Time)
    (calls : List SinkCall) (now : Time) (id : NodeID) :
    let w := run sinkStep (probing (newTopology cfg specs) start) calls
    RoleCurrent w now id ↔ ProbedWithRole (newTopology cfg specs) w.history now id := by
  intro w
  refine roleCurrent_iff (run_invariant (fun w call hw _ => recorded_step w call hw) ?_
    (throughout_of_forall (Q := fun _ => True) fun _ _ => trivial)) now id
  exact ⟨rfl, fun _ hu => absurd hu List.not_mem_nil, List.Pairwise.nil⟩

/-- A primary that has failed all its probes for eight seconds is still shown as primary, with a
maximal age of five seconds. -/
theorem dead_primary_shown :
    let second := 1000000000
    let calls : List SinkCall :=
      [⟨0, text "a", .observedRole .primary⟩, ⟨0, text "a", .liveness .up none⟩,
        ⟨4 * second, text "a", .liveness .up (some (text "refused"))⟩,
        ⟨4 * second, text "a", .liveness .down (some (text "refused"))⟩]
    let w := run sinkStep
      (probing (newTopology ⟨1000, 0, 0, 0⟩ [⟨text "a", ⟨text "db", 5432, text "primary"⟩, 0⟩]) second)
      calls
    w.topo.observedRoleMaxAgeMs = 5000 ∧ ¬RoleCurrent w w.now (text "a") := by
  intro second calls w
  refine ⟨by decide, fun hcurrent => ?_⟩
  have hshown : (w.topo.node w.now (text "a")).map NodeView.observedRole = some .primary := by decide
  obtain ⟨view, hview, hrole⟩ := Option.map_eq_some_iff.mp hshown
  obtain ⟨u, hu, -, hreport, hage⟩ := hcurrent view hview (by simp [hrole])
  have hold : ∀ u ∈ w.history, u.report = .observedRole .primary →
      w.topo.observedRoleMaxAgeMs < ageMs w.now u.now := by decide
  rw [hrole] at hreport
  exact absurd hage (not_le.mpr (hold u hu hreport))

end Grunyas.Cluster
