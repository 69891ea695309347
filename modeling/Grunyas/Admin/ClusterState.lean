import Grunyas.Cluster.Topology

/-!
# Who is primary, as the admin interface tells it

Three parts of the code say which node is primary: the snapshot of every node, the search of the
topology for the only primary, and the count that the admin interface makes when the search fails.
The search reads recorded roles whatever their age, and passes over permanently-down nodes; the
count reads the snapshots, in which old roles are unknown, and takes in the permanently-down nodes.
`primary_agrees_iff` says for which recorded states the three agree.
-/

namespace Grunyas.Admin

open GoText GoMap Grunyas.Server Grunyas.Cluster

/-- The cluster part of the answer to a request for the state. -/
structure ClusterState where
  systemIdentifier : SystemID
  primary : NodeID
  splitBrain : Bool
  deriving DecidableEq, Repr

/-- The `/state` handler, as far as it tells about the cluster. -/
def handleState (t : Topology) (now : Time) (forNodes forPrimary : Range t.nodes) : ClusterState :=
  match t.primary now forPrimary with
  | some p => ⟨t.clusterID, p.id, false⟩
  | none =>
    let primaryCount := (t.nodeViews now forNodes).countP fun nv => nv.observedRole == .primary
    ⟨t.clusterID, [], decide (1 < primaryCount)⟩

/-- The view is the one of a node that is not permanently down, and shows a primary. -/
def ShowsPrimary (t : Topology) (now : Time) (nv : NodeView) : Prop :=
  ∃ id ns, t.nodes.lookup id = some ns ∧ ns.permanentlyDown = false ∧
    nv = t.nodeView now id ns ∧ nv.observedRole = .primary

/-- The search returns a view exactly if it is the only one that shows a primary, and split brain is
told exactly if there are two. -/
def PrimaryAgrees (t : Topology) (now : Time) (forNodes forPrimary : Range t.nodes) : Prop :=
  (∀ nv, t.primary now forPrimary = some nv ↔
    ShowsPrimary t now nv ∧ ∀ other, ShowsPrimary t now other → other = nv) ∧
  ((handleState t now forNodes forPrimary).splitBrain = true ↔
    ∃ first second, ShowsPrimary t now first ∧ ShowsPrimary t now second ∧ first ≠ second)

/-- A node that is recorded as primary: recently enough to be shown. -/
def recentPrimary (t : Topology) (now : Time) (ns : NodeState) : Bool :=
  ns.observedRole == .primary && !expired now ns.lastProbeAt t.observedRoleMaxAgeMs

/-- A node that is recorded as primary, too long ago to be shown. -/
def stalePrimary (t : Topology) (now : Time) (ns : NodeState) : Bool :=
  ns.observedRole == .primary && expired now ns.lastProbeAt t.observedRoleMaxAgeMs

/-- The number of declared nodes in some recorded state. -/
def countNodes (t : Topology) (test : NodeState → Bool) : ℕ :=
  t.nodes.entries.countP fun entry => test entry.2 = true

/-- The number of nodes that are not permanently down and recently seen as primary. -/
def freshCount (t : Topology) (now : Time) : ℕ :=
  countNodes t fun ns => !ns.permanentlyDown && recentPrimary t now ns

/-- The number of nodes that are not permanently down and were seen as primary too long ago. -/
def staleCount (t : Topology) (now : Time) : ℕ :=
  countNodes t fun ns => !ns.permanentlyDown && stalePrimary t now ns

/-- The number of permanently-down nodes that were recently seen as primary. -/
def excludedCount (t : Topology) (now : Time) : ℕ :=
  countNodes t fun ns => ns.permanentlyDown && recentPrimary t now ns

/-- Two fresh primaries, or a fresh one and no stale one, or no fresh one: then there must not be
exactly one stale one, nor two excluded ones. -/
def PrimariesRecent (t : Topology) (now : Time) : Prop :=
  2 ≤ freshCount t now ∨ (freshCount t now = 1 ∧ staleCount t now = 0) ∨
    (freshCount t now = 0 ∧ staleCount t now ≠ 1 ∧ excludedCount t now ≤ 1)

variable {t : Topology} {now : Time}

/-- Nodes are counted in whatever order they are visited. -/
theorem countNodes_eq (order : Range t.nodes) (test : NodeState → Bool) :
    countNodes t test = order.entries.countP fun entry => test entry.2 := by
  rw [countNodes, ← order.coe_entries, Multiset.coe_countP]
  simp only [Bool.decide_eq_true]

/-- The views of the nodes that are not permanently down and show a primary. -/
def shownPrimaries (t : Topology) (now : Time) (order : Range t.nodes) : List NodeView :=
  (order.entries.filter fun entry =>
    !entry.2.permanentlyDown && recentPrimary t now entry.2).map fun entry =>
      t.nodeView now entry.1 entry.2

/-- The views of the nodes that are not permanently down and recorded as primary. -/
def recordedPrimaries (t : Topology) (now : Time) (order : Range t.nodes) : List NodeView :=
  (order.entries.filter fun entry =>
    !entry.2.permanentlyDown && entry.2.observedRole == .primary).map fun entry =>
      t.nodeView now entry.1 entry.2

/-- A snapshot shows a primary exactly if the node was recently seen as one. -/
theorem nodeView_observedRole_beq (id : NodeID) (ns : NodeState) :
    ((t.nodeView now id ns).observedRole == .primary) = recentPrimary t now ns := by
  rw [Bool.eq_iff_iff, beq_iff_eq, Topology.nodeView_primary_iff, recentPrimary, Bool.and_eq_true,
    beq_iff_eq, Bool.not_eq_true']

/-- The list of the shown primaries is complete. -/
theorem showsPrimary_iff (order : Range t.nodes) {nv : NodeView} :
    ShowsPrimary t now nv ↔ nv ∈ shownPrimaries t now order := by
  rw [ShowsPrimary, shownPrimaries, List.mem_map]
  constructor
  · intro hshows
    obtain ⟨id, ns, hlookup, hdown, rfl, hrole⟩ := hshows
    rw [← beq_iff_eq, nodeView_observedRole_beq] at hrole
    refine ⟨⟨id, ns⟩, List.mem_filter.mpr ⟨order.mem_entries.mpr hlookup, ?_⟩, rfl⟩
    simp [hdown, hrole]
  · intro hmem
    obtain ⟨⟨id, ns⟩, hmem, rfl⟩ := hmem
    obtain ⟨hentry, htest⟩ := List.mem_filter.mp hmem
    rw [Bool.and_eq_true, Bool.not_eq_true'] at htest
    refine ⟨id, ns, order.mem_entries.mp hentry, htest.1, rfl, ?_⟩
    rw [← beq_iff_eq, nodeView_observedRole_beq]
    exact htest.2

/-- No node is shown twice. -/
theorem nodup_shownPrimaries (order : Range t.nodes) : (shownPrimaries t now order).Nodup := by
  refine List.Nodup.map_on ?_ (order.nodup.filter _)
  intro first hfirst second hsecond hview
  exact order.eq_of_key_eq (List.mem_of_mem_filter hfirst) (List.mem_of_mem_filter hsecond)
    (congrArg NodeView.id hview)

/-- What is shown as primary is recorded as primary. -/
theorem shownPrimaries_sublist (order : Range t.nodes) :
    (shownPrimaries t now order).Sublist (recordedPrimaries t now order) := by
  refine List.Sublist.map _ (List.monotone_filter_right _ ?_)
  intro entry htest
  simp only [recentPrimary, Bool.and_eq_true] at htest ⊢
  exact ⟨htest.1, htest.2.1⟩

/-- The search finds the only node that is recorded as primary. -/
theorem primary_eq_some_iff (order : Range t.nodes) (nv : NodeView) :
    t.primary now order = some nv ↔ recordedPrimaries t now order = [nv] := by
  rw [Topology.primary, Option.map_eq_some_iff, recordedPrimaries, List.map_eq_singleton_iff]
  simp only [soleLoop_none_eq_some]

/-- Counts of nodes that exclude each other add up. -/
theorem countNodes_add {test first second : NodeState → Bool}
    (hfirst : ∀ ns, test ns = true ↔ first ns = true ∨ second ns = true)
    (hdisjoint : ∀ ns, first ns = true → second ns = false) (order : Range t.nodes) :
    countNodes t test = countNodes t first + countNodes t second := by
  rw [countNodes_eq order, countNodes_eq order, countNodes_eq order]
  induction order.entries with
  | nil => rfl
  | cons entry rest ih =>
    have htest := hfirst entry.2
    have hnot := hdisjoint entry.2
    simp only [List.countP_cons, ih]
    cases hf : first entry.2 <;> cases hs : second entry.2 <;> simp_all <;> omega

/-- The number of shown primaries. -/
theorem length_shownPrimaries (order : Range t.nodes) :
    (shownPrimaries t now order).length = freshCount t now := by
  rw [shownPrimaries, List.length_map, ← List.countP_eq_length_filter, freshCount,
    countNodes_eq order]

/-- The number of recorded primaries. -/
theorem length_recordedPrimaries (order : Range t.nodes) :
    (recordedPrimaries t now order).length = freshCount t now + staleCount t now := by
  rw [recordedPrimaries, List.length_map, ← List.countP_eq_length_filter,
    ← countNodes_eq order fun ns => !ns.permanentlyDown && ns.observedRole == .primary]
  refine countNodes_add (fun ns => ?_) (fun ns hfresh => ?_) order
  · cases hold : expired now ns.lastProbeAt t.observedRoleMaxAgeMs <;>
      simp [recentPrimary, stalePrimary, hold]
  · cases hold : expired now ns.lastProbeAt t.observedRoleMaxAgeMs <;>
      simp_all [recentPrimary, stalePrimary]

/-- The number of snapshots that show a primary, permanently down or not. -/
theorem countP_nodeViews (order : Range t.nodes) :
    (t.nodeViews now order).countP (fun nv => nv.observedRole == .primary) =
      freshCount t now + excludedCount t now := by
  rw [Topology.nodeViews, List.countP_map]
  simp only [Function.comp_def, nodeView_observedRole_beq]
  rw [← countNodes_eq order (recentPrimary t now)]
  refine countNodes_add (fun ns => ?_) (fun ns hfresh => ?_) order
  · cases ns.permanentlyDown <;> simp
  · cases hdown : ns.permanentlyDown <;> simp_all

/-- The search agrees with the snapshots exactly if both find one primary, or neither does. -/
theorem search_agrees_iff (order : Range t.nodes) :
    (∀ nv, t.primary now order = some nv ↔
        ShowsPrimary t now nv ∧ ∀ other, ShowsPrimary t now other → other = nv) ↔
      (freshCount t now + staleCount t now = 1 ↔ freshCount t now = 1) := by
  have honly (nv : NodeView) :
      (ShowsPrimary t now nv ∧ ∀ other, ShowsPrimary t now other → other = nv) ↔
        shownPrimaries t now order = [nv] := by
    simp only [showsPrimary_iff order]
    exact (eq_singleton_iff_of_nodup (nodup_shownPrimaries order)).symm
  have hsub : (shownPrimaries t now order).Sublist (recordedPrimaries t now order) :=
    shownPrimaries_sublist order
  rw [← length_recordedPrimaries order, ← length_shownPrimaries order]
  simp only [primary_eq_some_iff, honly, List.length_eq_one_iff]
  constructor
  · intro h
    exact exists_congr h
  · intro h nv
    constructor
    · intro hrecorded
      obtain ⟨other, hshown⟩ := h.mp ⟨nv, hrecorded⟩
      rw [hshown, hrecorded, List.singleton_sublist, List.mem_singleton] at hsub
      rw [hshown, hsub]
    · intro hshown
      obtain ⟨other, hrecorded⟩ := h.mpr ⟨nv, hshown⟩
      rw [hshown, hrecorded, List.singleton_sublist, List.mem_singleton] at hsub
      rw [hrecorded, hsub]

/-- Split brain is told if the search fails and two snapshots show a primary. -/
theorem splitBrain_iff (forNodes forPrimary : Range t.nodes) :
    (handleState t now forNodes forPrimary).splitBrain = true ↔
      freshCount t now + staleCount t now ≠ 1 ∧ 2 ≤ freshCount t now + excludedCount t now := by
  have hsearch : (t.primary now forPrimary).isSome = true ↔ freshCount t now + staleCount t now = 1 := by
    rw [Option.isSome_iff_exists, ← length_recordedPrimaries forPrimary, List.length_eq_one_iff]
    exact exists_congr fun nv => primary_eq_some_iff forPrimary nv
  rw [handleState, ne_eq, ← hsearch, ← countP_nodeViews forNodes]
  cases t.primary now forPrimary with
  | some nv => simp
  | none => simp [Nat.lt_iff_add_one_le]

/-- Two views show a primary exactly if two nodes do. -/
theorem two_showPrimary_iff (order : Range t.nodes) :
    (∃ first second, ShowsPrimary t now first ∧ ShowsPrimary t now second ∧ first ≠ second) ↔
      2 ≤ freshCount t now := by
  rw [← length_shownPrimaries order, two_le_length_iff_of_nodup (nodup_shownPrimaries order)]
  simp only [showsPrimary_iff order]

/-- In every recorded state, at any time and in whatever orders the nodes are visited, the search and
the admin interface agree with the snapshots exactly if the recorded primaries are recent. -/
theorem primary_agrees_iff (t : Topology) (now : Time) (forNodes forPrimary : Range t.nodes) :
    PrimaryAgrees t now forNodes forPrimary ↔ PrimariesRecent t now := by
  rw [PrimaryAgrees, search_agrees_iff, splitBrain_iff, two_showPrimary_iff forNodes, PrimariesRecent]
  omega

/-- A node `a` that was seen as primary one second after the zero time. -/
def lonePrimaryEntries : List (Sigma fun _ : NodeID => NodeState) :=
  [⟨text "a",
    { config := ⟨text "db", 5432, text "primary"⟩, pool := 0, observedRole := .primary,
      liveness := .up, systemID := text "7", lastProbeAt := 1000000000, lastProbeErr := none,
      permanentlyDown := false, replicationLagMs := none, replicationLagState := .notApplicable,
      lastLagSampleAt := 0 }⟩]

/-- The topology of this one node. -/
def lonePrimary : Topology where
  nodes := ⟨lonePrimaryEntries, Multiset.coe_nodupKeys.mpr (List.nodupKeys_singleton _)⟩
  clusterID := text "7"
  livenessMaxAgeMs := 5000
  observedRoleMaxAgeMs := 5000
  replicationLagMaxAgeMs := 2000

/-- The only order in which one node can be visited. -/
def lonePrimaryOrder : Range lonePrimary.nodes := ⟨lonePrimaryEntries, rfl⟩

/-- Nine seconds later the search still returns the node, in a view that shows no primary. -/
theorem stale_primary_returned :
    ¬PrimaryAgrees lonePrimary 10000000000 lonePrimaryOrder lonePrimaryOrder := by
  intro hagrees
  obtain ⟨nv, hnv⟩ : ∃ nv, lonePrimary.primary 10000000000 lonePrimaryOrder = some nv := ⟨_, rfl⟩
  obtain ⟨⟨id, ns, -, -, -, hrole⟩, -⟩ := (hagrees.1 nv).mp hnv
  obtain rfl := Option.some.inj hnv
  cases hrole

end Grunyas.Admin
