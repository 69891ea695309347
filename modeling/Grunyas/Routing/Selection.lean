import Grunyas.Routing.Pipeline

/-!
# Eligible nodes and their selection

Which nodes are eligible depends on the recorded state of each node alone, not on the order in
which the snapshot meets them. The order decides only the place of a node in the round robin, and
there every eligible node can come to be selected.
-/

namespace Grunyas.Routing

open GoText GoMap Grunyas.Server Grunyas.Classifier Grunyas.Cluster Grunyas.Decisions Grunyas.Policy

variable {p : Pipeline} {req : LeaseRequest}

/-- Whether no filter excludes a node. -/
def Pipeline.admits (p : Pipeline) (now : Time) (req : LeaseRequest)
    (entry : Sigma fun _ : NodeID => NodeState) : Bool :=
  decide (p.reasons req.port req.classType req.postWriteWindowActive
    (p.topo.nodeView now entry.1 entry.2) = [])

/-- The eligible nodes are the visited ones that no filter excludes. -/
theorem eligibleNodes_candidates (env : Env p.topo) :
    eligibleNodes (p.candidates env req) =
      (env.forNodes.entries.filter (p.admits env.now req)).map Sigma.fst := by
  rw [eligibleNodes, Pipeline.candidates, Pipeline.filterCandidates, Topology.nodeViews,
    List.map_map, List.filter_map, List.map_map]
  rfl

/-- A node is eligible exactly when it is declared and no filter excludes it. -/
theorem mem_eligibleNodes {env : Env p.topo} {id : NodeID} :
    id ∈ eligibleNodes (p.candidates env req) ↔
      ∃ ns, p.topo.nodes.lookup id = some ns ∧ p.admits env.now req ⟨id, ns⟩ = true := by
  rw [eligibleNodes_candidates, List.mem_map]
  constructor
  · intro hvisited
    obtain ⟨⟨found, ns⟩, hmem, rfl⟩ := hvisited
    obtain ⟨hentry, hadmits⟩ := List.mem_filter.mp hmem
    exact ⟨ns, env.forNodes.mem_entries.mp hentry, hadmits⟩
  · intro hdeclared
    obtain ⟨ns, hlookup, hadmits⟩ := hdeclared
    exact ⟨⟨id, ns⟩, List.mem_filter.mpr ⟨env.forNodes.mem_entries.mpr hlookup, hadmits⟩, rfl⟩

/-- A policy gives no reason exactly when it leaves the node eligible. -/
theorem policyReasons_eq_nil (policyName nodeID default : Text) :
    p.policyReasons policyName nodeID default = [] ↔ (p.policyState policyName nodeID).1 = true := by
  simp only [Pipeline.policyReasons]
  split_ifs with helig hcond <;> simp [helig]

/-- No filter excludes a node exactly when it belongs to the cluster, has the role that is asked for,
and is held by none of the policies that are consulted. -/
theorem reasons_eq_nil_iff {port : Port} {classType : Kind} {windowActive : Bool} {nv : NodeView} :
    p.reasons port classType windowActive nv = [] ↔
      (nv.systemID = [] ∨ nv.systemID = p.topo.clusterID) ∧
        roleReasons port classType windowActive nv.observedRole = [] ∧
        (p.policyState p.defaultHealthPolicyName nv.id).1 = true ∧
        (classType ≠ .write → (p.policyState p.defaultLagPolicyName nv.id).1 = true) ∧
        (p.policyState p.defaultSatPolicyName nv.id).1 = true := by
  have hsystem : (if nv.systemID ≠ [] ∧ nv.systemID ≠ p.topo.clusterID then
        [text "system_id:mismatch"] else []) = [] ↔
      nv.systemID = [] ∨ nv.systemID = p.topo.clusterID := by
    rw [ite_eq_right_iff, ← not_or, imp_iff_not (List.cons_ne_nil _ _), not_not]
  have hlag : (if classType ≠ .write then
        p.policyReasons p.defaultLagPolicyName nv.id (text "lag:policy_active") else []) = [] ↔
      (classType ≠ .write → (p.policyState p.defaultLagPolicyName nv.id).1 = true) := by
    by_cases hwrite : classType = .write
    · simp [hwrite]
    · simp [hwrite, policyReasons_eq_nil]
  rw [Pipeline.reasons]
  simp only [List.append_eq_nil_iff, hsystem, hlag, policyReasons_eq_nil, and_assoc]

/-- A loop that keeps one of two values at every step ends with one of those it met. -/
theorem foldl_pick_mem {α : Type*} {pick : α → α → α} (hpick : ∀ a b, pick a b = a ∨ pick a b = b)
    (first : α) (l : List α) : l.foldl pick first = first ∨ l.foldl pick first ∈ l := by
  induction l generalizing first with
  | nil => exact Or.inl rfl
  | cons a rest ih =>
    rw [List.foldl_cons]
    rcases ih (pick first a) with h | h
    · rw [h]
      rcases hpick first a with hp | hp
      · exact Or.inl hp
      · rw [hp]
        exact Or.inr List.mem_cons_self
    · exact Or.inr (List.mem_cons_of_mem _ h)

/-- The selected node is an eligible one. -/
theorem selectNode_mem (readRR : UInt64) {eligible : List NodeID} (h : eligible ≠ []) (port : Port)
    (primary : Option NodeView) : (selectNode readRR eligible h port primary).1 ∈ eligible := by
  unfold selectNode
  split_ifs
  · split
    next id hfind =>
      obtain ⟨view, -, hfound⟩ := Option.bind_eq_some_iff.mp hfind
      exact List.mem_of_find?_eq_some hfound
    next =>
      have hpick : ∀ selected id : NodeID,
          (if id < selected then id else selected) = selected ∨
            (if id < selected then id else selected) = id := by
        intro selected id
        split_ifs
        · exact Or.inr rfl
        · exact Or.inl rfl
      change eligible.foldl _ (eligible.head h) ∈ eligible
      rcases foldl_pick_mem hpick (eligible.head h) eligible with heq | hmem
      · rw [heq]
        exact List.head_mem h
      · exact hmem
  · exact List.head_mem h
  · exact List.get_mem _ _

/-- On the write port an eligible primary is selected. -/
theorem selectNode_write (readRR : UInt64) {eligible : List NodeID} (h : eligible ≠ [])
    {port : Port} (hport : port = .write) {view : NodeView} (hmem : view.id ∈ eligible) :
    (selectNode readRR eligible h port (some view)).1 = view.id := by
  have hsome : (eligible.find? fun id => id == view.id).isSome = true :=
    List.find?_isSome.mpr ⟨view.id, hmem, beq_self_eq_true view.id⟩
  obtain ⟨found, hfound⟩ := Option.isSome_iff_exists.mp hsome
  have hid : found = view.id := by simpa using List.find?_some hfound
  rw [selectNode, if_pos hport, Option.bind_some, hfound]
  exact hid

/-- On the other ports the place of the selected node is given by the counter. -/
theorem selectNode_roundRobin (readRR : UInt64) {eligible : List NodeID} (h : eligible ≠ [])
    {port : Port} (hport : port ≠ .write) (primary : Option NodeView) :
    eligible[(readRR + 1).toNat % eligible.length]? =
      some (selectNode readRR eligible h port primary).1 := by
  rw [selectNode, if_neg hport]
  split_ifs with hone
  · rw [hone, Nat.mod_one, ← List.head?_eq_getElem?, List.head?_eq_some_head h]
  · exact List.getElem?_eq_getElem _

/-- On the other ports every eligible node is selected for some order of the snapshot. -/
theorem exists_selectNode {env : Env p.topo} {port : Port} (hport : port ≠ .write)
    (primary : Option NodeView) {id : NodeID} (hmem : id ∈ eligibleNodes (p.candidates env req)) :
    ∃ order : Range p.topo.nodes, ∀ h,
      (selectNode p.readRR (eligibleNodes (p.candidates { env with forNodes := order } req)) h port
        primary).1 = id := by
  obtain ⟨ns, hlookup, hadmits⟩ := mem_eligibleNodes.mp hmem
  have hentry : ⟨id, ns⟩ ∈ env.forNodes.entries.filter (p.admits env.now req) :=
    List.mem_filter.mpr ⟨env.forNodes.mem_entries.mpr hlookup, hadmits⟩
  have hplace := Nat.mod_lt (p.readRR + 1).toNat (List.length_pos_of_mem hentry)
  obtain ⟨order, horder⟩ := env.forNodes.exists_getElem?_filter _ hentry hplace
  refine ⟨order, fun h => ?_⟩
  have hlen : (order.entries.filter (p.admits env.now req)).length =
      (env.forNodes.entries.filter (p.admits env.now req)).length :=
    ((order.perm env.forNodes).filter _).length_eq
  have hplaced : (eligibleNodes (p.candidates { env with forNodes := order } req))[
      (p.readRR + 1).toNat %
        (eligibleNodes (p.candidates { env with forNodes := order } req)).length]? = some id := by
    rw [eligibleNodes_candidates, List.length_map, List.getElem?_map, hlen, horder]
    rfl
  exact Option.some.inj ((selectNode_roundRobin p.readRR h hport primary).symm.trans hplaced)

end Grunyas.Routing
