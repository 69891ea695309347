import Grunyas.Cluster.Probes
import Grunyas.Machine.Run

/-!
# The identity of the cluster

`UpdateSystemID` has two critical sections. The first one compares and sets the identifier of the
cluster, the second one updates the node. Calls of several probes may interleave between the two,
and with reports of the liveness. `updateSystemID_eq` says that a call without interruption is what
the rest of the development takes it for.
-/

namespace Grunyas.Cluster

open GoText GoMap Grunyas.Server Machine

/-- A call between its two sections, with what it read in the first one. -/
structure OpenCall where
  node : NodeID
  sid : SystemID
  firstTime : Bool
  clusterID : SystemID
  deriving DecidableEq, Repr

/-- The first section: set the identifier of the cluster if there is none, and read it. A call for a
node that is not declared returns before it. -/
def Topology.enterSystemID (t : Topology) (id : NodeID) (sid : SystemID) : Option OpenCall × Topology :=
  match t.nodes.lookup id with
  | none => (none, t)
  | some _ =>
    if t.clusterID = [] then (some ⟨id, sid, true, sid⟩, { t with clusterID := sid })
    else (some ⟨id, sid, false, t.clusterID⟩, t)

/-- The second section: update the node. -/
def Topology.finishSystemID (t : Topology) (call : OpenCall) : Option Text × Topology :=
  if call.firstTime then (none, t.update call.node fun ns => { ns with systemID := call.clusterID })
  else if call.sid ≠ call.clusterID then
    (some (mismatchError call.node call.sid call.clusterID),
      t.update call.node fun ns => { ns with permanentlyDown := true, liveness := .down })
  else (none, t.update call.node fun ns => { ns with systemID := call.sid })

/-- The two sections in a row are the whole call. -/
theorem updateSystemID_eq (t : Topology) (id : NodeID) (sid : SystemID) :
    t.updateSystemID id sid =
      match t.enterSystemID id sid with
      | (none, t) => (some (text "node " ++ id ++ text " not found"), t)
      | (some call, t) => t.finishSystemID call := by
  unfold Topology.updateSystemID Topology.enterSystemID
  cases t.nodes.lookup id with
  | none => rfl
  | some ns =>
    by_cases hfirst : t.clusterID = []
    · simp [hfirst, Topology.finishSystemID]
    · by_cases hsame : sid = t.clusterID
      · simp [hfirst, hsame, Topology.finishSystemID]
      · simp [hfirst, hsame, Topology.finishSystemID]

/-- What the probes do concurrently: enter a call, finish one of the open calls, or report the
liveness of a node. -/
inductive SinkEvent where
  | enter (node : NodeID) (sid : SystemID)
  | finish (place : ℕ)
  | liveness (now : Time) (node : NodeID) (l : Liveness) (err : Option Text)
  deriving DecidableEq, Repr

/-- The topology with the open calls, the first identifier that was reported for a declared node, and
the nodes for which an identifier was reported that is not the one of the cluster. -/
structure Identities where
  topo : Topology
  calls : List OpenCall
  first : Option SystemID
  foreign : List NodeID

/-- One step of one of the probes. -/
def identityStep (m : Identities) : SinkEvent → Identities
  | .enter node sid =>
    let entered := m.topo.enterSystemID node sid
    { m with
      topo := entered.2
      calls := m.calls ++ entered.1.toList
      first := m.first.or (entered.1.map OpenCall.sid) }
  | .finish place =>
    match m.calls[place]? with
    | none => m
    | some call =>
      { m with
        topo := (m.topo.finishSystemID call).2
        calls := m.calls.eraseIdx place
        foreign := if call.sid ≠ m.topo.clusterID then call.node :: m.foreign else m.foreign }
  | .liveness now node l err => { m with topo := m.topo.updateLiveness now node l err }

/-- The declared nodes before the first report. -/
def identities (cfg : ProbeConfig) (specs : List NodeSpec) : Identities :=
  ⟨newTopology cfg specs, [], none, []⟩

/-- What holds between any two steps. An open call knows the identifier of the cluster. -/
structure Identified (m : Identities) : Prop where
  cluster : m.topo.clusterID = m.first.getD []
  known : ∀ sid ∈ m.first, sid ≠ []
  calls : ∀ call ∈ m.calls, m.first = some call.clusterID ∧
    (call.firstTime = true → call.sid = call.clusterID) ∧ (m.topo.nodes.lookup call.node).isSome
  nodes : ∀ id ns, m.topo.nodes.lookup id = some ns → ns.systemID = [] ∨ ns.systemID = m.topo.clusterID
  foreign : ∀ id ∈ m.foreign, m.topo.PermanentlyDown id

variable {m : Identities}

/-- No identifier was reported as long as the cluster has none. -/
theorem Identified.first_eq_none (h : Identified m) (hnone : m.topo.clusterID = []) :
    m.first = none := by
  cases hfirst : m.first with
  | none => rfl
  | some sid =>
    have hcluster := h.cluster
    rw [hfirst, Option.getD_some, hnone] at hcluster
    exact absurd hcluster.symm (h.known sid hfirst)

/-- The identifier of the cluster is the first that was reported. -/
theorem Identified.first_eq_some (h : Identified m) (hsome : m.topo.clusterID ≠ []) :
    m.first = some m.topo.clusterID := by
  cases hfirst : m.first with
  | none =>
    have hcluster := h.cluster
    rw [hfirst, Option.getD_none] at hcluster
    exact absurd hcluster hsome
  | some sid => rw [h.cluster, hfirst, Option.getD_some]

/-- The first section keeps what holds between two steps. -/
theorem Identified.enter (h : Identified m) (node : NodeID) {sid : SystemID} (hsid : sid ≠ []) :
    Identified (identityStep m (.enter node sid)) := by
  simp only [identityStep, Topology.enterSystemID]
  cases hlookup : m.topo.nodes.lookup node with
  | none =>
    simp only [Option.toList_none, List.append_nil, Option.map_none, Option.or_none]
    exact h
  | some ns =>
    by_cases hnone : m.topo.clusterID = []
    · -- Without an identifier there is no open call, so that the new one knows it alone.
      have hfirst := h.first_eq_none hnone
      simp only [hnone, if_true, hfirst, Option.none_or, Option.map_some, Option.toList_some]
      refine ⟨rfl, ?_, ?_, ?_, h.foreign⟩
      · simpa using hsid
      · intro call hcall
        obtain hcall | hcall := List.mem_append.mp hcall
        · have hknown := (h.calls call hcall).1
          rw [hfirst] at hknown
          cases hknown
        · obtain rfl := List.mem_singleton.mp hcall
          exact ⟨rfl, fun _ => rfl, by simp [hlookup]⟩
      · intro id ns' hlookup'
        have hempty := h.nodes id ns' hlookup'
        rw [hnone, or_self] at hempty
        exact .inl hempty
    · have hfirst := h.first_eq_some hnone
      simp only [hnone, if_false, hfirst, Option.some_or, Option.map_some, Option.toList_some]
      refine ⟨by simp, ?_, ?_, h.nodes, h.foreign⟩
      · simpa using hnone
      · intro call hcall
        obtain hcall | hcall := List.mem_append.mp hcall
        · rw [← hfirst]
          exact h.calls call hcall
        · obtain rfl := List.mem_singleton.mp hcall
          exact ⟨rfl, (fun hfirst => by cases hfirst), by simp [hlookup]⟩

/-- An update of a node that records no other identifier than the one of the cluster and keeps the
mark keeps what holds between two steps. -/
theorem Identified.update (h : Identified m) (node : NodeID) (f : NodeState → NodeState)
    (hsid : ∀ ns, (f ns).systemID = ns.systemID ∨ (f ns).systemID = m.topo.clusterID)
    (hdown : ∀ ns, ns.permanentlyDown = true → (f ns).permanentlyDown = true) :
    Identified { m with topo := m.topo.update node f } := by
  refine ⟨by simpa using h.cluster, h.known, ?_, ?_, ?_⟩
  · intro call hcall
    simpa using h.calls call hcall
  · intro id ns hlookup
    rw [Topology.clusterID_update]
    rw [Topology.lookup_update] at hlookup
    split_ifs at hlookup
    · obtain ⟨old, hold, rfl⟩ := Option.map_eq_some_iff.mp hlookup
      rcases hsid old with hsame | hnew
      · rw [hsame]
        exact h.nodes id old hold
      · exact .inr hnew
    · exact h.nodes id ns hlookup
  · intro id hid
    exact (h.foreign id hid).update node hdown

/-- Without one of the open calls, what holds between two steps still does. -/
theorem Identified.eraseCall (h : Identified m) (place : ℕ) :
    Identified { m with calls := m.calls.eraseIdx place } :=
  { h with calls := fun call hcall => h.calls call (List.mem_of_mem_eraseIdx hcall) }

/-- A permanently-down node may be added to the foreign ones. -/
theorem Identified.addForeign (h : Identified m) {node : NodeID} (hdown : m.topo.PermanentlyDown node) :
    Identified { m with foreign := node :: m.foreign } := by
  refine { h with foreign := fun id hid => ?_ }
  obtain rfl | hid := List.mem_cons.mp hid
  · exact hdown
  · exact h.foreign id hid

/-- The second section keeps what holds between two steps. -/
theorem Identified.finish (h : Identified m) (place : ℕ) :
    Identified (identityStep m (.finish place)) := by
  simp only [identityStep]
  cases hget : m.calls[place]? with
  | none => exact h
  | some call =>
    obtain ⟨hknown, hfirst, hdeclared⟩ := h.calls call (List.mem_of_getElem? hget)
    have hcluster : call.clusterID = m.topo.clusterID := by
      rw [h.cluster, hknown, Option.getD_some]
    by_cases hsame : call.sid = m.topo.clusterID
    · have hrecords : (m.topo.finishSystemID call).2 =
          m.topo.update call.node fun ns => { ns with systemID := m.topo.clusterID } := by
        simp [Topology.finishSystemID, hcluster, hsame]
      have hupdated := h.update call.node (fun ns => { ns with systemID := m.topo.clusterID })
        (fun _ => .inr rfl) fun _ hdown => hdown
      simp only [hrecords, hsame, ne_eq, not_true_eq_false, if_false]
      exact hupdated.eraseCall place
    · have hlater : call.firstTime = false := by
        cases hft : call.firstTime with
        | false => rfl
        | true => exact absurd ((hfirst hft).trans hcluster) hsame
      have hmarks : (m.topo.finishSystemID call).2 = m.topo.update call.node fun ns =>
          { ns with permanentlyDown := true, liveness := .down } := by
        simp [Topology.finishSystemID, hcluster, hsame, hlater]
      simp only [hmarks, hsame, ne_eq, not_false_eq_true, if_true]
      have hupdated := h.update call.node
        (fun ns => { ns with permanentlyDown := true, liveness := .down }) (fun _ => .inl rfl)
        fun _ _ => rfl
      refine (hupdated.eraseCall place).addForeign ?_
      obtain ⟨ns, hlookup⟩ := Option.isSome_iff_exists.mp hdeclared
      refine ⟨{ ns with permanentlyDown := true, liveness := .down }, ?_, rfl⟩
      rw [Topology.lookup_update, if_pos rfl, hlookup]
      rfl

/-- The end of a probe cycle keeps the mark. -/
theorem NodeState.permanentlyDown_updateLiveness (now : Time) (l : Liveness) (err : Option Text)
    (ns : NodeState) : (ns.updateLiveness now l err).permanentlyDown = ns.permanentlyDown := by
  unfold NodeState.updateLiveness
  split_ifs <;> rfl

/-- The end of a probe cycle keeps the identifier. -/
theorem NodeState.systemID_updateLiveness (now : Time) (l : Liveness) (err : Option Text)
    (ns : NodeState) : (ns.updateLiveness now l err).systemID = ns.systemID := by
  unfold NodeState.updateLiveness
  split_ifs <;> rfl

/-- Every step keeps what holds between two steps. -/
theorem Identified.step (h : Identified m) (e : SinkEvent)
    (hsid : ∀ node sid, e = .enter node sid → sid ≠ []) : Identified (identityStep m e) := by
  cases e with
  | enter node sid => exact h.enter node (hsid node sid rfl)
  | finish place => exact h.finish place
  | liveness now node l err =>
    refine h.update node _ (fun ns => ?_) fun ns hdown => ?_
    · exact .inl (ns.systemID_updateLiveness now l err)
    · rw [ns.permanentlyDown_updateLiveness now l err, hdown]

/-- A step forgets neither the first identifier nor a foreign node. -/
theorem identityStep_grows (m : Identities) (e : SinkEvent) :
    (∀ sid, m.first = some sid → (identityStep m e).first = some sid) ∧
      m.foreign ⊆ (identityStep m e).foreign := by
  cases e with
  | enter node sid => exact ⟨fun sid hsid => by simp [identityStep, hsid], fun _ h => h⟩
  | finish place =>
    simp only [identityStep]
    cases m.calls[place]? with
    | none => exact ⟨fun _ h => h, fun _ h => h⟩
    | some call =>
      refine ⟨fun _ h => h, fun id hid => ?_⟩
      dsimp only
      split_ifs
      · exact List.mem_cons_of_mem _ hid
      · exact hid
  | liveness now node l err => exact ⟨fun _ h => h, fun _ h => h⟩

/-- A run forgets neither the first identifier nor a foreign node. -/
theorem run_identityStep_grows (m : Identities) (events : List SinkEvent) :
    (∀ sid, m.first = some sid → (run identityStep m events).first = some sid) ∧
      m.foreign ⊆ (run identityStep m events).foreign := by
  induction events generalizing m with
  | nil => exact ⟨fun _ h => h, fun _ h => h⟩
  | cons e rest ih =>
    obtain ⟨hfirst, hforeign⟩ := identityStep_grows m e
    obtain ⟨hfirst', hforeign'⟩ := ih (identityStep m e)
    exact ⟨fun sid hsid => hfirst' sid (hfirst sid hsid), fun id hid => hforeign' (hforeign hid)⟩

/-- Between any two steps of a run with non-empty identifiers, the open calls know the identifier. -/
theorem identified_run (cfg : ProbeConfig) (specs : List NodeSpec) {events : List SinkEvent}
    (hids : ∀ node sid, .enter node sid ∈ events → sid ≠ []) :
    Identified (run identityStep (identities cfg specs) events) := by
  have hall : Throughout identityStep (fun _ e => ∀ node sid, e = .enter node sid → sid ≠ [])
      (identities cfg specs) events := by
    refine throughout_of_forall fun e he node sid henter => ?_
    subst henter
    exact hids node sid he
  refine run_invariant (fun m e h hsid => h.step e hsid) ?_ hall
  refine ⟨rfl, by simp [identities], by simp [identities], ?_, by simp [identities]⟩
  intro id ns hlookup
  obtain ⟨spec, rfl⟩ := lookup_newTopology hlookup
  exact .inl rfl

/-- In every interleaving of the sections of the calls with non-empty identifiers, and of reports of
the liveness: the identifier of the cluster is the first that was reported, and stays; a node has it or
none; a node with another one is permanently down from then on; and no permanently-down node is shown
up or degraded. -/
theorem identity_decided_once (cfg : ProbeConfig) (specs : List NodeSpec) (events later : List SinkEvent)
    (hids : ∀ node sid, .enter node sid ∈ events ++ later → sid ≠ []) :
    let m := run identityStep (identities cfg specs) events
    let m' := run identityStep (identities cfg specs) (events ++ later)
    m.topo.clusterID = m.first.getD [] ∧
      (m.topo.clusterID ≠ [] → m'.topo.clusterID = m.topo.clusterID) ∧
      (∀ id ns, m.topo.nodes.lookup id = some ns →
        ns.systemID = [] ∨ ns.systemID = m.topo.clusterID) ∧
      (∀ id ∈ m.foreign, m'.topo.PermanentlyDown id) ∧
      ∀ now id ns, m.topo.nodes.lookup id = some ns → ns.permanentlyDown = true →
        (m.topo.nodeView now id ns).liveness ≠ .up ∧
          (m.topo.nodeView now id ns).liveness ≠ .degraded := by
  intro m m'
  have hm : Identified m :=
    identified_run cfg specs fun node sid he => hids node sid (List.mem_append_left _ he)
  have hm' : Identified m' := identified_run cfg specs hids
  have hgrows : (∀ sid, m.first = some sid → m'.first = some sid) ∧ m.foreign ⊆ m'.foreign := by
    simp only [m, m', run, List.foldl_append]
    exact run_identityStep_grows _ later
  refine ⟨hm.cluster, fun hsome => ?_, hm.nodes, fun id hid => ?_, fun now id ns _ hdown => ?_⟩
  · rw [hm'.cluster, hgrows.1 _ (hm.first_eq_some hsome), Option.getD_some]
  · exact hm'.foreign id (hgrows.2 hid)
  · have hshown : (m.topo.nodeView now id ns).liveness = .down ∨
        (m.topo.nodeView now id ns).liveness = .unknown := Topology.liveness_of_permanentlyDown hdown
    rcases hshown with h | h <;> simp [h]

/-- Two probes enter their calls one after the other; the second one finishes first, and its node is
reported up. -/
def racingProbes : List SinkEvent :=
  [.enter (text "a") (text "7"), .enter (text "b") (text "8"), .finish 1, .finish 0,
    .liveness 1000000000 (text "b") .up none]

/-- The identifier of the first call stands, and the other node is permanently down. -/
theorem identity_decided_once_race :
    let specs : List NodeSpec := [⟨text "a", ⟨text "db-a", 5432, text "primary"⟩, 0⟩,
      ⟨text "b", ⟨text "db-b", 5432, text "replica"⟩, 1⟩]
    let m := run identityStep (identities ⟨1000, 0, 0, 0⟩ specs) racingProbes
    m.topo.clusterID = text "7" ∧ m.foreign = [text "b"] ∧ m.topo.PermanentlyDown (text "b") := by
  intro specs m
  have hids : ∀ node sid, SinkEvent.enter node sid ∈ racingProbes ++ [] → sid ≠ [] := by
    intro node sid hmem
    simp only [racingProbes, List.append_nil, List.mem_cons, SinkEvent.enter.injEq, reduceCtorEq,
      List.not_mem_nil, or_false] at hmem
    rcases hmem with ⟨-, rfl⟩ | ⟨-, rfl⟩ <;> decide
  have hforeign : m.foreign = [text "b"] := by decide
  obtain ⟨-, -, -, hdown, -⟩ := identity_decided_once ⟨1000, 0, 0, 0⟩ specs racingProbes [] hids
  exact ⟨by decide, hforeign, hdown (text "b") (hforeign ▸ List.mem_singleton_self _)⟩

end Grunyas.Cluster
