import Grunyas.Cluster.Topology
import Grunyas.Policy.Engine

/-!
# How a policy comes to exclude a node

Every evaluation judges the snapshot of a node by every instance. An instance that rejects a node
holds it pending for its dwell time before it excludes it, and keeps it excluded for its release time
once it rejects it no more. `perNodeState_evaluateNode` says what an evaluation does to one pair of
instance and node.

The transitions that the engine publishes are in `TransitionEvents`; no decision depends on them.
-/

namespace Grunyas.Policy

open GoText GoMap Grunyas.Server Grunyas.Cluster

/-- The name of a liveness in a reason. -/
def livenessReason : Liveness → Text
  | .up => text "liveness:up"
  | .degraded => text "liveness:degraded"
  | .down => text "liveness:down"
  | .unknown => text "liveness:unknown"

/-- Reject a node that is not up. -/
def evaluateHealth (nv : NodeView) : Bool × Text :=
  if nv.liveness ≠ .up then (true, livenessReason nv.liveness) else (false, [])

/-- Reject a replica whose lag is not known or above the threshold. -/
def evaluateLag (nv : NodeView) (params : List (Text × ℤ)) : Bool × Text :=
  if nv.observedRole ≠ .replica then (false, [])
  else
    let thresholdMs := (params.lookup (text "threshold_ms")).getD 100
    match nv.replicationLagState with
    | .fresh =>
      if nv.replicationLagMs.any fun lagMs => thresholdMs < lagMs then
        (true, text "lag:above_threshold")
      else (false, [])
    | .unknown => (true, text "lag:unknown")
    | .stale => (true, text "lag:unknown")
    | .idle => (true, text "lag:idle")
    | .notApplicable => (false, [])

/-- Reject a node whose pool is saturated. -/
def poolRejectionMap (saturated : Bool) : Bool × Text :=
  if saturated then (true, text "pool:saturated") else (false, [])

/-- The judgement of an instance on a node, if its template is known. -/
def Instance.evaluate (inst : Instance) (nv : NodeView) (poolSaturated : Bool) :
    Option (Bool × Text) :=
  match inst.template with
  | .healthFilter => some (evaluateHealth nv)
  | .lagFilter => some (evaluateLag nv inst.parameters)
  | .poolSaturation => some (poolRejectionMap poolSaturated)
  | .other _ => none

/-- A node that was never evaluated. -/
def PerNodeState.clean : PerNodeState := ⟨.clean, 0, []⟩

/-- The state of a node after one judgement of an instance. -/
def PerNodeState.transition (inst : Instance) (now : Time) (reject : Bool) (reason : Text)
    (pns : PerNodeState) : PerNodeState :=
  match pns.state with
  | .clean =>
    if reject then ⟨if milliseconds inst.dwellMs = 0 then .active else .pending, now, reason⟩ else pns
  | .pending =>
    if reject then
      if milliseconds inst.dwellMs ≤ now - pns.enteredAt then ⟨.active, now, reason⟩ else pns
    else ⟨.clean, pns.enteredAt, []⟩
  | .active => if reject then pns else ⟨.releasing, now, []⟩
  | .releasing =>
    if reject then ⟨.active, now, reason⟩
    else if milliseconds inst.releaseMs = 0 ∨ milliseconds inst.releaseMs ≤ now - pns.enteredAt then
      ⟨.clean, pns.enteredAt, []⟩
    else pns

/-- The node is excluded, or pending since some instant or longer. -/
def PerNodeState.HeldSince (pns : PerNodeState) (since : Time) : Prop :=
  pns.state = .active ∨ (pns.state = .pending ∧ pns.enteredAt ≤ since)

/-- Change the recorded state of a policy for a node. -/
def Engine.record (e : Engine) (policyName nodeID : Text) (f : PerNodeState → PerNodeState) :
    Engine :=
  let perNode := (e.states.lookup policyName).getD ∅
  let pns := (perNode.lookup nodeID).getD .clean
  { e with states := e.states.insert policyName (perNode.insert nodeID (f pns)) }

/-- Judge a node by one instance. -/
def Engine.judge (now : Time) (nv : NodeView) (poolSaturated : Bool) (e : Engine) (inst : Instance) :
    Engine :=
  match inst.evaluate nv poolSaturated with
  | some (reject, reason) => e.record inst.name nv.id (.transition inst now reject reason)
  | none => e

/-- Judge a node by every instance. The map of instances is visited in some order; each instance
changes its own states only. -/
def Engine.evaluateNode (e : Engine) (now : Time) (nv : NodeView) (poolSaturated : Bool) : Engine :=
  e.instances.foldl (Engine.judge now nv poolSaturated) e

/-- Add an instance, in the place of one of its name. -/
def insertInstance (inst : Instance) : List Instance → List Instance
  | [] => [inst]
  | first :: rest =>
    if inst.name < first.name then inst :: first :: rest
    else if first.name < inst.name then first :: insertInstance inst rest
    else inst :: rest

/-- Add a default, unless an instance has its name. -/
def ensureDefault (default : Instance) (instances : List Instance) : List Instance :=
  if instances.any fun inst => inst.name == default.name then instances
  else insertInstance default instances

/-- The instances that are added where no instance has their name. -/
def defaultInstances : List Instance :=
  [⟨text "default-health-filter", .healthFilter, text "cluster", [], 5000, 5000⟩,
    ⟨text "default-lag-filter", .lagFilter, text "cluster", [(text "threshold_ms", 100)], 5000, 5000⟩,
    ⟨text "default-pool-saturation-rejection", .poolSaturation, text "cluster", [], 0, 0⟩]

/-- The instances of an engine: the configured ones, of which the last of a name counts, and the
defaults. -/
def engineInstances (instances : List Instance) : List Instance :=
  defaultInstances.foldl (fun all default => ensureDefault default all)
    (instances.foldl (fun all inst => insertInstance inst all) [])

section Transition

variable {inst : Instance} {now since : Time} {reject : Bool} {reason : Text} {pns : PerNodeState}

/-- A pending state was entered in the past, whatever the judgement. -/
theorem PerNodeState.enteredAt_transition (h : pns.state = .pending → pns.enteredAt ≤ now)
    (hpending : (pns.transition inst now reject reason).state = .pending) :
    (pns.transition inst now reject reason).enteredAt ≤ now := by
  cases hstate : pns.state with
  | clean =>
    cases reject with
    | false => simp [PerNodeState.transition, hstate] at hpending
    | true => simp [PerNodeState.transition, hstate]
  | pending =>
    -- Only a node that stays pending keeps the instant at which it was entered.
    have hkept : (pns.transition inst now reject reason).enteredAt = now ∨
        (pns.transition inst now reject reason).enteredAt = pns.enteredAt := by
      simp only [PerNodeState.transition, hstate]
      split_ifs <;> simp
    rcases hkept with hnow | hkept
    · exact hnow.le
    · exact hkept.trans_le (h hstate)
  | active => cases reject <;> simp [PerNodeState.transition, hstate] at hpending
  | releasing =>
    simp only [PerNodeState.transition, hstate] at hpending
    split_ifs at hpending
    rw [hstate] at hpending
    cases hpending

/-- A node that is rejected is held from now on at the latest. -/
theorem PerNodeState.heldSince_transition (h : pns.state = .pending → pns.enteredAt ≤ now) :
    (pns.transition inst now true reason).HeldSince now := by
  unfold PerNodeState.transition PerNodeState.HeldSince
  cases hstate : pns.state with
  | clean => by_cases hdwell : milliseconds inst.dwellMs = 0 <;> simp [hdwell]
  | pending =>
    by_cases hpassed : milliseconds inst.dwellMs ≤ now - pns.enteredAt
    · simp [hpassed]
    · simp [hpassed, hstate, h hstate]
  | active => simp [hstate]
  | releasing => simp

/-- A policy without a dwell time excludes a node as soon as it rejects it. -/
theorem PerNodeState.transition_of_no_dwell (hdwell : milliseconds inst.dwellMs = 0)
    (h : pns.state = .pending → pns.enteredAt ≤ now) :
    (pns.transition inst now true reason).state = .active := by
  unfold PerNodeState.transition
  cases hstate : pns.state with
  | clean => simp [hdwell]
  | pending =>
    have hpassed : milliseconds inst.dwellMs ≤ now - pns.enteredAt := by
      rw [hdwell]
      exact Int.sub_nonneg_of_le (h hstate)
    simp [hpassed]
  | active => simp [hstate]
  | releasing => simp

/-- A node that is held and rejected again stays held. -/
theorem PerNodeState.HeldSince.transition (h : pns.HeldSince since) :
    (pns.transition inst now true reason).HeldSince since := by
  unfold PerNodeState.HeldSince PerNodeState.transition at *
  rcases h with hactive | hpending
  · simp [hactive]
  · simp only [hpending.1, if_true]
    split_ifs
    · exact .inl rfl
    · exact .inr hpending

/-- A node that was held for the dwell time and is rejected again is excluded. -/
theorem PerNodeState.HeldSince.transition_of_dwell (h : pns.HeldSince since)
    (hdwell : milliseconds inst.dwellMs ≤ now - since) :
    (pns.transition inst now true reason).state = .active := by
  unfold PerNodeState.transition
  rcases h with hactive | ⟨hpending, hentered⟩
  · simp [hactive]
  · have hpassed : milliseconds inst.dwellMs ≤ now - pns.enteredAt :=
      hdwell.trans (Int.sub_le_sub_left hentered now)
    simp [hpending, hpassed]

/-- An excluded node that is rejected again stays excluded. -/
theorem PerNodeState.transition_of_active (h : pns.state = .active) :
    (pns.transition inst now true reason).state = .active := by
  simp [PerNodeState.transition, h]

end Transition

/-- What an instance list holds after an insertion. -/
theorem mem_insertInstance {inst other : Instance} {instances : List Instance}
    (h : other ∈ insertInstance inst instances) : other = inst ∨ other ∈ instances := by
  induction instances with
  | nil => exact .inl (List.mem_singleton.mp h)
  | cons first rest ih =>
    rw [insertInstance] at h
    split_ifs at h
    · exact List.mem_cons.mp h
    · obtain rfl | h := List.mem_cons.mp h
      · exact .inr List.mem_cons_self
      · exact (ih h).imp_right (List.mem_cons_of_mem _)
    · exact (List.mem_cons.mp h).imp_right (List.mem_cons_of_mem _)

/-- An insertion keeps the order of the names. -/
theorem insertInstance_sorted (inst : Instance) {instances : List Instance}
    (h : instances.Pairwise fun first second => first.name < second.name) :
    (insertInstance inst instances).Pairwise fun first second => first.name < second.name := by
  induction instances with
  | nil => simp [insertInstance]
  | cons first rest ih =>
    obtain ⟨hfirst, hrest⟩ := List.pairwise_cons.mp h
    rw [insertInstance]
    split_ifs with hbefore hafter
    · refine List.pairwise_cons.mpr ⟨fun other hother => ?_, h⟩
      obtain rfl | hother := List.mem_cons.mp hother
      · exact hbefore
      · exact List.lt_trans hbefore (hfirst other hother)
    · refine List.pairwise_cons.mpr ⟨fun other hother => ?_, ih hrest⟩
      obtain rfl | hother := mem_insertInstance hother
      · exact hafter
      · exact hfirst other hother
    · have hname : inst.name = first.name := List.le_antisymm hafter hbefore
      exact List.pairwise_cons.mpr ⟨fun other hother => hname ▸ hfirst other hother, hrest⟩

/-- Adding a default keeps the order of the names. -/
theorem ensureDefault_sorted (default : Instance) {instances : List Instance}
    (h : instances.Pairwise fun first second => first.name < second.name) :
    (ensureDefault default instances).Pairwise fun first second => first.name < second.name := by
  unfold ensureDefault
  split_ifs
  · exact h
  · exact insertInstance_sorted default h

/-- The instances of an engine are in the order of their names. -/
theorem engineInstances_sorted (instances : List Instance) :
    (engineInstances instances).Pairwise fun first second => first.name < second.name := by
  have hfold {add : List Instance → Instance → List Instance} (instances : List Instance)
      (hadd : ∀ all inst, all.Pairwise (fun first second => first.name < second.name) →
        (add all inst).Pairwise fun first second => first.name < second.name)
      {all : List Instance} (h : all.Pairwise fun first second => first.name < second.name) :
      (instances.foldl add all).Pairwise fun first second => first.name < second.name := by
    induction instances generalizing all with
    | nil => exact h
    | cons inst rest ih => exact ih (hadd all inst h)
  exact hfold _ (fun _ default => ensureDefault_sorted default)
    (hfold _ (fun _ inst => insertInstance_sorted inst) .nil)

/-- An engine before its first evaluation. -/
def newEngine (instances : List Instance) : Engine where
  instances := engineInstances instances
  sorted := engineInstances_sorted instances
  states := ∅

/-- No two instances have the same name. -/
theorem Engine.nodup_names (e : Engine) : (e.instances.map Instance.name).Nodup := by
  refine List.pairwise_map.mpr (e.sorted.imp ?_)
  intro first second hlt heq
  exact List.lt_irrefl _ (heq ▸ hlt)

/-- A change of one pair of policy and node leaves the others alone. -/
theorem Engine.perNodeState_record (e : Engine) (policyName nodeID other node : Text)
    (f : PerNodeState → PerNodeState) :
    (e.record policyName nodeID f).perNodeState other node =
      if other = policyName ∧ node = nodeID then
        some (f ((e.perNodeState policyName nodeID).getD .clean))
      else e.perNodeState other node := by
  simp only [Engine.record, Engine.perNodeState]
  by_cases hother : other = policyName
  · subst hother
    rw [Finmap.lookup_insert, Option.bind_some]
    by_cases hnode : node = nodeID
    · subst hnode
      rw [Finmap.lookup_insert, if_pos ⟨rfl, rfl⟩]
      cases e.states.lookup other <;> simp
    · rw [Finmap.lookup_insert_of_ne _ hnode, if_neg fun h => hnode h.2]
      cases e.states.lookup other <;> simp
  · rw [Finmap.lookup_insert_of_ne _ hother, if_neg fun h => hother h.1]

/-- An evaluation keeps the instances. -/
@[simp] theorem Engine.instances_evaluateNode (e : Engine) (now : Time) (nv : NodeView)
    (poolSaturated : Bool) : (e.evaluateNode now nv poolSaturated).instances = e.instances := by
  refine foldl_frame Engine.instances (fun e inst _ => ?_) e
  unfold Engine.judge
  split <;> rfl

/-- The states of other nodes are left alone by an evaluation. -/
theorem Engine.perNodeState_evaluateNode_of_ne (e : Engine) (now : Time) {nv : NodeView}
    (poolSaturated : Bool) (policyName : Text) {node : Text} (hnode : node ≠ nv.id) :
    (e.evaluateNode now nv poolSaturated).perNodeState policyName node =
      e.perNodeState policyName node := by
  refine foldl_frame (fun e : Engine => e.perNodeState policyName node) (fun e inst _ => ?_) e
  unfold Engine.judge
  split
  · rw [Engine.perNodeState_record, if_neg fun h => hnode h.2]
  · rfl

/-- The state of an instance for the evaluated node changes by the judgement of the instance. -/
theorem Engine.perNodeState_evaluateNode (e : Engine) (now : Time) (nv : NodeView)
    (poolSaturated : Bool) {inst : Instance} (hinst : inst ∈ e.instances) {reject : Bool}
    {reason : Text} (hjudged : inst.evaluate nv poolSaturated = some (reject, reason)) :
    (e.evaluateNode now nv poolSaturated).perNodeState inst.name nv.id =
      some (((e.perNodeState inst.name nv.id).getD .clean).transition inst now reject reason) := by
  refine foldl_focus (fun _ => True) (fun e : Engine => e.perNodeState inst.name nv.id)
    (fun pns => some ((pns.getD .clean).transition inst now reject reason)) hinst
    (List.Nodup.of_map _ e.nodup_names) (fun _ _ _ _ => trivial) (fun acc other hother hne => ?_)
    (fun acc _ => ?_) trivial
  · have hname : inst.name ≠ other.name := fun h =>
      hne (List.inj_on_of_nodup_map e.nodup_names hother hinst h.symm)
    unfold Engine.judge
    split
    · rw [Engine.perNodeState_record, if_neg fun h => hname h.1]
    · rfl
  · rw [Engine.judge, hjudged]
    exact (acc.perNodeState_record _ _ _ _ _).trans (if_pos ⟨rfl, rfl⟩)

/-- An instance that does not judge the evaluated node keeps its state. -/
theorem Engine.perNodeState_evaluateNode_of_none (e : Engine) (now : Time) {nv : NodeView}
    {poolSaturated : Bool} {inst : Instance} (hinst : inst ∈ e.instances)
    (hjudged : inst.evaluate nv poolSaturated = none) (node : Text) :
    (e.evaluateNode now nv poolSaturated).perNodeState inst.name node =
      e.perNodeState inst.name node := by
  refine foldl_frame (fun e : Engine => e.perNodeState inst.name node) (fun acc other hother => ?_) e
  unfold Engine.judge
  split
  next hsome =>
    rw [Engine.perNodeState_record, if_neg]
    rintro ⟨hname, -⟩
    rw [List.inj_on_of_nodup_map e.nodup_names hother hinst hname.symm, hjudged] at hsome
    cases hsome
  next => rfl

/-- Changes of the states of two policies may be made in any order. -/
theorem Engine.record_comm (e : Engine) {policyName other : Text} (hne : policyName ≠ other)
    (nodeID node : Text) (f g : PerNodeState → PerNodeState) :
    (e.record policyName nodeID f).record other node g =
      (e.record other node g).record policyName nodeID f := by
  simp only [Engine.record, Finmap.lookup_insert_of_ne _ hne, Finmap.lookup_insert_of_ne _ hne.symm]
  rw [Finmap.insert_insert_of_ne _ hne]

/-- The instances may be visited in any order. -/
theorem Engine.evaluateNode_eq_of_perm (e : Engine) (now : Time) (nv : NodeView) (poolSaturated : Bool)
    {order : List Instance} (h : order.Perm e.instances) :
    e.evaluateNode now nv poolSaturated = order.foldl (Engine.judge now nv poolSaturated) e := by
  refine (h.foldl_eq' (fun first hfirst second hsecond acc => ?_) e).symm
  by_cases hsame : first = second
  · rw [hsame]
  · have hname : first.name ≠ second.name := fun hname => hsame
      (List.inj_on_of_nodup_map e.nodup_names (h.mem_iff.mp hfirst) (h.mem_iff.mp hsecond) hname)
    unfold Engine.judge
    cases first.evaluate nv poolSaturated with
    | none => rfl
    | some verdict =>
      cases second.evaluate nv poolSaturated with
      | none => rfl
      | some verdict' => exact acc.record_comm hname _ _ _ _

end Grunyas.Policy
