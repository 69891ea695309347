import Grunyas.Policy.TransitionEvents

/-!
# The reason of an exclusion

`EvaluatePolicyState` returns whether a policy leaves a node eligible together with the condition that
was recorded last. The condition is recorded when a node is found pending, is cleared when it starts to
be released, and is not touched while the node stays excluded. `reason_contract_iff` says for which
evaluations the condition is the reason of the exclusion all the same.
-/

namespace Grunyas.Policy

open GoText GoMap Grunyas.Server Grunyas.Cluster Machine

section

variable {policies : List Instance}

/-- The reason for which a policy rejects the node of a call, if it does. -/
def Visits.rejection (v : Visits policies) (policyName nodeID : Text) : Option Text :=
  if v.view.id = nodeID then
    (v.order.find? fun visit => visit.1.name == policyName).bind fun visit =>
      match visit.1.evaluate v.view v.poolSaturated with
      | some (true, reason) => some reason
      | _ => none
  else none

/-- An engine, and the reason of the latest evaluation in which a policy rejected a node. -/
structure Remembering where
  publisher : Publisher
  latestRejection : Text → Text → Option Text

/-- The next call of `EvaluateNode`. -/
def rememberStep (m : Remembering) (v : Visits policies) : Remembering where
  publisher := publishStep m.publisher v
  latestRejection policyName nodeID :=
    (v.rejection policyName nodeID).or (m.latestRejection policyName nodeID)

/-- The latest rejection after a call. -/
theorem latestRejection_rememberStep (m : Remembering) (v : Visits policies) (policyName nodeID : Text) :
    (rememberStep m v).latestRejection policyName nodeID =
      (v.rejection policyName nodeID).or (m.latestRejection policyName nodeID) := rfl

/-- A new engine, before its first evaluation. -/
def remembering (policies : List Instance) : Remembering := ⟨publisher policies, fun _ _ => none⟩

/-- An eligible node has no reason, and the reason of one that is not eligible is that of the latest
rejection. -/
def KeepsContract (m : Remembering) (policyName nodeID : Text) : Prop :=
  match m.publisher.engine.evaluatePolicyState policyName nodeID with
  | (true, reason) => reason = []
  | (false, reason) => reason ≠ [] ∧ m.latestRejection policyName nodeID = some reason

/-- What a verdict of an instance on a node has to be, given the reason of its latest rejection of the
node: the first rejection comes from an instance without a dwell time, and after it the node is
rejected every time, for the same reason. -/
def Instance.StandsBy (inst : Instance) (earlier : Option Text) (reject : Bool) (reason : Text) : Prop :=
  match earlier with
  | none => reject = true → milliseconds inst.dwellMs = 0
  | some before => reject = true ∧ before = reason

/-- Every verdict of a call stands by the verdicts before it. -/
def StandsByAll (m : Remembering) (v : Visits policies) : Prop :=
  ∀ inst now reject reason, (inst, now) ∈ v.order →
    inst.evaluate v.view v.poolSaturated = some (reject, reason) →
      inst.StandsBy (m.latestRejection inst.name v.view.id) reject reason

/-- The states that explain themselves: a node that was never rejected is clean, and one that was is
excluded for the reason of the latest rejection. -/
inductive PerNodeState.Settled : PerNodeState → Option Text → Prop
  | clean (since : Time) : Settled ⟨.clean, since, []⟩ none
  | active (since : Time) {reason : Text} (hreason : reason ≠ []) :
    Settled ⟨.active, since, reason⟩ (some reason)

/-- The states of all pairs are settled. -/
def Remembers (m : Remembering) : Prop :=
  ∀ policyName nodeID, ((m.publisher.engine.perNodeState policyName nodeID).getD .clean).Settled
    (m.latestRejection policyName nodeID)

/-- The health filter gives a reason with every rejection. -/
theorem evaluateHealth_reason (nv : NodeView) :
    (evaluateHealth nv).1 = true → (evaluateHealth nv).2 ≠ [] := by
  unfold evaluateHealth
  cases nv.liveness <;> decide

/-- The lag filter gives a reason with every rejection. -/
theorem evaluateLag_reason (nv : NodeView) (params : List (Text × ℤ)) :
    (evaluateLag nv params).1 = true → (evaluateLag nv params).2 ≠ [] := by
  unfold evaluateLag
  split
  · decide
  · cases nv.replicationLagState with
    | fresh =>
      dsimp only
      split <;> decide
    | _ =>
      dsimp only
      decide

/-- A rejection has a reason. -/
theorem Instance.reason_ne_nil {inst : Instance} {nv : NodeView} {poolSaturated reject : Bool}
    {reason : Text} (h : inst.evaluate nv poolSaturated = some (reject, reason)) (hreject : reject = true) :
    reason ≠ [] := by
  unfold Instance.evaluate at h
  split at h
  · have hreason := evaluateHealth_reason nv
    rw [Option.some.inj h] at hreason
    exact hreason hreject
  · have hreason := evaluateLag_reason nv inst.parameters
    rw [Option.some.inj h] at hreason
    exact hreason hreject
  · have hreason : (poolRejectionMap poolSaturated).1 = true → (poolRejectionMap poolSaturated).2 ≠ [] := by
      cases poolSaturated <;> decide
    rw [Option.some.inj h] at hreason
    exact hreason hreject
  · cases h

variable {v : Visits policies}

/-- No policy is visited twice in a call. -/
theorem Visits.eq_of_name (v : Visits policies) {visit other : Instance × Time} (h : visit ∈ v.order)
    (hother : other ∈ v.order) (hname : visit.1.name = other.1.name) : visit = other := by
  have hnames := (v.perm.map Instance.name).nodup_iff.mpr (newEngine policies).nodup_names
  rw [List.map_map] at hnames
  exact List.inj_on_of_nodup_map hnames h hother hname

/-- A visit of another policy or node leaves a state alone. -/
theorem perNodeState_judge_of_ne {p : Publisher} {now : Time} {nv : NodeView} {poolSaturated : Bool}
    {inst : Instance} {policyName nodeID : Text}
    (h : inst.name = policyName → nv.id = nodeID → inst.evaluate nv poolSaturated = none) :
    (p.judge now nv poolSaturated inst).engine.perNodeState policyName nodeID =
      p.engine.perNodeState policyName nodeID := by
  rw [engine_judge, Engine.judge]
  split
  next hjudged =>
    rw [Engine.perNodeState_record, if_neg]
    rintro ⟨rfl, rfl⟩
    rw [h rfl rfl] at hjudged
    cases hjudged
  next => rfl

/-- A call leaves the state of a pair alone that it does not judge. -/
theorem perNodeState_publishStep_of_ne (p : Publisher) {policyName nodeID : Text}
    (h : ∀ visit ∈ v.order, visit.1.name = policyName → v.view.id = nodeID →
      visit.1.evaluate v.view v.poolSaturated = none) :
    (publishStep p v).engine.perNodeState policyName nodeID = p.engine.perNodeState policyName nodeID :=
  foldl_frame (fun p : Publisher => p.engine.perNodeState policyName nodeID)
    (fun _ visit hvisit => perNodeState_judge_of_ne (h visit hvisit)) p

/-- A call changes the state of a pair that it judges by the verdict. -/
theorem perNodeState_publishStep (p : Publisher) {inst : Instance} {now : Time}
    (hvisit : (inst, now) ∈ v.order) {reject : Bool} {reason : Text}
    (hjudged : inst.evaluate v.view v.poolSaturated = some (reject, reason)) :
    (publishStep p v).engine.perNodeState inst.name v.view.id =
      some (((p.engine.perNodeState inst.name v.view.id).getD .clean).transition inst now reject
        reason) := by
  have hnodup : v.order.Nodup :=
    List.Nodup.of_map Prod.fst (v.perm.nodup_iff.mpr (List.Nodup.of_map _ (newEngine policies).nodup_names))
  refine foldl_focus (fun _ => True) (fun p : Publisher => p.engine.perNodeState inst.name v.view.id)
    (fun pns => some ((pns.getD .clean).transition inst now reject reason)) hvisit hnodup
    (fun _ _ _ _ => trivial) (fun p other hother hne => ?_) (fun p _ => ?_) trivial
  · refine perNodeState_judge_of_ne fun hname => absurd ?_ hne
    exact v.eq_of_name hother hvisit hname
  · rw [engine_judge, Engine.judge, hjudged]
    exact (p.engine.perNodeState_record _ _ _ _ _).trans (if_pos ⟨rfl, rfl⟩)

/-- The rejection of a pair that a call judges. -/
theorem Visits.rejection_of_judged {inst : Instance} {now : Time} (hvisit : (inst, now) ∈ v.order)
    {reject : Bool} {reason : Text}
    (hjudged : inst.evaluate v.view v.poolSaturated = some (reject, reason)) :
    v.rejection inst.name v.view.id = if reject then some reason else none := by
  rw [Visits.rejection, if_pos rfl]
  cases hfind : v.order.find? fun visit => visit.1.name == inst.name with
  | none => exact absurd (beq_self_eq_true _) (List.find?_eq_none.mp hfind _ hvisit)
  | some visit =>
    have hname : visit.1.name = inst.name := by simpa using List.find?_some hfind
    rw [v.eq_of_name (List.mem_of_find?_eq_some hfind) hvisit hname, Option.bind_some, hjudged]
    cases reject <;> rfl

/-- A pair that a call does not judge is not rejected. -/
theorem Visits.rejection_of_ne {policyName nodeID : Text}
    (h : ∀ visit ∈ v.order, visit.1.name = policyName → v.view.id = nodeID →
      visit.1.evaluate v.view v.poolSaturated = none) : v.rejection policyName nodeID = none := by
  unfold Visits.rejection
  split_ifs with hnode
  · cases hfind : v.order.find? fun visit => visit.1.name == policyName with
    | none => rfl
    | some visit =>
      have hname : visit.1.name = policyName := by simpa using List.find?_some hfind
      rw [Option.bind_some, h visit (List.mem_of_find?_eq_some hfind) hname hnode]
  · rfl

/-- A call judges a pair, or leaves it alone. -/
theorem Visits.judged_or (v : Visits policies) (policyName nodeID : Text) :
    (∃ inst now reject reason, (inst, now) ∈ v.order ∧
      inst.evaluate v.view v.poolSaturated = some (reject, reason) ∧ policyName = inst.name ∧
        nodeID = v.view.id) ∨
    ∀ visit ∈ v.order, visit.1.name = policyName → v.view.id = nodeID →
      visit.1.evaluate v.view v.poolSaturated = none := by
  refine or_iff_not_imp_right.mpr fun h => ?_
  push Not at h
  obtain ⟨⟨inst, now⟩, hvisit, rfl, rfl, hjudged⟩ := h
  obtain ⟨⟨reject, reason⟩, hverdict⟩ := Option.ne_none_iff_exists'.mp hjudged
  exact ⟨inst, now, reject, reason, hvisit, hverdict, rfl, rfl⟩

/-- Whether a state explains itself, given the latest rejection. -/
def PerNodeState.Explained (pns : PerNodeState) (latest : Option Text) : Prop :=
  match pns.state with
  | .clean | .pending => pns.lastCondition = []
  | .active | .releasing => pns.lastCondition ≠ [] ∧ latest = some pns.lastCondition

/-- The contract is one of the state of the pair. -/
theorem keepsContract_iff_explained {m : Remembering} {policyName nodeID : Text} :
    KeepsContract m policyName nodeID ↔
      ((m.publisher.engine.perNodeState policyName nodeID).getD .clean).Explained
        (m.latestRejection policyName nodeID) := by
  unfold KeepsContract Engine.evaluatePolicyState
  cases m.publisher.engine.perNodeState policyName nodeID with
  | none => exact iff_of_true rfl rfl
  | some pns =>
    obtain ⟨state, enteredAt, lastCondition⟩ := pns
    cases state <;> rfl

/-- A settled state explains itself. -/
theorem PerNodeState.Settled.explained {pns : PerNodeState} {latest : Option Text}
    (h : pns.Settled latest) : pns.Explained latest := by
  cases h with
  | clean since => rfl
  | active since hreason => exact ⟨hreason, rfl⟩

/-- A verdict on a settled state leaves one that explains itself exactly if it stands by the verdicts
before it: any other lets the node wait, or leaves it excluded for an old reason. -/
theorem PerNodeState.Settled.explained_iff {pns : PerNodeState} {latest : Option Text}
    (h : pns.Settled latest) (inst : Instance) (now : Time) {reject : Bool} {reason : Text}
    (hreason : reject = true → reason ≠ []) :
    (pns.transition inst now reject reason).Explained
        ((if reject then some reason else none).or latest) ↔
      inst.StandsBy latest reject reason := by
  cases h with
  | clean since =>
    cases reject with
    | false => simp [PerNodeState.transition, PerNodeState.Explained, Instance.StandsBy]
    | true =>
      have hne := hreason rfl
      by_cases hdwell : milliseconds inst.dwellMs = 0 <;>
        simp [PerNodeState.transition, PerNodeState.Explained, Instance.StandsBy, hdwell, hne]
  | active since hcondition =>
    cases reject with
    | false => simp [PerNodeState.transition, PerNodeState.Explained, Instance.StandsBy]
    | true =>
      simp [PerNodeState.transition, PerNodeState.Explained, Instance.StandsBy, hcondition, eq_comm]

/-- A verdict that stands by those before it leaves a settled state. -/
theorem PerNodeState.Settled.transition {pns : PerNodeState} {latest : Option Text}
    (h : pns.Settled latest) {inst : Instance} (now : Time) {reject : Bool} {reason : Text}
    (hreason : reject = true → reason ≠ []) (hstands : inst.StandsBy latest reject reason) :
    (pns.transition inst now reject reason).Settled
      ((if reject then some reason else none).or latest) := by
  cases h with
  | clean since =>
    cases reject with
    | false => exact .clean since
    | true =>
      simp only [PerNodeState.transition, hstands rfl, if_true]
      exact .active now (hreason rfl)
  | active since hcondition =>
    obtain ⟨rfl, rfl⟩ := hstands
    exact .active since hcondition

/-- A call keeps the contract exactly if its verdicts stand by those before them. -/
theorem Remembers.keepsContract_iff {m : Remembering} (hm : Remembers m) (v : Visits policies) :
    (∀ policyName nodeID, KeepsContract (rememberStep m v) policyName nodeID) ↔ StandsByAll m v := by
  have hjudge : ∀ {inst now reject reason}, (inst, now) ∈ v.order →
      inst.evaluate v.view v.poolSaturated = some (reject, reason) →
        (KeepsContract (rememberStep m v) inst.name v.view.id ↔
          inst.StandsBy (m.latestRejection inst.name v.view.id) reject reason) := by
    intro inst now reject reason hvisit hjudged
    rw [keepsContract_iff_explained, latestRejection_rememberStep, Visits.rejection_of_judged hvisit hjudged]
    simp only [rememberStep, perNodeState_publishStep _ hvisit hjudged, Option.getD_some]
    exact (hm _ _).explained_iff inst now (inst.reason_ne_nil hjudged)
  constructor
  · intro h inst now reject reason hvisit hjudged
    exact (hjudge hvisit hjudged).mp (h _ _)
  · intro h policyName nodeID
    obtain ⟨inst, now, reject, reason, hvisit, hjudged, rfl, rfl⟩ | hother :=
      v.judged_or policyName nodeID
    · exact (hjudge hvisit hjudged).mpr (h inst now reject reason hvisit hjudged)
    · rw [keepsContract_iff_explained, latestRejection_rememberStep, Visits.rejection_of_ne hother,
        Option.none_or]
      simp only [rememberStep, perNodeState_publishStep_of_ne _ hother]
      exact (hm policyName nodeID).explained

/-- A call whose verdicts stand by those before them leaves settled states. -/
theorem Remembers.step {m : Remembering} (hm : Remembers m) {v : Visits policies}
    (hstands : StandsByAll m v) : Remembers (rememberStep m v) := by
  intro policyName nodeID
  rw [latestRejection_rememberStep]
  obtain ⟨inst, now, reject, reason, hvisit, hjudged, rfl, rfl⟩ | hother :=
    v.judged_or policyName nodeID
  · rw [Visits.rejection_of_judged hvisit hjudged]
    simp only [rememberStep, perNodeState_publishStep _ hvisit hjudged, Option.getD_some]
    exact (hm _ _).transition now (inst.reason_ne_nil hjudged) (hstands inst now reject reason hvisit hjudged)
  · rw [Visits.rejection_of_ne hother, Option.none_or]
    simp only [rememberStep, perNodeState_publishStep_of_ne _ hother]
    exact hm policyName nodeID

end

/-- For every sequence of evaluations: an eligible node is without a reason and the reason of an excluded
one is that of its latest rejection, for every policy and node after every evaluation, exactly if every
first rejection of a node by a policy comes from one without a dwell time and is followed by rejections
for the same reason only. -/
theorem reason_contract_iff (policies : List Instance) (calls : List (Visits policies)) :
    Throughout rememberStep
        (fun m v => ∀ policyName nodeID, KeepsContract (rememberStep m v) policyName nodeID)
        (remembering policies) calls ↔
      Throughout rememberStep StandsByAll (remembering policies) calls := by
  refine throughout_congr_of_ok (I := Remembers) ?_ ?_ ?_
  · intro m v hm hkept
    exact hm.step ((hm.keepsContract_iff v).mp hkept)
  · intro m v hm
    exact hm.keepsContract_iff v
  · intro policyName nodeID
    exact .clean _

/-- A call that visits the policies in the order of their names at one time. -/
def Visits.inOrder (policies : List Instance) (now : Time) (view : NodeView) (poolSaturated : Bool) :
    Visits policies where
  order := (engineInstances policies).map fun inst => (inst, now)
  perm := by simp [Function.comp_def]
  view := view
  poolSaturated := poolSaturated

/-- A node that is down. -/
def downNode : NodeView :=
  ⟨text "n", text "db", 5432, .replica, .replica, .down, [], 1, none, none, .unknown, 1, 2000, 5000, 2000⟩

/-- A node that was found down once is eligible with a reason; a node whose pool was saturated once is
excluded without one. -/
theorem reasons_of_waiting_nodes :
    let calls := [Visits.inOrder [] 0 downNode true, Visits.inOrder [] 1000000 downNode false]
    let m := run rememberStep (remembering []) calls
    m.publisher.engine.evaluatePolicyState (text "default-health-filter") (text "n") =
        (true, text "liveness:down") ∧
      m.publisher.engine.evaluatePolicyState (text "default-pool-saturation-rejection") (text "n") =
        (false, []) := by
  decide

end Grunyas.Policy
