import Grunyas.Config.Policies
import Grunyas.Policy.Hysteresis

/-!
# The scope of a policy

A policy may be configured for one node. The scope is validated, kept and published, but
`EvaluateNode` does not read it. `node_scope_respected_iff` says when this makes no difference.
-/

namespace Grunyas.Policy

open GoText Grunyas.Server Grunyas.Cluster Grunyas.Config Machine

/-- An instance with the scope of a node, of an engine with accepted policies. -/
structure NodeScoped (cfg : AcceptedPolicies) where
  inst : Instance
  mem : inst ∈ cfg.engine.instances
  node : NodeID
  scope : inst.scope = text "node:" ++ node

/-- The instance is clean for every other node than its own, and leaves it eligible. -/
def TouchesOnly (inst : Instance) (node : NodeID) (e : Engine) : Prop :=
  ∀ other, other ≠ node →
    (e.candidateState inst.name other).1 = .clean ∧ e.isEligible inst.name other = true

/-- The instance rejects the node of a call. -/
def Evaluation.RejectedBy (inst : Instance) (c : Evaluation) : Prop :=
  ∃ reason, inst.evaluate c.view c.poolSaturated = some (true, reason)

variable {inst : Instance} {node : NodeID} {e : Engine}

/-- An instance is clean for a node exactly if its state is. -/
theorem touchesOnly_iff : TouchesOnly inst node e ↔
    ∀ other, other ≠ node → ((e.perNodeState inst.name other).getD .clean).state = .clean := by
  refine forall₂_congr fun other hother => ?_
  unfold Engine.candidateState Engine.isEligible
  cases e.perNodeState inst.name other with
  | none => simp [PerNodeState.clean]
  | some pns => cases hstate : pns.state <;> simp [hstate]

/-- A judgement leaves a clean state clean exactly if it is no rejection. -/
theorem PerNodeState.transition_clean_iff {pns : PerNodeState} (h : pns.state = .clean) (now : Time)
    (reject : Bool) (reason : Text) :
    (pns.transition inst now reject reason).state = .clean ↔ reject = false := by
  cases reject with
  | false => simp [PerNodeState.transition, h]
  | true => by_cases hdwell : milliseconds inst.dwellMs = 0 <;> simp [PerNodeState.transition, h, hdwell]

/-- A call keeps the instance to its node exactly if it does not evaluate another one to a rejection. -/
theorem touchesOnly_evaluateStep_iff (hinst : inst ∈ e.instances) (h : TouchesOnly inst node e)
    (c : Evaluation) :
    TouchesOnly inst node (evaluateStep e c) ↔ (c.view.id ≠ node → ¬c.RejectedBy inst) := by
  rw [touchesOnly_iff] at h ⊢
  constructor
  · rintro hkept hother ⟨reason, hrejected⟩
    have hclean := hkept c.view.id hother
    rw [perNodeState_evaluateStep _ hinst, Evaluation.judgement, if_pos rfl, hrejected] at hclean
    cases (PerNodeState.transition_clean_iff (h c.view.id hother) c.now true reason).mp hclean
  · intro haccepts other hother
    rw [perNodeState_evaluateStep _ hinst, Evaluation.judgement]
    split_ifs with hid
    · subst hid
      rcases hjudged : inst.evaluate c.view c.poolSaturated with _ | ⟨_ | _, reason⟩
      · exact h c.view.id hother
      · exact (PerNodeState.transition_clean_iff (h c.view.id hother) c.now false reason).mpr rfl
      · exact absurd ⟨reason, hjudged⟩ (haccepts hother)
    · exact h other hother

/-- For every accepted configuration, every instance with the scope of a node and every sequence of
evaluations: the instance is clean for all other nodes throughout, and leaves them eligible, exactly if
none of the evaluations of another node is a rejection by the instance. -/
theorem node_scope_respected_iff (cfg : AcceptedPolicies) (s : NodeScoped cfg)
    (calls : List Evaluation) :
    Throughout evaluateStep (fun e c => TouchesOnly s.inst s.node (evaluateStep e c)) cfg.engine calls ↔
      ∀ c ∈ calls, c.view.id ≠ s.node → ¬c.RejectedBy s.inst := by
  have hnew : TouchesOnly s.inst s.node cfg.engine := fun other _ => ⟨rfl, rfl⟩
  have hkept (e : Engine) (c : Evaluation) (hinst : s.inst ∈ e.instances) :
      s.inst ∈ (evaluateStep e c).instances := by
    rwa [evaluateStep, Engine.instances_evaluateNode]
  -- As long as the instance is clean for the other nodes, a call keeps it so unless it rejects one.
  have hcalls : Throughout evaluateStep (fun e c => TouchesOnly s.inst s.node (evaluateStep e c))
      cfg.engine calls ↔ Throughout evaluateStep (fun _ c => c.view.id ≠ s.node → ¬c.RejectedBy s.inst)
      cfg.engine calls :=
    throughout_congr_of_ok (I := fun e => s.inst ∈ e.instances ∧ TouchesOnly s.inst s.node e)
      (fun e c h htouches => ⟨hkept e c h.1, htouches⟩)
      (fun e c h => touchesOnly_evaluateStep_iff h.1 h.2 c) ⟨s.mem, hnew⟩
  exact hcalls.trans throughout_iff_forall

/-- A health filter for the node `x`, without a dwell time. -/
def onlyX : AcceptedPolicies where
  intervalMs := 1000
  policies := [⟨text "only-x", text "health-filter", text "node:x", [], 0, 0⟩]
  interval := by decide
  accepted := by decide

/-- The instance of the filter. -/
def onlyXInstance : NodeScoped onlyX where
  inst := ⟨text "only-x", .healthFilter, text "node:x", [], 0, 0⟩
  mem := by decide
  node := text "x"
  scope := by decide

/-- One evaluation of the node `y`, which is down, and the filter for `x` excludes `y`. -/
theorem node_scope_ignored :
    let e := run evaluateStep onlyX.engine [⟨0, downView (text "y"), false⟩]
    (e.candidateState onlyXInstance.inst.name (text "y")).1 = .active ∧
      e.isEligible onlyXInstance.inst.name (text "y") = false := by
  decide

end Grunyas.Policy
