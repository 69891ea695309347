import Grunyas.Machine.Run
import Grunyas.Machine.Streaks
import Grunyas.Policy.Transitions
import Mathlib.Algebra.Order.Group.Int

/-!
# Dwell in, release out

An instance keeps one state and one instant for a node. `isEligible_iff_held` says what the two
amount to: the node is excluded exactly if the instance has rejected it for the dwell time, in
evaluations without interruption, and not accepted it for the release time since.
-/

namespace Grunyas.Policy

open GoText GoMap Grunyas.Server Grunyas.Cluster Machine

/-- Whether a policy leaves a node eligible. -/
def Engine.isEligible (e : Engine) (policyName nodeID : Text) : Bool :=
  match e.perNodeState policyName nodeID with
  | some pns => pns.state != .active && pns.state != .releasing
  | none => true

/-- A call of `EvaluateNode`, with the time that its clock shows. -/
structure Evaluation where
  now : Time
  view : NodeView
  poolSaturated : Bool

/-- The engine after a call. -/
def evaluateStep (e : Engine) (c : Evaluation) : Engine := e.evaluateNode c.now c.view c.poolSaturated

/-- A judgement of an instance on a node. -/
structure Judgement where
  now : Time
  reject : Bool
  reason : Text
  deriving DecidableEq, Repr

/-- The judgement of an instance in a call, if the call is about the node. -/
def Evaluation.judgement (inst : Instance) (id : NodeID) (c : Evaluation) : Option Judgement :=
  if c.view.id = id then
    (inst.evaluate c.view c.poolSaturated).map fun verdict => ⟨c.now, verdict.1, verdict.2⟩
  else none

/-- The judgements of an instance on a node. -/
def judgements (inst : Instance) (id : NodeID) (calls : List Evaluation) : List Judgement :=
  calls.filterMap (Evaluation.judgement inst id)

/-- The time of a judgement, from the first one, which has number zero. -/
def timeOf (history : List Judgement) (i : ℕ) : Time := (history[i]?.map Judgement.now).getD 0

/-- Whether a judgement is a rejection. -/
def rejects (history : List Judgement) (i : ℕ) : Bool := (history[i]?.map Judgement.reject).getD false

/-- The state after one judgement. -/
def PerNodeState.judged (inst : Instance) (pns : PerNodeState) (j : Judgement) : PerNodeState :=
  pns.transition inst j.now j.reject j.reason

/-- The first judgements of an instance hold a node. -/
def HeldBy (inst : Instance) (time : ℕ → Time) (reject : ℕ → Bool) (n : ℕ) : Prop :=
  Held time reject (milliseconds inst.dwellMs) (milliseconds inst.releaseMs) n

/-- How the state of an instance for a node relates to its first judgements. In the two states that
wait, the instant is the one at which the last streak began. -/
inductive Tracks (inst : Instance) (time : ℕ → Time) (reject : ℕ → Bool) (n : ℕ) : PerNodeState → Prop
  | clean {since : Time} {reason : Text} (hfree : ¬HeldBy inst time reject n)
      (hlast : ∀ j, j + 1 = n → reject j ≠ true) : Tracks inst time reject n ⟨.clean, since, reason⟩
  | pending {since : Time} {reason : Text} (hfree : ¬HeldBy inst time reject n)
      (hends : EndsIn time reject true since n) : Tracks inst time reject n ⟨.pending, since, reason⟩
  | active {since : Time} {reason : Text} (hheld : HeldBy inst time reject n)
      (hlast : ∀ j, j + 1 = n → reject j ≠ false) : Tracks inst time reject n ⟨.active, since, reason⟩
  | releasing {since : Time} {reason : Text} (hheld : HeldBy inst time reject n)
      (hends : EndsIn time reject false since n) : Tracks inst time reject n ⟨.releasing, since, reason⟩

section

variable {inst : Instance} {time : ℕ → Time} {reject : ℕ → Bool} {n : ℕ} {pns : PerNodeState}

/-- A node is excluded exactly if it is held. -/
theorem Tracks.excluded_iff (h : Tracks inst time reject n pns) :
    (pns.state != .active && pns.state != .releasing) = false ↔ HeldBy inst time reject n := by
  cases h with
  | clean hfree => simpa using hfree
  | pending hfree => simpa using hfree
  | active hheld => simpa using hheld
  | releasing hheld => simpa using hheld

/-- After a verdict, the last one is not the other. -/
theorem last_succ {value other : Bool} (hn : reject n = value) (hne : value ≠ other) :
    ∀ j, j + 1 = n + 1 → reject j ≠ other := by
  intro j hj
  obtain rfl : j = n := by omega
  rwa [hn]

/-- A rejection is tracked. -/
theorem Tracks.succ_of_reject (h : Tracks inst time reject n pns) (hdwell : 0 ≤ milliseconds inst.dwellMs)
    (hmono : ∀ i j, i ≤ j → j ≤ n → time i ≤ time j) (hn : reject n = true) (reason : Text) :
    Tracks inst time reject (n + 1) (pns.transition inst (time n) true reason) := by
  have hlast := last_succ hn (by decide : true ≠ false)
  have hgrows : HeldBy inst time reject n → HeldBy inst time reject (n + 1) :=
    fun hheld => (held_succ_of_true hn).mpr (.inl hheld)
  have hstays (hfree : ¬HeldBy inst time reject n) (hshort : ∀ a ≤ n, Streak reject true a n →
      ¬milliseconds inst.dwellMs ≤ time n - time a) : ¬HeldBy inst time reject (n + 1) := by
    intro hheld
    obtain hheld | ⟨a, ha, hstreak, hlong⟩ := (held_succ_of_true hn).mp hheld
    · exact hfree hheld
    · exact hshort a ha hstreak hlong
  cases h with
  | clean hfree hclean =>
    simp only [PerNodeState.transition, if_true]
    by_cases hzero : milliseconds inst.dwellMs = 0
    · rw [if_pos hzero]
      refine .active ((held_succ_of_true hn).mpr (.inr ⟨n, le_rfl, fun i hni hi => ?_, ?_⟩)) hlast
      · rw [le_antisymm hi hni, hn]
      · simp [hzero]
    · rw [if_neg hzero]
      refine .pending (hstays hfree fun a ha hstreak hlong => ?_) (.begin hclean hn)
      -- The streak is the last rejection alone, and the dwell time is positive.
      obtain rfl := eq_of_streak hclean ha hstreak
      have hpositive : 0 < milliseconds inst.dwellMs := lt_of_le_of_ne hdwell (Ne.symm hzero)
      exact absurd hlong (by simpa using hpositive)
  | @pending since _ hfree hends =>
    simp only [PerNodeState.transition, if_true]
    by_cases hpassed : milliseconds inst.dwellMs ≤ time n - since
    · rw [if_pos hpassed]
      obtain ⟨a, ha, hstreak⟩ := hends.exists_streak hn hpassed
      exact .active ((held_succ_of_true hn).mpr (.inr ⟨a, ha.le, hstreak⟩)) hlast
    · rw [if_neg hpassed]
      refine .pending (hstays hfree fun a ha hstreak hlong => ?_) (hends.succ hn)
      exact hpassed (hends.le_of_lasts hmono ha hstreak hlong)
  | active hheld => exact .active (hgrows hheld) hlast
  | releasing hheld => exact .active (hgrows hheld) hlast

/-- An acceptance is tracked. -/
theorem Tracks.succ_of_accept (h : Tracks inst time reject n pns)
    (hmono : ∀ i j, i ≤ j → j ≤ n → time i ≤ time j) (hn : reject n = false) (reason : Text) :
    Tracks inst time reject (n + 1) (pns.transition inst (time n) false reason) := by
  have hlast := last_succ hn (by decide : false ≠ true)
  have hshrinks : ¬HeldBy inst time reject n → ¬HeldBy inst time reject (n + 1) :=
    fun hfree hheld => hfree ((held_succ_of_false hn).mp hheld).1
  cases h with
  | clean hfree => exact .clean (hshrinks hfree) hlast
  | pending hfree => exact .clean (hshrinks hfree) hlast
  | active hheld hactive =>
    refine .releasing ((held_succ_of_false hn).mpr ⟨hheld, ?_⟩) (.begin hactive hn)
    -- The first acceptance is no streak of two.
    rintro ⟨c, hc, hstreak, -⟩
    exact hc.ne (eq_of_streak hactive hc.le hstreak)
  | @releasing since _ hheld hends =>
    simp only [PerNodeState.transition, Bool.false_eq_true, if_false]
    by_cases hpassed : milliseconds inst.releaseMs = 0 ∨ milliseconds inst.releaseMs ≤ time n - since
    · rw [if_pos hpassed]
      refine .clean (fun hheld => ?_) hlast
      refine ((held_succ_of_false hn).mp hheld).2 (hends.exists_streak hn ?_)
      rcases hpassed with hzero | hpassed
      · obtain ⟨k, hk, rfl, -⟩ := hends
        rw [hzero]
        exact sub_nonneg.mpr (hmono k n hk.le le_rfl)
      · exact hpassed
    · rw [if_neg hpassed]
      refine .releasing ((held_succ_of_false hn).mpr ⟨hheld, ?_⟩) (hends.succ hn)
      rintro ⟨c, hc, hstreak, hlong⟩
      exact hpassed (.inr (hends.le_of_lasts hmono hc.le hstreak hlong))

end

section

variable {inst : Instance}

/-- The times of a history do not decrease. -/
theorem timeOf_le_timeOf {history : List Judgement}
    (h : history.Pairwise fun first second => first.now ≤ second.now) {i j : ℕ} (hij : i ≤ j)
    (hj : j < history.length) : timeOf history i ≤ timeOf history j := by
  have hi : i < history.length := hij.trans_lt hj
  obtain hij | rfl := hij.lt_or_eq
  · simpa [timeOf, hi, hj] using List.pairwise_iff_getElem.mp h i j hi hj hij
  · exact le_rfl

/-- The first judgements of a history are tracked. -/
theorem tracks_take (hdwell : 0 ≤ milliseconds inst.dwellMs) {history : List Judgement}
    (h : history.Pairwise fun first second => first.now ≤ second.now) {n : ℕ}
    (hn : n ≤ history.length) :
    Tracks inst (timeOf history) (rejects history) n
      ((history.take n).foldl (.judged inst) .clean) := by
  induction n with
  | zero => exact .clean not_held_zero fun j hj => by omega
  | succ n ih =>
    have hmono (i j : ℕ) (hij : i ≤ j) (hj : j ≤ n) : timeOf history i ≤ timeOf history j :=
      timeOf_le_timeOf h hij (by omega)
    have htracks := ih (by omega)
    rw [List.take_succ_eq_append_getElem hn, List.foldl_append]
    have htime : timeOf history n = history[n].now := by simp [timeOf, Nat.lt_of_succ_le hn]
    have hverdict : rejects history n = history[n].reject := by simp [rejects, Nat.lt_of_succ_le hn]
    simp only [List.foldl_cons, List.foldl_nil, PerNodeState.judged, ← htime]
    cases hreject : history[n].reject with
    | true => exact htracks.succ_of_reject hdwell hmono (hverdict.trans hreject) _
    | false => exact htracks.succ_of_accept hmono (hverdict.trans hreject) _

/-- A call changes the state of an instance for a node by the judgement it makes, if any. -/
theorem perNodeState_evaluateStep (id : NodeID) {e : Engine} (hinst : inst ∈ e.instances)
    (c : Evaluation) : ((evaluateStep e c).perNodeState inst.name id).getD .clean =
      (c.judgement inst id).toList.foldl (.judged inst) ((e.perNodeState inst.name id).getD .clean) := by
  unfold evaluateStep Evaluation.judgement
  by_cases hid : c.view.id = id
  · subst hid
    cases hjudged : inst.evaluate c.view c.poolSaturated with
    | none => simp [e.perNodeState_evaluateNode_of_none c.now hinst hjudged]
    | some verdict =>
      simp [e.perNodeState_evaluateNode c.now c.view c.poolSaturated hinst hjudged, PerNodeState.judged]
  · simp [hid, e.perNodeState_evaluateNode_of_ne c.now c.poolSaturated inst.name (Ne.symm hid)]

/-- The state of an instance for a node is what its judgements make of it. -/
theorem perNodeState_run (id : NodeID) {e : Engine} (hinst : inst ∈ e.instances)
    (calls : List Evaluation) :
    ((run evaluateStep e calls).perNodeState inst.name id).getD .clean =
      (judgements inst id calls).foldl (.judged inst) ((e.perNodeState inst.name id).getD .clean) := by
  induction calls generalizing e with
  | nil => rfl
  | cons c rest ih =>
    have hkept : inst ∈ (evaluateStep e c).instances := by simpa [evaluateStep] using hinst
    rw [run_cons, ih hkept, perNodeState_evaluateStep id hinst, ← List.foldl_append]
    cases hjudged : c.judgement inst id <;> simp [judgements, hjudged]

end

/-- A node that a policy excludes has a state. -/
theorem Engine.isEligible_eq (e : Engine) (policyName nodeID : Text) :
    e.isEligible policyName nodeID =
      (((e.perNodeState policyName nodeID).getD .clean).state != .active &&
        ((e.perNodeState policyName nodeID).getD .clean).state != .releasing) := by
  unfold Engine.isEligible
  cases e.perNodeState policyName nodeID <;> rfl

/-- For every engine, every instance with a dwell time that is not negative, every node and every
sequence of evaluations of any nodes at times that do not decrease: the instance excludes the node
exactly if its judgements number `a` to `b` were rejections, over the dwell time, and since then no two
or more judgements `c` to `d` were acceptances over the release time. -/
theorem isEligible_iff_held (policies : List Instance) {inst : Instance}
    (hinst : inst ∈ (newEngine policies).instances) (hdwell : 0 ≤ milliseconds inst.dwellMs) (id : NodeID)
    (calls : List Evaluation)
    (htimes : (judgements inst id calls).Pairwise fun first second => first.now ≤ second.now) :
    (run evaluateStep (newEngine policies) calls).isEligible inst.name id = false ↔
      let history := judgements inst id calls
      Held (timeOf history) (rejects history) (milliseconds inst.dwellMs) (milliseconds inst.releaseMs)
        history.length := by
  have htracks := tracks_take hdwell htimes le_rfl
  have hnew : (newEngine policies).perNodeState inst.name id = none := rfl
  rw [List.take_length] at htracks
  rw [Engine.isEligible_eq, perNodeState_run id hinst, hnew]
  exact htracks.excluded_iff

/-- The view of a node that is down. -/
def downView (id : NodeID) : NodeView where
  id := id
  host := text "db"
  port := 5432
  declaredRole := .replica
  observedRole := .replica
  liveness := .down
  systemID := []
  lastProbeAt := 0
  lastProbeErr := none
  replicationLagMs := none
  replicationLagState := .notApplicable
  lastLagSampleAt := 0
  livenessMaxAgeMs := 2000
  observedRoleMaxAgeMs := 5000
  replicationLagMaxAgeMs := 2000

/-- The default health filter excludes a node that is down over five seconds. -/
theorem isEligible_iff_held_down :
    (run evaluateStep (newEngine []) [⟨0, downView (text "a"), false⟩,
      ⟨milliseconds 5000, downView (text "a"), false⟩]).isEligible (text "default-health-filter")
        (text "a") = false := by
  have hinst : (⟨text "default-health-filter", .healthFilter, text "cluster", [], 5000, 5000⟩ : Instance) ∈
      (newEngine []).instances := by decide
  refine (isEligible_iff_held [] hinst (by decide) (text "a") _ (by decide)).mpr
    ⟨0, 1, by decide, by decide, ?_, by decide, ?_⟩
  · intro i _ hi
    obtain rfl | rfl : i = 0 ∨ i = 1 := by omega
    · decide
    · decide
  · rintro ⟨c, d, hbc, hcd, hd, -⟩
    have hlen : d < 2 := hd
    omega

end Grunyas.Policy
