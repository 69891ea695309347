import Grunyas.Go.Json
import Grunyas.Policy.Transitions
import Mathlib.Data.Rat.Init

/-!
# Configured policies

The part of `Config.Validate` that checks the policies, and the loop of `main` that makes instances
of them. `policyErrors_eq_nil_iff` says what is accepted. The other parts of the configuration
matter for the policies through the interval of the probes only. The loop knows two of the types that a
number can have, and `int64` is not one of them: `integer_parameters_dropped`.
-/

namespace Grunyas.Config

open GoText Grunyas.Policy

/-- The value of a parameter, by its Go type: a number, a string, a truth value, a `float64` that is no
number, or a value of another type (a time, an array, a table) with what it marshals to, if it does. -/
inductive ParameterValue where
  | float64 (v : ℚ)
  | int (v : ℤ)
  | int64 (v : ℤ)
  | string (v : Text)
  | bool (v : Bool)
  | notFinite
  | other (json : Option GoJson.Json)

/-- A policy of the configuration. -/
structure PolicyConfig where
  name : Text
  template : Text
  scope : Text
  parameters : List (Text × ParameterValue)
  dwellMs : ℤ
  releaseMs : ℤ

/-- The template of a name. -/
def templateOf (name : Text) : Template :=
  if name = text "health-filter" then .healthFilter
  else if name = text "lag-filter" then .lagFilter
  else if name = text "pool-saturation-rejection" then .poolSaturation
  else .other name

/-- The scope names a node. -/
def isValidNodeScope (scope : Text) : Bool := decide (5 < scope.length) && scope.take 5 == text "node:"

/-- A number in an error message. -/
def formatInt (n : ℤ) : Text := text (toString n)

/-- An error of a field of a policy. -/
def fieldError (i : ℕ) (message : Text) : Text :=
  text "policies[" ++ formatInt i ++ text "]" ++ message

/-- The errors of the name, given the names of the policies before it. -/
def nameErrors (seen : List Text) (i : ℕ) (pol : PolicyConfig) : List Text :=
  if pol.name = [] then [fieldError i (text ".name is required")]
  else if seen.contains pol.name then
    [fieldError i (text ".name '" ++ pol.name ++ text "' is duplicate")]
  else []

/-- The errors of the template. -/
def templateErrors (i : ℕ) (pol : PolicyConfig) : List Text :=
  if pol.template = text "health-filter" ∨ pol.template = text "lag-filter" ∨
      pol.template = text "pool-saturation-rejection" then []
  else if pol.template = [] then [fieldError i (text ".template is required")]
  else [fieldError i (text ".template must be one of: health-filter, lag-filter, " ++
    text "pool-saturation-rejection")]

/-- The errors of the scope. -/
def scopeErrors (i : ℕ) (pol : PolicyConfig) : List Text :=
  if pol.scope = text "cluster" ∨ pol.scope = [] then []
  else if isValidNodeScope pol.scope = false then
    [fieldError i (text ".scope must be 'cluster' or 'node:<id>'")]
  else []

/-- The errors of the timing. -/
def timingErrors (intervalMs : ℤ) (i : ℕ) (pol : PolicyConfig) : List Text :=
  (if pol.dwellMs < 0 then [fieldError i (text ".timing.dwell_ms must be >= 0")] else []) ++
  (if pol.releaseMs < 0 then [fieldError i (text ".timing.release_ms must be >= 0")] else []) ++
  (if 0 < pol.dwellMs ∧ pol.dwellMs < intervalMs then
    [fieldError i (text ".timing.dwell_ms must be >= probe.interval_ms (" ++ formatInt intervalMs ++
      text ")")] else [])

/-- The errors of one policy. -/
def policyErrorsAt (intervalMs : ℤ) (seen : List Text) (i : ℕ) (pol : PolicyConfig) : List Text :=
  nameErrors seen i pol ++ templateErrors i pol ++ scopeErrors i pol ++ timingErrors intervalMs i pol

/-- The errors of the policies from some place on, given the names before it. -/
def policyErrorsFrom (intervalMs : ℤ) (seen : List Text) (i : ℕ) : List PolicyConfig → List Text
  | [] => []
  | pol :: rest =>
    policyErrorsAt intervalMs seen i pol ++
      policyErrorsFrom intervalMs (if pol.name = [] then seen else pol.name :: seen) (i + 1) rest

/-- The errors of the policies. -/
def policyErrors (intervalMs : ℤ) (policies : List PolicyConfig) : List Text :=
  policyErrorsFrom intervalMs [] 0 policies

/-- An integer that a parameter denotes for the engine. What is no number becomes the least integer, as
on amd64. -/
def ParameterValue.toInt : ParameterValue → Option ℤ
  | .float64 v => some (v.num.tdiv v.den)
  | .int v => some v
  | .notFinite => some (-2 ^ 63)
  | _ => none

/-- The instance of a policy. -/
def PolicyConfig.toInstance (pol : PolicyConfig) : Instance where
  name := pol.name
  template := templateOf pol.template
  scope := pol.scope
  parameters := pol.parameters.filterMap fun p => p.2.toInt.map fun v => (p.1, v)
  dwellMs := pol.dwellMs
  releaseMs := pol.releaseMs

/-- What the checks ask of a policy by itself. -/
structure PolicyConfig.WellFormed (intervalMs : ℤ) (pol : PolicyConfig) : Prop where
  name : pol.name ≠ []
  template : pol.template = text "health-filter" ∨ pol.template = text "lag-filter" ∨
    pol.template = text "pool-saturation-rejection"
  scope : pol.scope = text "cluster" ∨ pol.scope = [] ∨
    ∃ id, id ≠ [] ∧ pol.scope = text "node:" ++ id
  dwell : pol.dwellMs = 0 ∨ (0 < pol.dwellMs ∧ intervalMs ≤ pol.dwellMs)
  release : 0 ≤ pol.releaseMs

variable {intervalMs : ℤ} {i : ℕ} {pol : PolicyConfig} {seen : List Text}

/-- A scope names a node exactly if something follows the word. -/
theorem isValidNodeScope_iff {scope : Text} :
    isValidNodeScope scope = true ↔ ∃ id, id ≠ [] ∧ scope = text "node:" ++ id := by
  have hlen : (text "node:").length = 5 := by decide
  simp only [isValidNodeScope, Bool.and_eq_true, decide_eq_true_eq, beq_iff_eq]
  constructor
  · rintro ⟨hlong, hword⟩
    refine ⟨scope.drop 5, ?_, ?_⟩
    · intro hnil
      have hdrop := congrArg List.length hnil
      simp only [List.length_drop, List.length_nil] at hdrop
      omega
    · rw [← hword, List.take_append_drop]
  · rintro ⟨id, hid, rfl⟩
    have hpos := List.length_pos_of_ne_nil hid
    refine ⟨?_, ?_⟩
    · rw [List.length_append, hlen]
      omega
    · rw [← hlen, List.take_left]

/-- The name is checked against those before it. -/
theorem nameErrors_eq_nil_iff : nameErrors seen i pol = [] ↔ pol.name ≠ [] ∧ pol.name ∉ seen := by
  unfold nameErrors
  split_ifs with hempty hseen
  · simp [hempty]
  · simpa [hempty] using hseen
  · simpa [hempty] using hseen

/-- The template is checked against the three that there are. -/
theorem templateErrors_eq_nil_iff : templateErrors i pol = [] ↔
    pol.template = text "health-filter" ∨ pol.template = text "lag-filter" ∨
      pol.template = text "pool-saturation-rejection" := by
  unfold templateErrors
  split_ifs with hknown hempty
  · exact iff_of_true rfl hknown
  · exact iff_of_false not_false hknown
  · exact iff_of_false not_false hknown

/-- The scope is the cluster, left out, or a node. -/
theorem scopeErrors_eq_nil_iff : scopeErrors i pol = [] ↔
    pol.scope = text "cluster" ∨ pol.scope = [] ∨ ∃ id, id ≠ [] ∧ pol.scope = text "node:" ++ id := by
  unfold scopeErrors
  rw [← isValidNodeScope_iff, ← or_assoc]
  split_ifs with hcluster hnode
  · exact iff_of_true rfl (.inl hcluster)
  · refine iff_of_false not_false ?_
    rw [hnode]
    simpa using hcluster
  · exact iff_of_true rfl (.inr (Bool.not_eq_false _ ▸ hnode))

/-- The times are not negative, and a dwell time that is not zero is at least a probe interval. -/
theorem timingErrors_eq_nil_iff : timingErrors intervalMs i pol = [] ↔
    (pol.dwellMs = 0 ∨ (0 < pol.dwellMs ∧ intervalMs ≤ pol.dwellMs)) ∧ 0 ≤ pol.releaseMs := by
  simp only [timingErrors, List.append_eq_nil_iff, ite_eq_right_iff, List.cons_ne_nil, imp_false]
  omega

/-- The checks of a policy find nothing exactly if it is well formed and its name is new. -/
theorem policyErrorsAt_eq_nil_iff :
    policyErrorsAt intervalMs seen i pol = [] ↔ pol.WellFormed intervalMs ∧ pol.name ∉ seen := by
  simp only [policyErrorsAt, List.append_eq_nil_iff, nameErrors_eq_nil_iff, templateErrors_eq_nil_iff,
    scopeErrors_eq_nil_iff, timingErrors_eq_nil_iff]
  constructor
  · rintro ⟨⟨⟨⟨hname, hnew⟩, htemplate⟩, hscope⟩, hdwell, hrelease⟩
    exact ⟨⟨hname, htemplate, hscope, hdwell, hrelease⟩, hnew⟩
  · rintro ⟨h, hnew⟩
    exact ⟨⟨⟨⟨h.name, hnew⟩, h.template⟩, h.scope⟩, h.dwell, h.release⟩

/-- The policies are accepted exactly if each is well formed and no two have the same name. -/
theorem policyErrors_eq_nil_iff {policies : List PolicyConfig} :
    policyErrors intervalMs policies = [] ↔
      (∀ pol ∈ policies, pol.WellFormed intervalMs) ∧ (policies.map PolicyConfig.name).Nodup := by
  have hfrom (policies : List PolicyConfig) (seen : List Text) (i : ℕ) :
      policyErrorsFrom intervalMs seen i policies = [] ↔
        (∀ pol ∈ policies, pol.WellFormed intervalMs ∧ pol.name ∉ seen) ∧
          (policies.map PolicyConfig.name).Nodup := by
    induction policies generalizing seen i with
    | nil => simp [policyErrorsFrom]
    | cons pol rest ih =>
      rw [policyErrorsFrom, List.append_eq_nil_iff, policyErrorsAt_eq_nil_iff, ih]
      by_cases hempty : pol.name = []
      · -- A policy without a name is an error, so that neither side holds.
        refine iff_of_false (fun h => h.1.1.name hempty) fun h => ?_
        exact (h.1 pol List.mem_cons_self).1.name hempty
      · simp only [hempty, if_false, List.mem_cons, List.map_cons, List.nodup_cons,
          List.mem_map]
        grind
  rw [policyErrors, hfrom]
  simp

/-- Policies that `Config.Validate` accepts, with the interval of the probes. -/
structure AcceptedPolicies where
  intervalMs : ℤ
  policies : List PolicyConfig
  interval : 100 ≤ intervalMs
  accepted : policyErrors intervalMs policies = []

/-- The engine of the accepted policies, before its first evaluation. -/
def AcceptedPolicies.engine (cfg : AcceptedPolicies) : Engine :=
  newEngine (cfg.policies.map PolicyConfig.toInstance)

/-- The rejections of a lag policy follow its threshold: a replica with a fresh lag is rejected exactly
if the lag is above it. -/
def PolicyConfig.FollowsThreshold (pol : PolicyConfig) (n : ℤ) : Prop :=
  ∀ (nv : Cluster.NodeView) (lagMs : ℤ), nv.observedRole = .replica → nv.replicationLagState = .fresh →
    nv.replicationLagMs = some lagMs →
      ((evaluateLag nv pol.toInstance.parameters).1 = true ↔ n < lagMs)

/-- The verdict on a replica with a fresh lag. -/
theorem evaluateLag_fresh {nv : Cluster.NodeView} {lagMs : ℤ} (hrole : nv.observedRole = .replica)
    (hstate : nv.replicationLagState = .fresh) (hlag : nv.replicationLagMs = some lagMs)
    (params : List (Text × ℤ)) :
    (evaluateLag nv params).1 = true ↔ (params.lookup (text "threshold_ms")).getD 100 < lagMs := by
  rw [evaluateLag, if_neg (not_not.mpr hrole)]
  simp only [hstate, hlag, Option.any_some, decide_eq_true_eq]
  split_ifs with habove
  · exact iff_of_true rfl habove
  · exact iff_of_false not_false habove

/-- A parameter that is an `int64` is left out of the instance. A map has one value for a key. -/
theorem PolicyConfig.lookup_toInstance (hkeys : (pol.parameters.map Prod.fst).Nodup) {key : Text}
    {n : ℤ} (h : (key, .int64 n) ∈ pol.parameters) : pol.toInstance.parameters.lookup key = none := by
  rw [List.lookup_eq_none_iff]
  intro entry hentry
  obtain ⟨⟨other, value⟩, hmem, hvalue⟩ := List.mem_filterMap.mp hentry
  obtain ⟨v, hint, rfl⟩ := Option.map_eq_some_iff.mp hvalue
  rw [bne_iff_ne]
  intro hsame
  have hentries := List.inj_on_of_nodup_map hkeys h hmem hsame
  rw [← (Prod.mk.inj hentries).2] at hint
  cases hint

/-- A lag policy whose threshold was dropped follows it exactly if it is the default. -/
theorem PolicyConfig.followsThreshold_iff {n : ℤ}
    (hdropped : pol.toInstance.parameters.lookup (text "threshold_ms") = none) :
    pol.FollowsThreshold n ↔ n = 100 := by
  constructor
  · intro hfollows
    have hlag (lagMs : ℤ) : 100 < lagMs ↔ n < lagMs := by
      have hverdict := hfollows
        ⟨[], [], 0, .unknown, .replica, .up, [], 0, none, some lagMs, .fresh, 0, 0, 0, 0⟩ lagMs rfl rfl rfl
      rwa [evaluateLag_fresh rfl rfl rfl, hdropped] at hverdict
    have hbelow := (hlag (n + 1)).mpr (Int.lt_add_one_iff.mpr le_rfl)
    have habove := (hlag 101).mp (by decide)
    omega
  · rintro rfl nv lagMs hrole hstate hlag
    rw [evaluateLag_fresh hrole hstate hlag, hdropped]
    rfl

/-- With integers that the decoder delivers as `int64`: a policy follows an integer threshold exactly if
the threshold is the default, and its integer parameters reach the instance with their values exactly if
there are none. -/
theorem integer_parameters_dropped (hkeys : (pol.parameters.map Prod.fst).Nodup) :
    (∀ n, pol.template = text "lag-filter" → (text "threshold_ms", .int64 n) ∈ pol.parameters →
      (pol.FollowsThreshold n ↔ n = 100)) ∧
    ((∀ key n, (key, .int64 n) ∈ pol.parameters →
        pol.toInstance.parameters.lookup key = some n) ↔
      ∀ key n, (key, .int64 n) ∉ pol.parameters) := by
  refine ⟨fun n _ hmem => pol.followsThreshold_iff (pol.lookup_toInstance hkeys hmem), ?_, ?_⟩
  · intro hreach key n hmem
    have hlookup := hreach key n hmem
    rw [pol.lookup_toInstance hkeys hmem] at hlookup
    cases hlookup
  · intro hnone key n hmem
    exact absurd hmem (hnone key n)

/-- A lag policy with a threshold of five seconds. -/
def slowReplicas : PolicyConfig where
  name := text "slow-replicas"
  template := text "lag-filter"
  scope := text "cluster"
  parameters := [(text "threshold_ms", .int64 5000)]
  dwellMs := 0
  releaseMs := 0

/-- The policy of five seconds follows none but the default. -/
theorem integer_parameters_dropped_slowReplicas :
    (slowReplicas.parameters.map Prod.fst).Nodup ∧
      (slowReplicas.FollowsThreshold 5000 ↔ (5000 : ℤ) = 100) :=
  ⟨by decide, (integer_parameters_dropped (by decide)).1 5000 rfl (List.mem_singleton.mpr rfl)⟩

/-- The policy of five seconds is accepted, and its instance rejects a replica that is half a second
behind. -/
theorem slow_replica_rejected :
    policyErrors 1000 [slowReplicas] = [] ∧ slowReplicas.toInstance.parameters = [] ∧
      evaluateLag ⟨text "r", [], 0, .replica, .replica, .up, [], 1, none, some 500, .fresh, 1, 2000, 5000,
        2000⟩ slowReplicas.toInstance.parameters = (true, text "lag:above_threshold") := by
  decide

end Grunyas.Config
