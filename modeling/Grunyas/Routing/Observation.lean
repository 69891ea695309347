import Grunyas.Admin.Pools
import Grunyas.Config.Policies
import Grunyas.Machine.Guarded
import Grunyas.Policy.Hysteresis
import Grunyas.Routing.Enforcement
import Grunyas.Routing.Reads

/-!
# The observation loop

The policies are evaluated by a loop of their own. A tick takes one snapshot of the nodes with the
numbers of their pools, and evaluates node after node, each at another reading of the clock. The probes
report meanwhile, and requests are routed between two evaluations of one tick.

`lease_follows_history` says what this makes of routing: in every run a node is eligible exactly if its
identity and its role are the right ones and no consulted policy holds it for what the loop has seen of
it. With the defaults a saturated pool excludes its node until two evaluations in a row have found a
connection left (`saturation_last_two`).
-/

namespace Grunyas.Routing

open GoText GoMap Grunyas.Server Grunyas.Cluster Grunyas.Policy Grunyas.Admin Machine

/-- The pool of a node has no connection left. -/
def poolSaturated (t : Topology) (stats : PoolID → PoolStats) (id : NodeID) : Bool :=
  match t.poolFor id with
  | .error _ => false
  | .ok pool =>
    decide ((stats pool).maxConns ≤ (stats pool).acquiredConns) && decide (0 < (stats pool).maxConns)

/-- The pipeline with the clock, the nodes that the loop has still to evaluate, and its evaluations so
far. -/
structure Observation where
  pipeline : Pipeline
  now : Time
  queue : List (NodeView × Bool)
  calls : List Evaluation

/-- What happens: a report of a probe, a tick of the loop, its next evaluation, or a request. A tick
comes with the order in which its snapshot visits the nodes. -/
inductive LoopEvent where
  | report (node : NodeID) (report : Report)
  | tick (visited : List NodeID) (stats : PoolID → PoolStats)
  | evaluate
  | lease (forNodes forPrimary : (t : Topology) → Range t.nodes)
      (acquire : PoolID → Except Text ConnId) (req : LeaseRequest)

/-- An event with the nanoseconds since the event before it. -/
structure LoopInput where
  elapsed : ℕ
  event : LoopEvent

namespace Observation

/-- The next event, if it is enabled: the loop takes no tick before it has evaluated all nodes. -/
def loopStep (s : Observation) (i : LoopInput) : Option Observation :=
  let now := s.now + i.elapsed
  match i.event with
  | .report node report =>
    some { s with pipeline := { s.pipeline with topo := s.pipeline.topo.accept now node report }, now }
  | .tick visited stats =>
    if s.queue = [] ∧ visited.Nodup ∧ visited.toFinset = s.pipeline.topo.nodes.keys then
      let nodes := visited.filterMap (s.pipeline.topo.node now)
      some { s with queue := nodes.map fun nv => (nv, poolSaturated s.pipeline.topo stats nv.id), now }
    else none
  | .evaluate =>
    match s.queue with
    | [] => none
    | (nv, saturated) :: rest =>
      some {
        pipeline := { s.pipeline with
          policyEng := s.pipeline.policyEng.map fun e => e.evaluateNode now nv saturated }
        now
        queue := rest
        calls := s.calls ++ [⟨now, nv, saturated⟩] }
  | .lease forNodes forPrimary acquire req =>
    some { s with
      pipeline := (s.pipeline.lease (leaseEnv now forNodes forPrimary acquire _) req).2, now }

/-- The pipeline before the first event. -/
def start (cfg : ProbeConfig) (specs : List NodeSpec) (policies : List Instance) (hasBus : Bool)
    (now : Time) : Observation :=
  ⟨newPipeline (newTopology cfg specs) (some (newEngine policies)) hasBus, now, [], []⟩

/-- A policy holds a node for what the loop has seen of it. -/
def Holds (s : Observation) (inst : Instance) (id : NodeID) : Prop :=
  let history := judgements inst id s.calls
  Held (timeOf history) (rejects history) (inst.dwellMs * 1000000) (inst.releaseMs * 1000000)
    history.length

end Observation

/-- The policies that are consulted for a request; the lag does not count for what is classified as a
write. -/
def Pipeline.consultedFor (p : Pipeline) (req : LeaseRequest) : List Text :=
  [p.defaultHealthPolicyName, p.defaultSatPolicyName] ++
    if req.classType ≠ .write then [p.defaultLagPolicyName] else []

/-- The consulted policies leave a node eligible exactly if each of them does. -/
theorem forall_consultedFor {p : Pipeline} {req : LeaseRequest} {id : NodeID} :
    (∀ name ∈ p.consultedFor req, (p.policyState name id).1 = true) ↔
      (p.policyState p.defaultHealthPolicyName id).1 = true ∧
        (req.classType ≠ .write → (p.policyState p.defaultLagPolicyName id).1 = true) ∧
        (p.policyState p.defaultSatPolicyName id).1 = true := by
  by_cases hwrite : req.classType = .write
  · simp [Pipeline.consultedFor, hwrite]
  · simp only [Pipeline.consultedFor, ne_eq, hwrite, not_false_eq_true, if_true, forall_const,
      List.cons_append, List.nil_append, List.forall_mem_cons, List.not_mem_nil, false_implies, and_true]
    rw [and_comm (a := (p.policyState p.defaultSatPolicyName id).1 = true)]

section Instances

variable {policies : List Instance}

/-- An instance of an engine was configured or is a default. -/
theorem mem_engineInstances {inst : Instance} :
    inst ∈ engineInstances policies → inst ∈ policies ∨ inst ∈ defaultInstances := by
  refine List.foldlRecOn (motive := fun all => inst ∈ all → inst ∈ policies ∨ inst ∈ defaultInstances)
    defaultInstances _ ?_ fun all hall default hdefault hmem => ?_
  · refine List.foldlRecOn (motive := fun all => inst ∈ all → inst ∈ policies ∨ inst ∈ defaultInstances)
      policies _ (fun hmem => absurd hmem List.not_mem_nil) fun all hall added hadded hmem => ?_
    obtain rfl | hold := mem_insertInstance hmem
    · exact .inl hadded
    · exact hall hold
  · dsimp only [ensureDefault] at hmem
    split_ifs at hmem
    · exact hall hmem
    · obtain rfl | hold := mem_insertInstance hmem
      · exact .inr hdefault
      · exact hall hold

/-- A name is that of some instance. -/
def Named (name : Text) (instances : List Instance) : Prop := ∃ inst ∈ instances, inst.name = name

/-- An insertion adds the name of the instance and keeps the others. -/
theorem named_insertInstance {name : Text} {inst : Instance} {instances : List Instance}
    (h : name = inst.name ∨ Named name instances) : Named name (insertInstance inst instances) := by
  induction instances with
  | nil =>
    obtain rfl | ⟨other, hother, -⟩ := h
    · exact ⟨inst, List.mem_cons_self, rfl⟩
    · cases hother
  | cons first rest ih =>
    rw [insertInstance]
    split_ifs with hbefore hafter
    · obtain rfl | ⟨other, hother, hname⟩ := h
      · exact ⟨inst, List.mem_cons_self, rfl⟩
      · exact ⟨other, List.mem_cons_of_mem _ hother, hname⟩
    · have hrest : name = first.name ∨ name = inst.name ∨ Named name rest := by
        obtain rfl | ⟨other, hother, hname⟩ := h
        · exact .inr (.inl rfl)
        · obtain rfl | hother := List.mem_cons.mp hother
          · exact .inl hname.symm
          · exact .inr (.inr ⟨other, hother, hname⟩)
      obtain rfl | hrest := hrest
      · exact ⟨first, List.mem_cons_self, rfl⟩
      · obtain ⟨other, hother, hname⟩ := ih hrest
        exact ⟨other, List.mem_cons_of_mem _ hother, hname⟩
    · have hsame : inst.name = first.name := List.le_antisymm hafter hbefore
      obtain rfl | ⟨other, hother, hname⟩ := h
      · exact ⟨inst, List.mem_cons_self, rfl⟩
      · obtain rfl | hother := List.mem_cons.mp hother
        · exact ⟨inst, List.mem_cons_self, hsame.trans hname⟩
        · exact ⟨other, List.mem_cons_of_mem _ hother, hname⟩

/-- A default adds its name and keeps the others. -/
theorem named_ensureDefault {name : Text} {default : Instance} {instances : List Instance}
    (h : name = default.name ∨ Named name instances) : Named name (ensureDefault default instances) := by
  unfold ensureDefault
  split_ifs with hany
  · obtain rfl | hnamed := h
    · obtain ⟨inst, hinst, hname⟩ := List.any_eq_true.mp hany
      exact ⟨inst, hinst, beq_iff_eq.mp hname⟩
    · exact hnamed
  · exact named_insertInstance h

/-- Every default has an instance of its name. -/
theorem named_engineInstances {default : Instance} (h : default ∈ defaultInstances) :
    Named default.name (engineInstances policies) := by
  simp only [engineInstances, defaultInstances, List.foldl_cons, List.foldl_nil]
  simp only [defaultInstances, List.mem_cons, List.not_mem_nil, or_false] at h
  rcases h with rfl | rfl | rfl
  · exact named_ensureDefault (.inr (named_ensureDefault (.inr (named_ensureDefault (.inl rfl)))))
  · exact named_ensureDefault (.inr (named_ensureDefault (.inl rfl)))
  · exact named_ensureDefault (.inl rfl)

/-- A pipeline consults instances of its engine. -/
theorem named_of_consulted {name : Text} (h : name ∈ consultedNames (newEngine policies)) :
    Named name (engineInstances policies) := by
  have hfirst (template : Template) {default : Instance} (hdefault : default ∈ defaultInstances) :
      Named ((newEngine policies).nameOrFirst template default.name) (engineInstances policies) := by
    unfold Engine.nameOrFirst
    split
    next inst hfind => exact ⟨inst, List.mem_of_find?_eq_some hfind, rfl⟩
    next => exact named_engineInstances hdefault
  simp only [consultedNames, List.mem_cons, List.not_mem_nil, or_false] at h
  rcases h with rfl | rfl | rfl
  · exact hfirst .healthFilter List.mem_cons_self
  · exact hfirst .lagFilter (List.mem_cons_of_mem _ List.mem_cons_self)
  · exact hfirst .poolSaturation (List.mem_cons_of_mem _ (List.mem_cons_of_mem _ List.mem_cons_self))

/-- The times of a policy are not negative and fit into a duration. -/
structure FitTimes (inst : Instance) : Prop where
  dwell : 0 ≤ inst.dwellMs ∧ inst.dwellMs * 1000000 < 2 ^ 63
  release : 0 ≤ inst.releaseMs ∧ inst.releaseMs * 1000000 < 2 ^ 63

/-- The times of the policies of an accepted configuration fit if none of the configured ones overflows. -/
theorem fitTimes_of_accepted {intervalMs : ℤ} {configured : List Config.PolicyConfig}
    (hvalid : Config.policyErrors intervalMs configured = [])
    (hfits : ∀ pol ∈ configured,
      pol.dwellMs * 1000000 < 2 ^ 63 ∧ pol.releaseMs * 1000000 < 2 ^ 63) {inst : Instance}
    (h : inst ∈ engineInstances (configured.map Config.PolicyConfig.toInstance)) : FitTimes inst := by
  obtain hconfigured | hdefault := mem_engineInstances h
  · obtain ⟨pol, hpol, rfl⟩ := List.mem_map.mp hconfigured
    have haccepted := (Config.policyErrors_eq_nil_iff.mp hvalid).1 pol hpol
    have hdwell : 0 ≤ pol.dwellMs := haccepted.dwell.elim Eq.ge fun hpos => hpos.1.le
    exact ⟨⟨hdwell, (hfits pol hpol).1⟩, haccepted.release, (hfits pol hpol).2⟩
  · have hall : ∀ inst ∈ defaultInstances, (0 ≤ inst.dwellMs ∧ inst.dwellMs * 1000000 < 2 ^ 63) ∧
        0 ≤ inst.releaseMs ∧ inst.releaseMs * 1000000 < 2 ^ 63 := by decide
    exact ⟨(hall inst hdefault).1, (hall inst hdefault).2⟩

/-- A policy whose times fit holds a node for these times. -/
theorem FitTimes.heldBy_iff {inst : Instance} (h : FitTimes inst) (time : ℕ → Time) (reject : ℕ → Bool)
    (n : ℕ) : HeldBy inst time reject n ↔
      Held time reject (inst.dwellMs * 1000000) (inst.releaseMs * 1000000) n := by
  rw [HeldBy, milliseconds_of_fits h.dwell.1 h.dwell.2, milliseconds_of_fits h.release.1 h.release.2]

end Instances

namespace Observation

variable {policies : List Instance} {s t : Observation}

/-- The loop evaluates the nodes that it has still to evaluate, without a pause. -/
theorem exec_evaluate (s : Observation) (queue : List (NodeView × Bool)) (hqueue : s.queue = queue) :
    exec loopStep s (List.replicate queue.length ⟨0, .evaluate⟩) = some
      { pipeline := { s.pipeline with
          policyEng := s.pipeline.policyEng.map fun e =>
            queue.foldl (fun e v => e.evaluateNode s.now v.1 v.2) e }
        now := s.now
        queue := []
        calls := s.calls ++ queue.map fun v => ⟨s.now, v.1, v.2⟩ } := by
  induction queue generalizing s with
  | nil =>
    obtain ⟨pipeline, now, queue, calls⟩ := s
    obtain rfl : queue = [] := hqueue
    simp [exec]
  | cons first rest ih =>
    obtain ⟨nv, saturated⟩ := first
    have hstep : s.loopStep ⟨0, .evaluate⟩ = some
        { pipeline := { s.pipeline with
            policyEng := s.pipeline.policyEng.map fun e => e.evaluateNode s.now nv saturated }
          now := s.now
          queue := rest
          calls := s.calls ++ [⟨s.now, nv, saturated⟩] } := by
      simp [loopStep, hqueue]
    rw [List.length_cons, List.replicate_succ]
    refine exec_cons.mpr ⟨_, hstep, (ih _ rfl).trans ?_⟩
    simp [Option.map_map, Function.comp_def]

/-- A tick visits the nodes in an order in which a loop may visit them. -/
theorem exists_range {topo : Topology} {visited : List NodeID} (hnodup : visited.Nodup)
    (hkeys : visited.toFinset = topo.nodes.keys) (now : Time) :
    ∃ order : Range topo.nodes, topo.nodeViews now order = visited.filterMap (topo.node now) := by
  refine ⟨.ofKeys visited hnodup fun id => ?_, ?_⟩
  · rw [← List.mem_toFinset, hkeys, Finmap.mem_keys]
  · rw [Topology.nodeViews, Range.ofKeys, List.map_filterMap]
    refine List.filterMap_congr fun id _ => ?_
    rw [Option.map_map]
    rfl

/-- A tick that is not interrupted is the evaluation of every policy on every node of one snapshot. -/
theorem updatePolicyEvaluation_of_tick {elapsed : ℕ} {visited : List NodeID} {stats : PoolID → PoolStats}
    (hrun : exec loopStep s
      (⟨elapsed, .tick visited stats⟩ :: List.replicate visited.length ⟨0, .evaluate⟩) = some t) :
    ∃ order, t.pipeline = s.pipeline.updatePolicyEvaluation (s.now + elapsed) order
      (poolSaturated s.pipeline.topo stats) := by
  obtain ⟨ticked, htick, hrest⟩ := exec_cons.mp hrun
  simp only [loopStep] at htick
  split_ifs at htick with henabled
  cases htick
  obtain ⟨order, horder⟩ := exists_range henabled.2.1 henabled.2.2 (s.now + elapsed)
  have hlength : (visited.filterMap (s.pipeline.topo.node (s.now + elapsed))).length = visited.length := by
    refine List.filterMap_length_eq_length.mpr fun id hid => ?_
    rw [← List.mem_toFinset, henabled.2.2, Finmap.mem_keys, ← Finmap.lookup_isSome] at hid
    rw [Topology.node, Option.isSome_map]
    exact hid
  rw [← hlength, ← List.length_map (fun nv => (nv, poolSaturated s.pipeline.topo stats nv.id)),
    exec_evaluate _ _ rfl] at hrest
  obtain rfl := Option.some.inj hrest
  refine ⟨order, ?_⟩
  rw [Pipeline.updatePolicyEvaluation, horder]
  simp only [List.foldl_map]

/-- The engine is what the evaluations of the loop have made of it, at times that do not decrease. -/
structure Recorded (policies : List Instance) (s : Observation) : Prop where
  made : MadeFor policies s.pipeline (run evaluateStep (newEngine policies) s.calls)
  times : s.calls.Pairwise fun first second => first.now ≤ second.now
  past : ∀ c ∈ s.calls, c.now ≤ s.now

/-- Evaluations keep the instances. -/
theorem instances_run (e : Engine) (calls : List Evaluation) :
    (run evaluateStep e calls).instances = e.instances := by
  induction calls generalizing e with
  | nil => rfl
  | cons c rest ih => rw [run_cons, ih, evaluateStep, Engine.instances_evaluateNode]

/-- What is recorded stays so when neither the policies nor the evaluations change. -/
theorem Recorded.congr (h : Recorded policies s) (hcalls : t.calls = s.calls) (hnow : s.now ≤ t.now)
    (hpolicies : t.pipeline.routed.2 = s.pipeline.routed.2) : Recorded policies t := by
  simp only [Pipeline.routed, Prod.mk.injEq] at hpolicies
  obtain ⟨heng, hhealth, hlag, hsat⟩ := hpolicies
  refine ⟨?_, hcalls ▸ h.times, fun c hc => (h.past c (hcalls ▸ hc)).trans hnow⟩
  rw [hcalls]
  refine ⟨heng.trans h.made.engine, h.made.instances, ?_⟩
  rw [hhealth, hlag, hsat]
  exact h.made.names

/-- Every event keeps what is recorded. -/
theorem Recorded.step (h : Recorded policies s) (i : LoopInput) (hstep : s.loopStep i = some t) :
    Recorded policies t := by
  obtain ⟨elapsed, event⟩ := i
  have hnow : s.now ≤ s.now + elapsed := Int.le_add_of_nonneg_right (Int.natCast_nonneg elapsed)
  cases event with
  | report node report =>
    cases hstep
    exact h.congr rfl hnow rfl
  | tick visited stats =>
    simp only [loopStep] at hstep
    split_ifs at hstep
    cases hstep
    exact h.congr rfl hnow rfl
  | evaluate =>
    simp only [loopStep] at hstep
    split at hstep
    · cases hstep
    · next nv saturated rest hqueue =>
      cases hstep
      refine ⟨⟨?_, ?_, h.made.names⟩, ?_, ?_⟩
      · simp only [h.made.engine, Option.map_some, run_append]
        rfl
      · rw [instances_run]
        rfl
      · refine List.pairwise_append.mpr ⟨h.times, List.pairwise_singleton _ _, ?_⟩
        intro first hfirst second hsecond
        obtain rfl := List.mem_singleton.mp hsecond
        exact (h.past first hfirst).trans hnow
      · intro c hc
        obtain hold | hnew := List.mem_append.mp hc
        · exact (h.past c hold).trans hnow
        · obtain rfl := List.mem_singleton.mp hnew
          exact le_rfl
  | lease forNodes forPrimary acquire req =>
    cases hstep
    exact h.congr rfl hnow (congrArg Prod.snd (routed_lease s.pipeline _ req))

/-- The engine is what the evaluations have made of it, whatever happens. -/
theorem recorded_of_exec {cfg : ProbeConfig} {specs : List NodeSpec} {hasBus : Bool} {now : Time}
    {inputs : List LoopInput}
    (hrun : exec loopStep (start cfg specs policies hasBus now) inputs = some s) :
    Recorded policies s := by
  refine exec_invariant (fun _ i _ h hstep => h.step i hstep) ?_ hrun
  exact ⟨⟨rfl, rfl, rfl⟩, .nil, fun c hc => absurd hc List.not_mem_nil⟩

/-- The judgements on a node are made at times that do not decrease. -/
theorem Recorded.judgements_sorted (h : Recorded policies s) (inst : Instance) (id : NodeID) :
    (judgements inst id s.calls).Pairwise fun first second => first.now ≤ second.now := by
  refine List.Pairwise.filterMap _ (fun first second hle j hj k hk => ?_) h.times
  have hnow {c : Evaluation} {j : Judgement} (hj : c.judgement inst id = some j) : j.now = c.now := by
    unfold Evaluation.judgement at hj
    split_ifs at hj
    obtain ⟨verdict, -, rfl⟩ := Option.map_eq_some_iff.mp hj
    rfl
  rw [hnow hj, hnow hk]
  exact hle

/-- An instance excludes a node exactly if it holds it for what the loop has seen. -/
theorem Recorded.isEligible_iff (h : Recorded policies s) {inst : Instance}
    (hinst : inst ∈ engineInstances policies) (hfit : FitTimes inst) (id : NodeID) :
    (run evaluateStep (newEngine policies) s.calls).isEligible inst.name id = false ↔ s.Holds inst id := by
  have hdwell : 0 ≤ milliseconds inst.dwellMs := by
    rw [milliseconds_of_fits hfit.dwell.1 hfit.dwell.2]
    exact Int.mul_nonneg hfit.dwell.1 (by decide)
  have htracks := tracks_take hdwell (h.judgements_sorted inst id) le_rfl
  have hnew : (newEngine policies).perNodeState inst.name id = none := rfl
  rw [List.take_length] at htracks
  rw [Engine.isEligible_eq, perNodeState_run id hinst, hnew]
  exact htracks.excluded_iff.trans (hfit.heldBy_iff _ _ _)

/-- What routing reads of a policy is what the evaluations have made of it. -/
theorem Recorded.policyState_eq (h : Recorded policies s) (name : Text) (id : NodeID) :
    (s.pipeline.policyState name id).1 =
      (run evaluateStep (newEngine policies) s.calls).isEligible name id := by
  simp only [Pipeline.policyState, h.made.engine, Engine.evaluatePolicyState, Engine.isEligible]
  cases (run evaluateStep (newEngine policies) s.calls).perNodeState name id <;> rfl

/-- A consulted policy leaves a node eligible exactly if the instance of its name does not hold it. -/
theorem Recorded.policyState_iff (h : Recorded policies s)
    (hfit : ∀ inst ∈ engineInstances policies, FitTimes inst) {name : Text}
    (hname : name ∈ consultedNames (newEngine policies)) (id : NodeID) :
    (s.pipeline.policyState name id).1 = true ↔
      ∀ inst ∈ engineInstances policies, inst.name = name → ¬s.Holds inst id := by
  obtain ⟨inst, hinst, rfl⟩ := named_of_consulted hname
  have hholds := h.isEligible_iff hinst (hfit inst hinst) id
  rw [h.policyState_eq, ← Bool.not_eq_false, hholds]
  constructor
  · intro hfree other hother hsame
    rwa [List.inj_on_of_nodup_map (newEngine policies).nodup_names hother hinst hsame]
  · intro hfree
    exact hfree inst hinst rfl

/-- The policies that are consulted for a request are those that the pipeline was made with. -/
theorem Recorded.consulted (h : Recorded policies s) {req : LeaseRequest} {name : Text}
    (hname : name ∈ s.pipeline.consultedFor req) : name ∈ consultedNames (newEngine policies) := by
  rw [← h.made.names]
  obtain hboth | hlag := List.mem_append.mp hname
  · simp only [List.mem_cons, List.not_mem_nil, or_false] at hboth ⊢
    exact hboth.imp_right .inr
  · split_ifs at hlag
    · obtain rfl := List.mem_singleton.mp hlag
      exact List.mem_cons_of_mem _ List.mem_cons_self
    · cases hlag

/-- The evaluations of a node. -/
def evaluationsOf (s : Observation) (id : NodeID) : List Evaluation :=
  s.calls.filter fun c => c.view.id = id

/-- The saturation policy that is added by default. -/
def defaultSaturation : Instance :=
  ⟨text "default-pool-saturation-rejection", .poolSaturation, text "cluster", [], 0, 0⟩

/-- No configured policy is about the saturation or takes the name of the default. -/
def NoSaturation (configured : List Config.PolicyConfig) : Prop :=
  ∀ pol ∈ configured, pol.template ≠ text "pool-saturation-rejection" ∧ pol.name ≠ defaultSaturation.name

/-- The default is then the only instance of its template and of its name. -/
theorem NoSaturation.eq_default {configured : List Config.PolicyConfig} (h : NoSaturation configured)
    {inst : Instance} (hinst : inst ∈ engineInstances (configured.map Config.PolicyConfig.toInstance))
    (hsat : inst.template = .poolSaturation ∨ inst.name = defaultSaturation.name) :
    inst = defaultSaturation := by
  obtain hconfigured | hdefault := mem_engineInstances hinst
  · obtain ⟨pol, hpol, rfl⟩ := List.mem_map.mp hconfigured
    obtain ⟨htemplate, hname⟩ := h pol hpol
    have hother : Config.templateOf pol.template ≠ .poolSaturation := by
      unfold Config.templateOf
      split_ifs <;> simp
    exact absurd hsat (not_or.mpr ⟨hother, hname⟩)
  · have hall : ∀ inst ∈ defaultInstances, inst.template = .poolSaturation ∨
        inst.name = defaultSaturation.name → inst = defaultSaturation := by decide
    exact hall inst hdefault hsat

/-- The default is then consulted. -/
theorem NoSaturation.consulted {configured : List Config.PolicyConfig} (h : NoSaturation configured) :
    policyDefaultSatNameOrFirst (newEngine (configured.map Config.PolicyConfig.toInstance)) =
      defaultSaturation.name := by
  unfold policyDefaultSatNameOrFirst Engine.nameOrFirst
  split
  next inst hfind =>
    have htemplate : inst.template = .poolSaturation := by simpa using List.find?_some hfind
    rw [h.eq_default (List.mem_of_find?_eq_some hfind) (.inl htemplate)]
  next => rfl

/-- The saturation policy judges every evaluation of a node by the saturation of its pool. -/
theorem judgements_defaultSaturation (id : NodeID) (calls : List Evaluation) :
    (judgements defaultSaturation id calls).map Judgement.reject =
      (calls.filter fun c => c.view.id = id).map Evaluation.poolSaturated := by
  induction calls with
  | nil => rfl
  | cons c rest ih =>
    have hcons : judgements defaultSaturation id (c :: rest) =
        (c.judgement defaultSaturation id).toList ++ judgements defaultSaturation id rest := by
      cases hjudged : c.judgement defaultSaturation id <;> simp [judgements, hjudged]
    rw [hcons, List.map_append, ih]
    by_cases hid : c.view.id = id
    · cases hsat : c.poolSaturated <;>
        simp [Evaluation.judgement, hid, hsat, Instance.evaluate, defaultSaturation, poolRejectionMap]
    · simp [Evaluation.judgement, hid]

/-- The default saturation policy holds a node exactly if one of the last two evaluations of the node
found its pool saturated. -/
theorem Recorded.holds_defaultSaturation (h : Recorded policies s) (id : NodeID) :
    s.Holds defaultSaturation id ↔
      ∃ c ∈ (s.evaluationsOf id).drop ((s.evaluationsOf id).length - 2), c.poolSaturated = true := by
  have hjudged := judgements_defaultSaturation id s.calls
  have hsorted := h.judgements_sorted defaultSaturation id
  change Held _ _ 0 0 _ ↔ _
  generalize judgements defaultSaturation id s.calls = history at hjudged hsorted ⊢
  change _ = (s.evaluationsOf id).map Evaluation.poolSaturated at hjudged
  generalize s.evaluationsOf id = evaluations at hjudged ⊢
  have hlength : history.length = evaluations.length := by simpa using congrArg List.length hjudged
  have hrejects (j : ℕ) : rejects history j = true ↔
      ∃ c, evaluations[j]? = some c ∧ c.poolSaturated = true := by
    have hj := congrArg (fun verdicts => verdicts[j]?) hjudged
    simp only [List.getElem?_map] at hj
    rw [rejects, hj]
    cases evaluations[j]? <;> simp
  rw [held_zero_iff fun i j hij hj => timeOf_le_timeOf hsorted hij hj, hlength]
  constructor
  · intro hlast
    obtain ⟨j, hj, hnear, hpositive⟩ := hlast
    obtain ⟨c, hc, hsat⟩ := (hrejects j).mp hpositive
    refine ⟨c, List.mem_iff_getElem?.mpr ⟨j - (evaluations.length - 2), ?_⟩, hsat⟩
    rw [List.getElem?_drop, Nat.add_sub_cancel' (by omega), hc]
  · intro hlast
    obtain ⟨c, hmem, hsat⟩ := hlast
    obtain ⟨k, hk⟩ := List.mem_iff_getElem?.mp hmem
    rw [List.getElem?_drop] at hk
    have hlt := (List.getElem?_eq_some_iff.mp hk).1
    exact ⟨_, hlt, by omega, (hrejects _).mpr ⟨c, hk, hsat⟩⟩

/-- A replica whose pool of one connection is saturated at the first tick and not at the second. -/
def saturatedOnce : List LoopInput :=
  [⟨0, .report (text "a") (.observedRole .replica)⟩, ⟨0, .report (text "a") (.liveness .up none)⟩,
    ⟨0, .tick [text "a"] fun _ => ⟨1, 1, 0, 1⟩⟩, ⟨0, .evaluate⟩,
    ⟨1000000000, .tick [text "a"] fun _ => ⟨1, 0, 1, 1⟩⟩, ⟨0, .evaluate⟩]

/-- The replica that is probed every second, with the default policies. -/
def probedReplica : Observation :=
  start ⟨1000, 0, 0, 0⟩ [⟨text "a", ⟨text "db-a", 5432, text "replica"⟩, 0⟩] [] true 0

/-- The loop has seen the pool of the replica saturated in one of the last two evaluations. -/
theorem saturatedOnce_run : ∃ s, exec loopStep probedReplica saturatedOnce = some s ∧
    s.pipeline.defaultSatPolicyName = defaultSaturation.name ∧
    ∃ c ∈ (s.evaluationsOf (text "a")).drop ((s.evaluationsOf (text "a")).length - 2),
      c.poolSaturated = true := by
  have hrun : (exec loopStep probedReplica saturatedOnce).map (fun s =>
      (s.pipeline.defaultSatPolicyName,
        ((s.evaluationsOf (text "a")).drop ((s.evaluationsOf (text "a")).length - 2)).any
          Evaluation.poolSaturated)) = some (defaultSaturation.name, true) := by
    decide
  obtain ⟨s, hs, hends⟩ := Option.map_eq_some_iff.mp hrun
  obtain ⟨hname, hany⟩ := Prod.mk.inj hends
  exact ⟨s, hs, hname, List.any_eq_true.mp hany⟩

/-- In every run of the probes, the observation loop and requests, under every accepted configuration
of the policies whose times fit into a duration. A node is eligible for a request exactly if it is declared, its identity and its role
are those that are asked for, and no consulted policy holds it for what the loop has seen of it. A
request is answered with an eligible node, or, on the compat port when there is none, with the sole
primary. -/
theorem lease_follows_history (cfg : ProbeConfig) (specs : List NodeSpec)
    (configured : List Config.PolicyConfig)
    (hvalid : Config.policyErrors cfg.intervalMs configured = [])
    (hfits : ∀ pol ∈ configured, pol.dwellMs * 1000000 < 2 ^ 63 ∧ pol.releaseMs * 1000000 < 2 ^ 63)
    (hasBus : Bool) (now : Time) (inputs : List LoopInput)
    (hrun : exec loopStep
      (start cfg specs (configured.map Config.PolicyConfig.toInstance) hasBus now) inputs = some s)
    (env : Env s.pipeline.topo) (req : LeaseRequest) :
    (∀ id, id ∈ eligibleNodes (s.pipeline.candidates env req) ↔
      ∃ ns, s.pipeline.topo.nodes.lookup id = some ns ∧
        (ns.systemID = [] ∨ ns.systemID = s.pipeline.topo.clusterID) ∧
        roleReasons req.port req.classType req.postWriteWindowActive
          (s.pipeline.topo.nodeView env.now id ns).observedRole = [] ∧
        ∀ inst ∈ engineInstances (configured.map Config.PolicyConfig.toInstance),
          inst.name ∈ s.pipeline.consultedFor req → ¬s.Holds inst id) ∧
      ((s.pipeline.lease env req).1.error = none →
        (s.pipeline.lease env req).1.nodeID ∈ eligibleNodes (s.pipeline.candidates env req) ∨
          (req.port = .compat ∧ eligibleNodes (s.pipeline.candidates env req) = [] ∧
            s.pipeline.topo.SolePrimary (s.pipeline.lease env req).1.nodeID)) := by
  have h := recorded_of_exec hrun
  refine ⟨fun id => ?_, fun hok => ?_⟩
  · have hconsulted {name : Text} (hname : name ∈ s.pipeline.consultedFor req) :=
      h.policyState_iff (fun inst hinst => fitTimes_of_accepted hvalid hfits hinst) (h.consulted hname) id
    have hpolicies : (∀ name ∈ s.pipeline.consultedFor req, (s.pipeline.policyState name id).1 = true) ↔
        ∀ inst ∈ engineInstances (configured.map Config.PolicyConfig.toInstance),
          inst.name ∈ s.pipeline.consultedFor req → ¬s.Holds inst id := by
      constructor
      · intro hfree inst hinst hname
        exact (hconsulted hname).mp (hfree _ hname) inst hinst rfl
      · intro hfree name hname
        refine (hconsulted hname).mpr fun inst hinst hsame => hfree inst hinst ?_
        rwa [hsame]
    rw [mem_eligibleNodes]
    refine exists_congr fun ns => and_congr_right fun _ => ?_
    rw [Pipeline.admits, decide_eq_true_iff, reasons_eq_nil_iff, ← hpolicies, forall_consultedFor]
    rfl
  · obtain ⟨event, -, -, ⟨-, -, hmem⟩ | ⟨-, hport, hempty, hprimary⟩⟩ := lease_ok_cases hok
    · exact .inl hmem
    · exact .inr ⟨hport, hempty, (Topology.primary_id _ _ _).mp hprimary⟩

/-- The replica is not eligible, although its pool has a connection left. -/
theorem lease_follows_history_saturated : ∃ s, exec loopStep probedReplica saturatedOnce = some s ∧
    ∀ env, text "a" ∉ eligibleNodes (s.pipeline.candidates env readRequest) := by
  obtain ⟨s, hs, hname, hseen⟩ := saturatedOnce_run
  refine ⟨s, hs, fun env hmem => ?_⟩
  obtain ⟨ns, -, -, -, hfree⟩ := ((lease_follows_history ⟨1000, 0, 0, 0⟩ _ [] (by decide)
    (fun _ hpol => absurd hpol List.not_mem_nil) true 0 saturatedOnce hs env readRequest).1 (text "a")).mp hmem
  refine hfree defaultSaturation (by decide) ?_
    ((recorded_of_exec hs).holds_defaultSaturation (text "a") |>.mpr hseen)
  rw [Pipeline.consultedFor, hname]
  exact List.mem_append_left _ (List.mem_cons_of_mem _ List.mem_cons_self)

/-- In every run with the default saturation policy, it excludes a node exactly if one of the last two
evaluations of the node found its pool saturated. -/
theorem saturation_last_two (cfg : ProbeConfig) (specs : List NodeSpec)
    (configured : List Config.PolicyConfig) (hdefault : NoSaturation configured) (hasBus : Bool)
    (now : Time) (inputs : List LoopInput)
    (hrun : exec loopStep
      (start cfg specs (configured.map Config.PolicyConfig.toInstance) hasBus now) inputs = some s)
    (id : NodeID) :
    (s.pipeline.policyState s.pipeline.defaultSatPolicyName id).1 = false ↔
      ∃ c ∈ (s.evaluationsOf id).drop ((s.evaluationsOf id).length - 2), c.poolSaturated = true := by
  have h := recorded_of_exec hrun
  have hname : s.pipeline.defaultSatPolicyName = defaultSaturation.name := by
    have hnames := h.made.names
    simp only [consultedNames, List.cons.injEq, and_true] at hnames
    exact hnames.2.2.trans hdefault.consulted
  have hmem : defaultSaturation ∈ engineInstances (configured.map Config.PolicyConfig.toInstance) := by
    obtain ⟨inst, hinst, hsame⟩ :
        Named defaultSaturation.name (engineInstances (configured.map Config.PolicyConfig.toInstance)) :=
      named_engineInstances (by decide)
    exact hdefault.eq_default hinst (.inr hsame) ▸ hinst
  rw [hname, h.policyState_eq, h.isEligible_iff hmem ⟨by decide, by decide⟩, h.holds_defaultSaturation]

/-- The saturation policy excludes the replica after the second tick. -/
theorem saturation_last_two_once : ∃ s, exec loopStep probedReplica saturatedOnce = some s ∧
    (s.pipeline.policyState s.pipeline.defaultSatPolicyName (text "a")).1 = false := by
  obtain ⟨s, hs, -, hseen⟩ := saturatedOnce_run
  refine ⟨s, hs, (saturation_last_two ⟨1000, 0, 0, 0⟩ _ [] ?_ true 0 saturatedOnce hs _).mpr hseen⟩
  intro pol hpol
  cases hpol

end Observation

end Grunyas.Routing
