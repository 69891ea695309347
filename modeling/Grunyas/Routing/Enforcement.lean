import Grunyas.Routing.Foreign

/-!
# Which policies routing enforces

The engine keeps states for all instances. The pipeline resolves one name for each template when it
is made, the first in the order of the names, and consults these three names only.
`policies_enforced_iff` says for which configurations every instance is enforced.
-/

namespace Grunyas.Routing

open GoText GoMap Grunyas.Server Grunyas.Classifier Grunyas.Cluster Grunyas.Decisions Grunyas.Policy

/-- A policy holds a node in state active or releasing. -/
def Excludes (e : Engine) (policyName nodeID : Text) : Prop :=
  (e.candidateState policyName nodeID).1 = .active ∨ (e.candidateState policyName nodeID).1 = .releasing

instance (e : Engine) (policyName nodeID : Text) : Decidable (Excludes e policyName nodeID) :=
  inferInstanceAs (Decidable (_ ∨ _))

/-- The template is one of the three that there are. -/
def Known : Template → Bool
  | .other _ => false
  | _ => true

/-- The policies that a pipeline consults. -/
def consultedNames (e : Engine) : List Text :=
  [policyDefaultHealthNameOrFirst e, policyDefaultLagNameOrFirst e, policyDefaultSatNameOrFirst e]

/-- The pipeline was made for the policies, and its engine is in some state. -/
structure MadeFor (policies : List Instance) (p : Pipeline) (e : Engine) : Prop where
  engine : p.policyEng = some e
  instances : e.instances = engineInstances policies
  names : [p.defaultHealthPolicyName, p.defaultLagPolicyName, p.defaultSatPolicyName] =
    consultedNames (newEngine policies)

/-- The request is not for a write. -/
def LeaseRequest.NotWrite (req : LeaseRequest) : Prop :=
  req.port = .read ∨ (req.port = .compat ∧ (classifyFor .compat req.sql).kind ≠ .write)

variable {policies : List Instance} {p : Pipeline} {e : Engine} {req : LeaseRequest}

/-- A policy leaves a node eligible exactly if it does not exclude it. -/
theorem evaluatePolicyState_iff (policyName nodeID : Text) :
    (e.evaluatePolicyState policyName nodeID).1 = true ↔ ¬Excludes e policyName nodeID := by
  unfold Engine.evaluatePolicyState Excludes Engine.candidateState
  cases e.perNodeState policyName nodeID with
  | none => simp
  | some pns => simp

/-- Requests that are not for a write are filtered by the lag. -/
theorem LeaseRequest.NotWrite.classType_ne (h : req.NotWrite) : req.classType ≠ .write := by
  unfold LeaseRequest.classType
  rcases h with hport | ⟨hport, hkind⟩
  · simp [hport]
  · rw [if_pos hport, hport]
    exact hkind

/-- A candidate is judged by its reasons. -/
theorem mem_candidates {env : Env p.topo} {c : Candidate} :
    c ∈ p.candidates env req ↔ ∃ nv ∈ p.topo.nodeViews env.now env.forNodes,
      c = ⟨nv.id, decide (p.reasons req.port req.classType req.postWriteWindowActive nv = []),
        p.reasons req.port req.classType req.postWriteWindowActive nv⟩ := by
  simp only [Pipeline.candidates, Pipeline.filterCandidates, List.mem_map, eq_comm]

/-- A consulted policy that excludes a node makes it ineligible. -/
theorem MadeFor.not_eligible (h : MadeFor policies p e) (hreq : req.NotWrite) {env : Env p.topo}
    {c : Candidate} (hc : c ∈ p.candidates env req) {policyName : Text}
    (hname : policyName ∈ consultedNames (newEngine policies)) (hheld : Excludes e policyName c.nodeID) :
    c.eligible = false := by
  obtain ⟨nv, -, rfl⟩ := mem_candidates.mp hc
  rw [decide_eq_false_iff_not, reasons_eq_nil_iff]
  rintro ⟨-, -, hhealth, hlag, hsat⟩
  have hlag := hlag hreq.classType_ne
  simp only [Pipeline.policyState, h.engine, evaluatePolicyState_iff] at hhealth hlag hsat
  rw [← h.names] at hname
  simp only [List.mem_cons, List.not_mem_nil, or_false] at hname
  rcases hname with rfl | rfl | rfl
  · exact hhealth hheld
  · exact hlag hheld
  · exact hsat hheld

/-- The engine of the policies in which one of them holds a node. -/
def holding (policies : List Instance) (policyName nodeID : Text) : Engine :=
  (newEngine policies).record policyName nodeID fun _ => ⟨.active, 0, []⟩

/-- The pipeline over two replicas with that engine. -/
def holdingPipeline (policies : List Instance) (policyName nodeID : Text) : Pipeline :=
  newPipeline (twoNodes (seenNode .replica) (seenNode .replica))
    (some (holding policies policyName nodeID)) false

/-- No other policy excludes a node in that engine. -/
theorem excludes_holding (policyName nodeID other node : Text) :
    Excludes (holding policies policyName nodeID) other node ↔ other = policyName ∧ node = nodeID := by
  unfold Excludes Engine.candidateState holding
  rw [Engine.perNodeState_record]
  split_ifs with hsame
  · simp [hsame]
  · have hnew : (newEngine policies).perNodeState other node = none := rfl
    simp [hnew, hsame]

/-- A policy that is not consulted leaves the node eligible that it holds. -/
theorem eligible_of_not_consulted {policyName : Text}
    (hname : policyName ∉ consultedNames (newEngine policies)) :
    ⟨text "a", true, []⟩ ∈ (holdingPipeline policies policyName (text "a")).candidates
      (twoNodesEnv (seenNode .replica) (seenNode .replica)) readRequest := by
  refine mem_candidates.mpr ⟨(twoNodes (seenNode .replica) (seenNode .replica)).nodeView 10000000000
    (text "a") (seenNode .replica), List.mem_cons_self, ?_⟩
  have hfree {other : Text} (hother : other ∈ consultedNames (newEngine policies)) :
      ((holdingPipeline policies policyName (text "a")).policyState other (text "a")).1 = true := by
    refine evaluatePolicyState_iff other (text "a") |>.mpr fun hheld => hname ?_
    rwa [← ((excludes_holding policyName (text "a") other (text "a")).mp hheld).1]
  have hreasons : (holdingPipeline policies policyName (text "a")).reasons readRequest.port
      readRequest.classType readRequest.postWriteWindowActive
      ((twoNodes (seenNode .replica) (seenNode .replica)).nodeView 10000000000 (text "a")
        (seenNode .replica)) = [] := by
    refine reasons_eq_nil_iff.mpr ⟨.inr rfl, by decide, hfree ?_, fun _ => hfree ?_, hfree ?_⟩
    · exact List.mem_cons_self
    · exact List.mem_cons_of_mem _ List.mem_cons_self
    · exact List.mem_cons_of_mem _ (List.mem_cons_of_mem _ List.mem_cons_self)
  rw [hreasons]
  rfl

/-- For every list of policies: every node that some instance of a known template holds active or
releasing is an ineligible candidate of every request that is not for a write, in every state of the
engine, exactly if every such instance has one of the three names that a pipeline consults. -/
theorem policies_enforced_iff (policies : List Instance) :
    (∀ p e, MadeFor policies p e → ∀ (env : Env p.topo) (req : LeaseRequest), req.NotWrite →
        ∀ c ∈ p.candidates env req, ∀ inst ∈ e.instances, Known inst.template = true →
          Excludes e inst.name c.nodeID → c.eligible = false) ↔
      ∀ inst ∈ engineInstances policies, Known inst.template = true →
        inst.name ∈ consultedNames (newEngine policies) := by
  constructor
  · intro henforced inst hinst hknown
    by_contra hname
    have hmade : MadeFor policies (holdingPipeline policies inst.name (text "a"))
        (holding policies inst.name (text "a")) := ⟨rfl, rfl, rfl⟩
    have hineligible := henforced _ _ hmade _ readRequest (.inl rfl) _ (eligible_of_not_consulted hname)
      inst hinst hknown ((excludes_holding _ _ _ _).mpr ⟨rfl, rfl⟩)
    cases hineligible
  · intro hconsulted p e hmade env req hreq c hc inst hinst hknown hheld
    rw [hmade.instances] at hinst
    exact hmade.not_eligible hreq hc (hconsulted inst hinst hknown) hheld

/-- A lag filter with a threshold of ten milliseconds and no dwell time. -/
def strictLag : Instance :=
  ⟨text "strict-lag", .lagFilter, text "cluster", [(text "threshold_ms", 10)], 0, 0⟩

/-- A replica that is fifty milliseconds behind. -/
def laggingReplica : NodeState :=
  { seenNode .replica with
    replicationLagMs := some 50
    replicationLagState := .fresh
    lastLagSampleAt := 9000000000 }

/-- The engine with the strict lag filter, once it has evaluated the replica. -/
def strictEngine : Engine :=
  (newEngine [strictLag]).evaluateNode 10000000000
    ((twoNodes laggingReplica laggingReplica).nodeView 10000000000 (text "a") laggingReplica) false

/-- The strict lag filter holds the replica active, and the replica is eligible for a read. -/
theorem strict_lag_not_enforced :
    Excludes strictEngine strictLag.name (text "a") ∧ strictLag ∈ strictEngine.instances ∧
      ⟨text "a", true, []⟩ ∈
        (newPipeline (twoNodes laggingReplica laggingReplica) (some strictEngine) true).candidates
          (twoNodesEnv laggingReplica laggingReplica) readRequest := by
  decide

end Grunyas.Routing
