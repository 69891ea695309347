import Grunyas.Go.CounterMap
import Grunyas.Machine.Interleaving
import Grunyas.Routing.Agreement

/-!
# The counters of the decisions

Every call increments a total, the total of its outcome, the total of published events and a counter
of its own key. The increments are atomic, and those of several calls may interleave; no call reads a
counter. A `Call` has increments that make the counters it found those that the called function leaves.
`counters_balance` says that the counters agree with each other whenever no call is in progress, and
that the labels which the admin interface reads out of a key are those of the event.
-/

namespace Grunyas.Routing

open GoText GoMap Machine Grunyas.Server Grunyas.Classifier Grunyas.Cluster Grunyas.Decisions
  Grunyas.Policy

/-- The counters of a pipeline. -/
structure Counters where
  decisionsTotal : ℕ
  decisionsLeased : ℕ
  decisionsRejected : ℕ
  decisionsFallback : ℕ
  publishedTotal : ℕ
  compatReclassificationRejections : ℕ
  decisionCounters : Finmap (fun _ : Text => ℕ)

/-- The counters of a pipeline. -/
def Pipeline.counters (p : Pipeline) : Counters where
  decisionsTotal := p.decisionsTotal
  decisionsLeased := p.decisionsLeased
  decisionsRejected := p.decisionsRejected
  decisionsFallback := p.decisionsFallback
  publishedTotal := p.publishedTotal
  compatReclassificationRejections := p.compatReclassificationRejections
  decisionCounters := p.decisionCounters

/-- One atomic increment. -/
inductive Bump where
  | total
  | leased
  | rejected
  | fallback
  | published
  | reclassification
  | key (key : Text)
  deriving DecidableEq, Repr

/-- Increment a counter. -/
def Counters.bump (c : Counters) : Bump → Counters
  | .total => { c with decisionsTotal := c.decisionsTotal + 1 }
  | .leased => { c with decisionsLeased := c.decisionsLeased + 1 }
  | .rejected => { c with decisionsRejected := c.decisionsRejected + 1 }
  | .fallback => { c with decisionsFallback := c.decisionsFallback + 1 }
  | .published => { c with publishedTotal := c.publishedTotal + 1 }
  | .reclassification =>
    { c with compatReclassificationRejections := c.compatReclassificationRejections + 1 }
  | .key key => { c with decisionCounters := increment c.decisionCounters key }

/-- The increment for the outcome of an event; no event has an empty one. -/
def outcomeBumps : OutcomeKind → List Bump
  | .empty => []
  | .leased => [.leased]
  | .rejected => [.rejected]
  | .fallback => [.fallback]

/-- A call on a pipeline. -/
inductive Operation (p : Pipeline) where
  | lease (env : Env p.topo) (req : LeaseRequest)
  | rejectReadPortWrite (sql : Text) (poolMode : PoolMode)
  | rejectCompatReclassification (sql : Text) (poolMode : PoolMode)

/-- The pipeline that a call leaves. -/
def Operation.after {p : Pipeline} : Operation p → Pipeline
  | .lease env req => (p.lease env req).2
  | .rejectReadPortWrite sql poolMode => (p.rejectReadPortWrite sql poolMode).2
  | .rejectCompatReclassification sql poolMode => (p.rejectCompatReclassification sql poolMode).2

/-- A call on a pipeline with a bus, in whatever state it finds it, with increments that leave the
counters that it leaves. -/
structure Call where
  pipeline : Pipeline
  bus : pipeline.hasBus = true
  operation : Operation pipeline
  bumps : List Bump
  leaves : operation.after.counters = bumps.foldl Counters.bump pipeline.counters

/-- The event that a call publishes. -/
def Call.event (call : Call) : Option Event := call.operation.after.published.getLast?

/-- The increments of a call that publishes an event, in their order. -/
def Operation.bumps {p : Pipeline} (op : Operation p) (event : Event) : List Bump :=
  match op with
  | .rejectCompatReclassification _ _ =>
    .total :: outcomeBumps event.outcome.kind ++
      [.reclassification, .published, .key (counterKey event)]
  | _ => .total :: outcomeBumps event.outcome.kind ++ [.published, .key (counterKey event)]

/-- What `Collect` makes of a key: the labels for the port, the outcome and the reason. -/
def collectLabels (key : Text) : Option (Text × Text × Text) :=
  match splitByteN 0x3A 3 key with
  | [port, outcome, reason] => some (port, outcome, reason)
  | _ => none

/-- Whether a key has an outcome. -/
def hasOutcome (kind : OutcomeKind) (key : Text) : Bool :=
  (collectLabels key).map (fun labels => labels.2.1) == some (outcomeKey kind)

/-- The counters agree with each other. -/
structure Counters.Balanced (c : Counters) : Prop where
  outcomes : c.decisionsTotal = c.decisionsLeased + c.decisionsRejected + c.decisionsFallback
  published : c.decisionsTotal = c.publishedTotal
  keys : c.decisionsTotal = sumWhere c.decisionCounters fun _ => true
  leased : c.decisionsLeased = sumWhere c.decisionCounters (hasOutcome .leased)
  rejected : c.decisionsRejected = sumWhere c.decisionCounters (hasOutcome .rejected)
  fallback : c.decisionsFallback = sumWhere c.decisionCounters (hasOutcome .fallback)

/-- The labels that are read out of the key of an event are those of the event. -/
theorem collectLabels_counterKey (event : Event) :
    collectLabels (counterKey event) =
      some (portKey event.port, outcomeKey event.outcome.kind, event.outcome.reason) := by
  have hport : (0x3A : UInt8) ∉ portKey event.port := by
    cases event.port with
    | other name =>
      change (0x3A : UInt8) ∉ text "invalid"
      decide
    | _ => decide
  have hkind : (0x3A : UInt8) ∉ outcomeKey event.outcome.kind := by
    cases event.outcome.kind <;> decide
  have hkey : counterKey event = portKey event.port ++
      0x3A :: (outcomeKey event.outcome.kind ++ 0x3A :: event.outcome.reason) := by
    have hcolon : text ":" = [0x3A] := by decide
    rw [counterKey, hcolon]
    simp
  rw [collectLabels, hkey, splitByteN_append hport, splitByteN_append hkind]
  rfl

/-- The key of an event has the outcome of the event. -/
theorem hasOutcome_counterKey (kind : OutcomeKind) (event : Event) :
    hasOutcome kind (counterKey event) = decide (event.outcome.kind = kind) := by
  have hkey (first second : OutcomeKind) :
      (some (outcomeKey first) == some (outcomeKey second)) = decide (first = second) := by
    cases first <;> cases second <;> decide
  rw [hasOutcome, collectLabels_counterKey]
  exact hkey event.outcome.kind kind

/-- Emitting an event publishes it and increments the total of published events and the counter of its
key. -/
theorem emitEvent_bumps {p : Pipeline} (hbus : p.hasBus = true) (event : Event) :
    (p.emitEvent event).published = p.published ++ [event] ∧
      (p.emitEvent event).counters =
        [.published, .key (counterKey event)].foldl Counters.bump p.counters := by
  unfold Pipeline.emitEvent
  rw [if_pos hbus]
  exact ⟨rfl, rfl⟩

/-- Every exit of a lease publishes one event and makes its increments. -/
theorem Exit.bumps {p : Pipeline} {env : Env p.topo} {req : LeaseRequest}
    {answer : LeaseResult × Pipeline} (hexit : Exit p env req answer) (hbus : p.hasBus = true) :
    ∃ event, answer.2.published = p.published ++ [event] ∧ event.outcome.kind ≠ .empty ∧
      answer.2.counters =
        ((Operation.lease env req).bumps event).foldl Counters.bump p.counters := by
  cases hexit with
  | rejected readRR read write event nodeID error reason =>
    obtain ⟨hpublished, hcounters⟩ := emitEvent_bumps
      (p := { p.entered readRR read write with decisionsRejected := p.decisionsRejected + 1 }) hbus
      { event with outcome := { kind := .rejected, sqlState := error.code, reason } }
    exact ⟨_, hpublished, by simp, hcounters⟩
  | undecided readRR read write event error reason =>
    obtain ⟨hpublished, hcounters⟩ := emitEvent_bumps
      (p := { p.entered readRR read write with decisionsRejected := p.decisionsRejected + 1 }) hbus
      { event with outcome := { kind := .rejected, sqlState := error.code, reason } }
    exact ⟨_, hpublished, by simp, hcounters⟩
  | fallback readRR read write event nodeID conn _ hkind =>
    obtain ⟨hpublished, hcounters⟩ := emitEvent_bumps
      (p := { p.entered readRR read write with decisionsFallback := p.decisionsFallback + 1 }) hbus
      event
    refine ⟨event, hpublished, by simp [hkind], ?_⟩
    simp only [Operation.bumps, hkind]
    exact hcounters
  | leased readRR read write event nodeID conn _ hkind =>
    obtain ⟨hpublished, hcounters⟩ := emitEvent_bumps
      (p := { p.entered readRR read write with decisionsLeased := p.decisionsLeased + 1 }) hbus event
    refine ⟨event, hpublished, by simp [hkind], ?_⟩
    simp only [Operation.bumps, hkind]
    exact hcounters

/-- Every call publishes one event and makes its increments. -/
theorem Operation.emits {p : Pipeline} (op : Operation p) (hbus : p.hasBus = true) :
    ∃ event, op.after.published = p.published ++ [event] ∧ event.outcome.kind ≠ .empty ∧
      op.after.counters = (op.bumps event).foldl Counters.bump p.counters := by
  cases op with
  | lease env req => exact (lease_exit p env req).bumps hbus
  | rejectReadPortWrite sql poolMode =>
    obtain ⟨hpublished, hcounters⟩ := emitEvent_bumps (p := { p with
      decisionsTotal := p.decisionsTotal + 1
      decisionsRejected := p.decisionsRejected + 1 }) hbus (readPortWriteEvent sql poolMode)
    exact ⟨_, hpublished, by simp [readPortWriteEvent], hcounters⟩
  | rejectCompatReclassification sql poolMode =>
    obtain ⟨hpublished, hcounters⟩ := emitEvent_bumps (p := { p with
      decisionsTotal := p.decisionsTotal + 1
      decisionsRejected := p.decisionsRejected + 1
      compatReclassificationRejections := p.compatReclassificationRejections + 1 }) hbus
      (compatReclassificationEvent sql poolMode)
    exact ⟨_, hpublished, by simp [compatReclassificationEvent], hcounters⟩

/-- The weight of the increments of one total. -/
def only (counted : Bump) (b : Bump) : ℕ := if b = counted then 1 else 0

/-- The weight of the increments of the counters whose keys pass a test. -/
def keyWeight (test : Text → Bool) : Bump → ℕ
  | .key key => if test key then 1 else 0
  | _ => 0

/-- An increment adds its weight to a sum of counters. -/
theorem sumWhere_bump (test : Text → Bool) (c : Counters) (b : Bump) :
    sumWhere (c.bump b).decisionCounters test =
      sumWhere c.decisionCounters test + keyWeight test b := by
  cases b with
  | key key => exact sumWhere_increment c.decisionCounters test key
  | _ => rfl

/-- What the increments of a call add to a view of the counters that ignores the reclassifications. -/
theorem Call.sum_weights (call : Call) {event : Event}
    (hcounters : call.operation.after.counters =
      (call.operation.bumps event).foldl Counters.bump call.pipeline.counters)
    {view : Counters → ℕ} {weight : Bump → ℕ} (hstep : ∀ c b, view (c.bump b) = view c + weight b)
    (hweight : weight .reclassification = 0) :
    (call.bumps.map weight).sum =
      weight .total + ((outcomeBumps event.outcome.kind).map weight).sum + weight .published +
        weight (.key (counterKey event)) := by
  have hsame : (call.bumps.map weight).sum = ((call.operation.bumps event).map weight).sum := by
    have hleaves := congrArg view (call.leaves.symm.trans hcounters)
    rw [foldl_view_eq hstep, foldl_view_eq hstep] at hleaves
    exact Nat.add_left_cancel hleaves
  rw [hsame]
  cases call.operation with
  | rejectCompatReclassification sql poolMode =>
    simp [Operation.bumps, hweight]
    omega
  | _ =>
    simp [Operation.bumps]
    omega

/-- A call publishes one event, and its increments are those of the event. -/
theorem Call.emits (call : Call) :
    ∃ event, call.event = some event ∧
      call.operation.after.published = call.pipeline.published ++ [event] ∧
      event.outcome.kind ≠ .empty ∧
      ∀ {view : Counters → ℕ} {weight : Bump → ℕ}, (∀ c b, view (c.bump b) = view c + weight b) →
        weight .reclassification = 0 →
          (call.bumps.map weight).sum =
            weight .total + ((outcomeBumps event.outcome.kind).map weight).sum + weight .published +
              weight (.key (counterKey event)) := by
  obtain ⟨event, hpublished, hkind, hcounters⟩ := call.operation.emits call.bus
  refine ⟨event, ?_, hpublished, hkind, call.sum_weights hcounters⟩
  rw [Call.event, hpublished, List.getLast?_concat]

section

variable {calls : List Call} {execution : List Bump}

/-- A view of the counters counts the calls to whose events its weights add up. -/
theorem view_eq_countP (h : Interleaved (calls.map Call.bumps) execution) (view : Counters → ℕ)
    (weight : Bump → ℕ) (hstep : ∀ c b, view (c.bump b) = view c + weight b)
    (hweight : weight .reclassification = 0) {c : Counters} (hc : view c = 0) {adds : Event → Bool}
    (hadds : ∀ event, weight .total + ((outcomeBumps event.outcome.kind).map weight).sum +
      weight .published + weight (.key (counterKey event)) = if adds event then 1 else 0) :
    view (execution.foldl Counters.bump c) = calls.countP fun call => call.event.any adds := by
  have hsum : ((calls.map Call.bumps).map fun bumps => (bumps.map weight).sum).sum =
      calls.countP fun call => call.event.any adds := by
    clear h
    induction calls with
    | nil => rfl
    | cons call rest ih =>
      obtain ⟨event, hevent, -, -, hbumps⟩ := call.emits
      simp only [List.map_cons, List.sum_cons, List.countP_cons, hbumps hstep hweight, hadds, ih, hevent,
        Option.any_some]
      exact Nat.add_comm _ _
  rw [h.view_eq hstep, hc, hsum, Nat.zero_add]

/-- Every call has one of three outcomes. -/
theorem length_eq_outcomes (calls : List Call) :
    (calls.countP fun call => call.event.any fun _ => true) =
      (calls.countP fun call => call.event.any fun event => event.outcome.kind = .leased) +
        (calls.countP fun call => call.event.any fun event => event.outcome.kind = .rejected) +
        (calls.countP fun call => call.event.any fun event => event.outcome.kind = .fallback) := by
  induction calls with
  | nil => rfl
  | cons call rest ih =>
    obtain ⟨event, hevent, -, hkind, -⟩ := call.emits
    simp only [List.countP_cons, hevent, Option.any_some, ih]
    cases hcase : event.outcome.kind with
    | empty => exact absurd hcase hkind
    | leased =>
      simp
      omega
    | rejected =>
      simp
      omega
    | fallback =>
      simp
      omega

/-- For every collection of calls, whatever each of them sees of the topology, the policies, the pools
and the round robin, and for every order of their increments: once all of them are done the counters
agree with each other, and every call has published one event, is counted under the key of this event,
and the labels read out of the key are those of the event. -/
theorem counters_balance (topo : Topology) (policyEng : Option Engine) (calls : List Call)
    {execution : List Bump} (h : Interleaved (calls.map Call.bumps) execution) :
    let final := execution.foldl Counters.bump (newPipeline topo policyEng true).counters
    final.Balanced ∧
      (∀ key, counter final.decisionCounters key =
        calls.countP fun call => call.event.any fun event => counterKey event = key) ∧
      ∀ call ∈ calls, ∃ event, call.event = some event ∧
        call.operation.after.published = call.pipeline.published ++ [event] ∧
        collectLabels (counterKey event) =
          some (portKey event.port, outcomeKey event.outcome.kind, event.outcome.reason) := by
  intro final
  have htotal : final.decisionsTotal = calls.countP fun call => call.event.any fun _ => true := by
    refine view_eq_countP h Counters.decisionsTotal (only .total) (fun c b => ?_) rfl rfl fun event => ?_
    · cases b <;> rfl
    · cases event.outcome.kind <;> rfl
  have hpublished : final.publishedTotal = calls.countP fun call => call.event.any fun _ => true := by
    refine view_eq_countP h Counters.publishedTotal (only .published) (fun c b => ?_) rfl rfl fun event => ?_
    · cases b <;> rfl
    · cases event.outcome.kind <;> rfl
  have hleased : final.decisionsLeased =
      calls.countP fun call => call.event.any fun event => event.outcome.kind = .leased := by
    refine view_eq_countP h Counters.decisionsLeased (only .leased) (fun c b => ?_) rfl rfl fun event => ?_
    · cases b <;> rfl
    · cases event.outcome.kind <;> rfl
  have hrejected : final.decisionsRejected =
      calls.countP fun call => call.event.any fun event => event.outcome.kind = .rejected := by
    refine view_eq_countP h Counters.decisionsRejected (only .rejected) (fun c b => ?_) rfl rfl fun event => ?_
    · cases b <;> rfl
    · cases event.outcome.kind <;> rfl
  have hfallback : final.decisionsFallback =
      calls.countP fun call => call.event.any fun event => event.outcome.kind = .fallback := by
    refine view_eq_countP h Counters.decisionsFallback (only .fallback) (fun c b => ?_) rfl rfl fun event => ?_
    · cases b <;> rfl
    · cases event.outcome.kind <;> rfl
  have hkeys (test : Text → Bool) : sumWhere final.decisionCounters test =
      calls.countP fun call => call.event.any fun event => test (counterKey event) := by
    refine view_eq_countP h (fun c => sumWhere c.decisionCounters test) (keyWeight test)
      (sumWhere_bump test) rfl rfl fun event => ?_
    cases event.outcome.kind <;> simp [outcomeBumps, keyWeight]
  have hkinds (kind : OutcomeKind) : sumWhere final.decisionCounters (hasOutcome kind) =
      calls.countP fun call => call.event.any fun event => event.outcome.kind = kind := by
    rw [hkeys]
    simp only [hasOutcome_counterKey]
  refine ⟨⟨?_, ?_, ?_, ?_, ?_, ?_⟩, fun key => ?_, fun call _ => ?_⟩
  · rw [htotal, hleased, hrejected, hfallback]
    exact length_eq_outcomes calls
  · rw [htotal, hpublished]
  · rw [htotal, hkeys]
  · rw [hleased, hkinds]
  · rw [hrejected, hkinds]
  · rw [hfallback, hkinds]
  · rw [← sumWhere_eq_counter, hkeys]
  · obtain ⟨event, hevent, hpublished, -⟩ := call.emits
    exact ⟨event, hevent, hpublished, collectLabels_counterKey event⟩

/-- A lease of the primary and the refusal of an insert on the read port are counted alike in all
counters, also if the refusal comes between the increments of the lease. -/
theorem counters_balance_interleaved :
    ∃ (lease refusal : Call) (rest : List Bump), lease.bumps = .total :: rest ∧
      (lease.event.map fun event => event.outcome.kind) = some .leased ∧
      (refusal.event.map fun event => event.outcome.kind) = some .rejected ∧
      ((.total :: (refusal.bumps ++ rest)).foldl Counters.bump primaryAndReplica.counters).Balanced := by
  obtain ⟨event, -, -, hlease⟩ :=
    Operation.emits (p := primaryAndReplica) (.lease (twoNodesEnv _ _) (insertRequest .compat)) rfl
  obtain ⟨event', -, -, hrefusal⟩ :=
    Operation.emits (p := primaryAndReplica)
      (.rejectReadPortWrite (text "INSERT INTO t VALUES (1)") .session) rfl
  let lease : Call := ⟨_, rfl, _, _, hlease⟩
  let refusal : Call := ⟨_, rfl, _, _, hrefusal⟩
  have hrest : Interleaved ([] ++ lease.bumps.tail :: [refusal.bumps])
      (refusal.bumps ++ lease.bumps.tail) := .swapped _ _
  refine ⟨lease, refusal, lease.bumps.tail, rfl, ?_, ?_, ?_⟩
  · change (((primaryAndReplica.lease (twoNodesEnv _ _) (insertRequest .compat)).2.published.getLast?).map
      fun event => event.outcome.kind) = some .leased
    decide
  · rfl
  · exact (counters_balance _ none [lease, refusal] hrest.turn).1

end

end Grunyas.Routing
