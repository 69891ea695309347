import Grunyas.Cluster.Probes
import Grunyas.Machine.Run
import Mathlib.Data.Rat.Init

/-!
# The cycle of a probe

A probe has one connection to its node. A cycle opens it where there is none, pings the node, and asks
for the role, the system identifier and, of a replica, the replication lag; what it learns goes to a
sink. The first step that fails ends the cycle and is counted. The count starts again with every
successful cycle, and also with every new connection, so that `down_iff_connectFailures` holds: of the
last failures, all but the first have to be failures to connect for the node to be reported down.

The answers of the node are inputs of the model. Only the loop of the probe opens and closes the
connection, so that there is none when `getOrOpenConn` stores the one it opened.
-/

namespace Grunyas.Probes

open GoText Grunyas.Server Grunyas.Cluster Machine

/-- Where the results of a probe go. The identifier of the system may be refused. -/
structure Sink (σ : Type*) where
  updateLiveness : σ → Time → NodeID → Liveness → Option Text → σ
  updateObservedRole : σ → NodeID → Role → σ
  updateSystemID : σ → NodeID → SystemID → Option Text × σ
  updateLag : σ → NodeID → ℤ → Time → σ
  markLagIdle : σ → NodeID → Time → σ
  markLagUnknown : σ → NodeID → Text → Time → σ

/-- A probe with the threshold it is configured with, and whether it has a connection. -/
structure Probe where
  id : NodeID
  livenessFailureCount : ℤ
  conn : Bool
  failureCount : ℕ
  deriving DecidableEq, Repr

/-- A probe before its first cycle. -/
def Probe.new (id : NodeID) (livenessFailureCount : ℤ) : Probe := ⟨id, livenessFailureCount, false, 0⟩

/-- What the node answers in a cycle: whether an open connection still works, the errors of a new
connection and of the ping, and the results of the three queries. -/
structure Cycle where
  alive : Bool
  connect : Option Text
  ping : Option Text
  inRecovery : Except Text Bool
  systemIdentifier : Except Text SystemID
  lag : Except Text (Option ℚ × Option Time)
  sampledAt : Time
  now : Time

/-- How often a probe may fail. -/
def threshold (livenessFailureCount : ℤ) : ℕ :=
  if livenessFailureCount ≤ 0 then 3 else livenessFailureCount.toNat

/-- Give up the connection. -/
def Probe.closeConn (p : Probe) : Probe := { p with conn := false }

/-- The connection that works, or a new one. -/
def Probe.getOrOpenConn (p : Probe) (c : Cycle) : Option Text × Probe :=
  if p.conn && c.alive then (none, p)
  else
    match c.connect with
    | some err => (some (text "probe connect: " ++ err), { p with conn := false })
    | none => (none, { p with conn := true, failureCount := 0 })

/-- The role of the node. -/
def fetchRole (c : Cycle) : Except Text Role :=
  match c.inRecovery with
  | .error err => .error (text "pg_is_in_recovery: " ++ err)
  | .ok true => .ok .replica
  | .ok false => .ok .primary

/-- The system identifier of the node. -/
def fetchSystemID (c : Cycle) : Except Text SystemID :=
  match c.systemIdentifier with
  | .error err => .error (text "pg_control_system: " ++ err)
  | .ok sid => .ok sid

/-- The lag in whole milliseconds, or none for a replica that is idle. -/
def classifyLagResult (lagMs : Option ℚ) (replayAt : Option Time) : Option ℤ :=
  match lagMs, replayAt with
  | some lagMs, some _ => some (lagMs.num.tdiv lagMs.den)
  | _, _ => none

/-- The replication lag of the node. -/
def fetchLag (c : Cycle) : Except Text (Option ℤ) :=
  match c.lag with
  | .error err => .error (text "replication lag: " ++ err)
  | .ok (lagMs, replayAt) => .ok (classifyLagResult lagMs replayAt)

section

variable {σ : Type*} (S : Sink σ)

/-- Count a failure and report it, as up below the threshold. -/
def Probe.recordFailure (p : Probe) (s : σ) (now : Time) (err : Text) : Probe × σ :=
  let fc := p.failureCount + 1
  ({ p with failureCount := fc },
    S.updateLiveness s now p.id (if threshold p.livenessFailureCount ≤ fc then .down else .up)
      (some err))

/-- Report the replication lag. -/
def Probe.reportLag (p : Probe) (s : σ) (c : Cycle) : σ :=
  match fetchLag c with
  | .error err => S.markLagUnknown s p.id err c.sampledAt
  | .ok none => S.markLagIdle s p.id c.sampledAt
  | .ok (some lagMs) => S.updateLag s p.id lagMs c.sampledAt

/-- One cycle of a probe. -/
def Probe.probeOnce (p : Probe) (s : σ) (c : Cycle) : Probe × σ :=
  match p.getOrOpenConn c with
  | (some err, p) => p.recordFailure S s c.now err
  | (none, p) =>
    match c.ping with
    | some err => p.closeConn.recordFailure S s c.now err
    | none =>
      match fetchRole c with
      | .error err => p.closeConn.recordFailure S s c.now err
      | .ok role =>
        let s := S.updateObservedRole s p.id role
        match fetchSystemID c with
        | .error err => p.closeConn.recordFailure S s c.now err
        | .ok sid =>
          match S.updateSystemID s p.id sid with
          | (some err, s) => p.closeConn.recordFailure S s c.now err
          | (none, s) =>
            let s := if role = .replica then p.reportLag S s c else s
            ({ p with failureCount := 0 }, S.updateLiveness s c.now p.id .up none)

/-- How a cycle ends. -/
inductive CycleOutcome where
  | connectFailed
  | pingFailed
  | roleFailed
  | systemIDFailed
  | mismatch
  | success
  deriving DecidableEq, Repr

/-- The first step of a cycle that fails, from the answers of the node and of the sink. -/
def Probe.outcome (p : Probe) (s : σ) (c : Cycle) : CycleOutcome :=
  if (p.conn && c.alive) = false ∧ c.connect ≠ none then .connectFailed
  else if c.ping ≠ none then .pingFailed
  else
    match fetchRole c, fetchSystemID c with
    | .error _, _ => .roleFailed
    | .ok _, .error _ => .systemIDFailed
    | .ok role, .ok sid =>
      if (S.updateSystemID (S.updateObservedRole s p.id role) p.id sid).1 ≠ none then .mismatch
      else .success

/-- What the sink holds when the liveness is reported. -/
def Probe.informed (p : Probe) (s : σ) (c : Cycle) : σ :=
  match p.outcome S s c, fetchRole c, fetchSystemID c with
  | .systemIDFailed, .ok role, _ => S.updateObservedRole s p.id role
  | .mismatch, .ok role, .ok sid => (S.updateSystemID (S.updateObservedRole s p.id role) p.id sid).2
  | .success, .ok role, .ok sid =>
    let s := (S.updateSystemID (S.updateObservedRole s p.id role) p.id sid).2
    if role = .replica then p.reportLag S s c else s
  | _, _, _ => s

/-- The failures that are counted after a cycle, as long as a probe with a connection counts none. -/
def countAfter (failureCount : ℕ) : CycleOutcome → ℕ
  | .success => 0
  | .connectFailed => failureCount + 1
  | _ => 1

/-- What a probe reports after a cycle. -/
def livenessAfter (livenessFailureCount : ℤ) (failureCount : ℕ) (o : CycleOutcome) : Liveness :=
  if o ≠ .success ∧ threshold livenessFailureCount ≤ countAfter failureCount o then .down else .up

/-- A sink that keeps the liveness reports besides, the latest first. -/
def Sink.recording : Sink (σ × List (NodeID × Liveness)) where
  updateLiveness s now id l err := (S.updateLiveness s.1 now id l err, (id, l) :: s.2)
  updateObservedRole s id role := (S.updateObservedRole s.1 id role, s.2)
  updateSystemID s id sid := ((S.updateSystemID s.1 id sid).1, (S.updateSystemID s.1 id sid).2, s.2)
  updateLag s id lagMs sampledAt := (S.updateLag s.1 id lagMs sampledAt, s.2)
  markLagIdle s id sampledAt := (S.markLagIdle s.1 id sampledAt, s.2)
  markLagUnknown s id reason sampledAt := (S.markLagUnknown s.1 id reason sampledAt, s.2)

/-- A probe with its sink and the outcomes of its cycles, the latest first. -/
structure Cycles (σ : Type*) where
  probe : Probe
  sink : σ × List (NodeID × Liveness)
  outcomes : List CycleOutcome

/-- The next cycle of a probe. -/
def cycleStep (m : Cycles σ) (c : Cycle) : Cycles σ where
  probe := (m.probe.probeOnce S.recording m.sink c).1
  sink := (m.probe.probeOnce S.recording m.sink c).2
  outcomes := m.probe.outcome S.recording m.sink c :: m.outcomes

/-- A new probe of a node. -/
def cycles (s : σ) (id : NodeID) (livenessFailureCount : ℤ) : Cycles σ :=
  ⟨.new id livenessFailureCount, (s, []), []⟩

/-- The last liveness that was reported for a node. -/
def Cycles.reported (m : Cycles σ) (id : NodeID) : Option Liveness := m.sink.2.lookup id

/-- The last cycles, as many as asked for, were not successful. -/
def FailingFor (k : ℕ) (outcomes : List CycleOutcome) : Prop :=
  k ≤ outcomes.length ∧ ∀ o ∈ outcomes.take k, o ≠ .success

instance (k : ℕ) (outcomes : List CycleOutcome) : Decidable (FailingFor k outcomes) :=
  inferInstanceAs (Decidable (_ ∧ _))

/-- The failures that are counted after cycles with these outcomes. -/
def counted : List CycleOutcome → ℕ
  | [] => 0
  | o :: earlier => countAfter (counted earlier) o

/-- The liveness that is reported last in cycles with these outcomes. -/
def lastReport (livenessFailureCount : ℤ) : List CycleOutcome → Option Liveness
  | [] => none
  | o :: earlier => some (livenessAfter livenessFailureCount (counted earlier) o)

variable {S}

/-- A cycle that does not fail to connect goes on with a connection and without counted failures. -/
theorem Probe.getOrOpenConn_eq {p : Probe} (hcount : p.conn = true → p.failureCount = 0) (c : Cycle) :
    (∃ err, ((p.conn && c.alive) = false ∧ c.connect ≠ none) ∧
      p.getOrOpenConn c = (some err, { p with conn := false })) ∨
    ¬((p.conn && c.alive) = false ∧ c.connect ≠ none) ∧
      p.getOrOpenConn c = (none, { p with conn := true, failureCount := 0 }) := by
  unfold Probe.getOrOpenConn
  cases hkeeps : p.conn && c.alive with
  | true =>
    have hconn : p.conn = true := (Bool.and_eq_true_iff.mp hkeeps).1
    refine .inr ⟨by simp, ?_⟩
    simp only [if_true, Prod.mk.injEq, true_and]
    rw [← hconn, ← hcount hconn]
  | false =>
    cases hconnect : c.connect with
    | some err => exact .inl ⟨_, ⟨rfl, by simp⟩, rfl⟩
    | none => exact .inr ⟨by simp, rfl⟩

/-- A cycle counts and reports as its outcome says, and keeps the connection if it succeeds. -/
theorem Probe.probeOnce_eq {p : Probe} (hcount : p.conn = true → p.failureCount = 0) (s : σ)
    (c : Cycle) :
    ∃ err, p.probeOnce S s c =
      ({ p with
          conn := decide (p.outcome S s c = .success)
          failureCount := countAfter p.failureCount (p.outcome S s c) },
        S.updateLiveness (p.informed S s c) c.now p.id
          (livenessAfter p.livenessFailureCount p.failureCount (p.outcome S s c)) err) := by
  unfold Probe.probeOnce Probe.informed
  rcases p.getOrOpenConn_eq hcount c with ⟨err, hfails, hopen⟩ | ⟨hopens, hopen⟩
  · have ho : p.outcome S s c = .connectFailed := if_pos hfails
    simp [hopen, ho, Probe.recordFailure, livenessAfter, countAfter]
  rw [hopen]
  cases hping : c.ping with
  | some err =>
    have ho : p.outcome S s c = .pingFailed := by
      rw [Probe.outcome, if_neg hopens, if_pos (by simp [hping])]
    simp [ho, Probe.recordFailure, Probe.closeConn, livenessAfter, countAfter]
  | none =>
    cases hrole : fetchRole c with
    | error err =>
      have ho : p.outcome S s c = .roleFailed := by
        rw [Probe.outcome, if_neg hopens]
        simp [hping, hrole]
      simp [ho, Probe.recordFailure, Probe.closeConn, livenessAfter, countAfter]
    | ok role =>
      cases hsid : fetchSystemID c with
      | error err =>
        have ho : p.outcome S s c = .systemIDFailed := by
          rw [Probe.outcome, if_neg hopens]
          simp [hping, hrole, hsid]
        simp [ho, Probe.recordFailure, Probe.closeConn, livenessAfter, countAfter]
      | ok sid =>
        rcases hanswer : S.updateSystemID (S.updateObservedRole s p.id role) p.id sid with ⟨_ | err, s'⟩
        · have ho : p.outcome S s c = .success := by
            rw [Probe.outcome, if_neg hopens]
            simp [hping, hrole, hsid, hanswer]
          simp [ho, hanswer, livenessAfter, countAfter, Probe.reportLag]
        · have ho : p.outcome S s c = .mismatch := by
            rw [Probe.outcome, if_neg hopens]
            simp [hping, hrole, hsid, hanswer]
          simp [ho, hanswer, Probe.recordFailure, Probe.closeConn, livenessAfter, countAfter]

/-- A cycle that reaches the sink's answer to the identifier succeeds if the identifier is accepted. -/
theorem Probe.answer_of_outcome {p : Probe} {s : σ} {c : Cycle}
    (h : p.outcome S s c = .mismatch ∨ p.outcome S s c = .success) :
    ∃ role sid, fetchRole c = .ok role ∧ fetchSystemID c = .ok sid ∧
      ((S.updateSystemID (S.updateObservedRole s p.id role) p.id sid).1 = none ↔
        p.outcome S s c = .success) := by
  unfold Probe.outcome at h ⊢
  split_ifs at h ⊢ with hconnect hping
  · simp at h
  · simp at h
  · cases hrole : fetchRole c with
    | error err => simp [hrole] at h
    | ok role =>
      cases hsid : fetchSystemID c with
      | error err => simp [hrole, hsid] at h
      | ok sid => exact ⟨role, sid, rfl, rfl, by simp⟩

/-- A probe with a connection counts no failures. -/
theorem Probe.failureCount_probeOnce {p : Probe} (hcount : p.conn = true → p.failureCount = 0) (s : σ)
    (c : Cycle) (hconn : (p.probeOnce S s c).1.conn = true) :
    (p.probeOnce S s c).1.failureCount = 0 := by
  obtain ⟨err, hcycle⟩ := p.probeOnce_eq (S := S) hcount s c
  rw [hcycle, decide_eq_true_iff] at hconn
  rw [hcycle, hconn]
  rfl

/-- What holds after every cycle. -/
structure Counted (id : NodeID) (livenessFailureCount : ℤ) (m : Cycles σ) : Prop where
  node : m.probe.id = id
  configured : m.probe.livenessFailureCount = livenessFailureCount
  connected : m.probe.conn = true → m.probe.failureCount = 0
  count : m.probe.failureCount = counted m.outcomes
  reported : m.reported id = lastReport livenessFailureCount m.outcomes

/-- The next cycle is counted and reported as its outcome says. -/
theorem Counted.step {id : NodeID} {livenessFailureCount : ℤ} {m : Cycles σ}
    (h : Counted id livenessFailureCount m) (c : Cycle) :
    Counted id livenessFailureCount (cycleStep S m c) := by
  obtain ⟨err, hcycle⟩ := m.probe.probeOnce_eq (S := S.recording) h.connected m.sink c
  refine ⟨?_, ?_, ?_, ?_, ?_⟩
  · simp only [cycleStep, hcycle]
    exact h.node
  · simp only [cycleStep, hcycle]
    exact h.configured
  · exact m.probe.failureCount_probeOnce h.connected m.sink c
  · simp only [cycleStep, hcycle, counted, h.count]
  · have hlog : (cycleStep S m c).sink.2 =
        (id, livenessAfter livenessFailureCount (counted m.outcomes)
          (m.probe.outcome S.recording m.sink c)) ::
          (m.probe.informed S.recording m.sink c).2 := by
      simp only [cycleStep, hcycle, h.node, h.configured, h.count]
      rfl
    rw [Cycles.reported, hlog, List.lookup_cons_self]
    rfl

/-- After any cycles, the count and the last report are those of the outcomes. -/
theorem counted_run (s : σ) (id : NodeID) (livenessFailureCount : ℤ) (inputs : List Cycle) :
    Counted id livenessFailureCount (run (cycleStep S) (cycles s id livenessFailureCount) inputs) := by
  have hall : Throughout (cycleStep S) (fun _ _ => True) (cycles s id livenessFailureCount) inputs :=
    throughout_of_forall fun _ _ => trivial
  refine run_invariant (fun m c h _ => h.step c) ?_ hall
  exact ⟨rfl, rfl, (fun hconn => by cases hconn), rfl, rfl⟩

/-- A count reaches its threshold when all the failures but the first were failures to connect. -/
theorem le_counted_iff {n : ℕ} {outcomes : List CycleOutcome} (h : FailingFor (n + 1) outcomes) :
    n + 1 ≤ counted outcomes ↔ ∀ o ∈ outcomes.take n, o = .connectFailed := by
  induction n generalizing outcomes with
  | zero =>
    obtain ⟨hlen, hfails⟩ := h
    cases outcomes with
    | nil => simp at hlen
    | cons o earlier =>
      have ho : o ≠ .success := hfails o (by simp)
      cases o <;> simp_all [counted, countAfter]
  | succ n ih =>
    obtain ⟨hlen, hfails⟩ := h
    cases outcomes with
    | nil => simp at hlen
    | cons o earlier =>
      simp only [List.take_succ_cons, List.mem_cons, forall_eq_or_imp, List.length_cons,
        Nat.add_le_add_iff_right] at hlen hfails ⊢
      have hearlier := ih ⟨hlen, hfails.2⟩
      cases o <;> simp_all [counted, countAfter]

/-- The threshold of a probe is positive. -/
theorem threshold_pos (livenessFailureCount : ℤ) : 0 < threshold livenessFailureCount := by
  unfold threshold
  split_ifs
  · decide
  · omega

/-- Failures that were reported last are reported as down when the count reached the threshold. -/
theorem lastReport_eq_down_iff {livenessFailureCount : ℤ} {outcomes : List CycleOutcome}
    (h : FailingFor (threshold livenessFailureCount) outcomes) :
    lastReport livenessFailureCount outcomes = some .down ↔
      threshold livenessFailureCount ≤ counted outcomes := by
  obtain ⟨hlen, hfails⟩ := h
  have hpos := threshold_pos livenessFailureCount
  cases outcomes with
  | nil =>
    simp only [List.length_nil] at hlen
    omega
  | cons o earlier =>
    have ho : o ≠ .success := by
      refine hfails o ?_
      obtain ⟨k, hk⟩ := Nat.exists_eq_succ_of_ne_zero hpos.ne'
      simp [hk]
    simp [lastReport, livenessAfter, counted, ho]

end

/-- For every sink and every run of cycles of a probe, at its end: if as many cycles as the threshold
says were not successful, the node is reported down, exactly if then all of these cycles but the first
failed to connect. -/
theorem down_iff_connectFailures {σ : Type*} (S : Sink σ) (s : σ) (id : NodeID)
    (livenessFailureCount : ℤ) (inputs : List Cycle) :
    let k := threshold livenessFailureCount
    let m := run (cycleStep S) (cycles s id livenessFailureCount) inputs
    (FailingFor k m.outcomes → m.reported id = some .down) ↔
      (FailingFor k m.outcomes → ∀ o ∈ m.outcomes.take (k - 1), o = .connectFailed) := by
  intro k m
  have hm : Counted id livenessFailureCount m := counted_run s id livenessFailureCount inputs
  refine forall_congr' fun hfails => ?_
  have hk : k - 1 + 1 = k := Nat.sub_add_cancel (threshold_pos livenessFailureCount)
  have hfails' : FailingFor (k - 1 + 1) m.outcomes := by rwa [hk]
  have hcount := le_counted_iff hfails'
  rw [hk] at hcount
  rw [hm.reported, lastReport_eq_down_iff hfails]
  exact hcount

/-- A node that accepts a connection and does not answer the ping. -/
def silentNode (now : Time) : Cycle where
  alive := false
  connect := none
  ping := some (text "timeout")
  inRecovery := .error (text "timeout")
  systemIdentifier := .error (text "timeout")
  lag := .error (text "timeout")
  sampledAt := now
  now := now

/-- A sink that keeps nothing. -/
def noSink : Sink Unit :=
  ⟨fun _ _ _ _ _ => (), fun _ _ _ => (), fun _ _ _ => (none, ()), fun _ _ _ _ => (),
    fun _ _ _ => (), fun _ _ _ _ => ()⟩

/-- Three failed cycles in a row leave the node reported up, with the threshold of three. -/
theorem silent_node_reported_up :
    let m := run (cycleStep noSink) (cycles () (text "a") 3) [silentNode 1, silentNode 2, silentNode 3]
    FailingFor (threshold 3) m.outcomes ∧ m.reported (text "a") = some .up := by
  decide

end Grunyas.Probes
