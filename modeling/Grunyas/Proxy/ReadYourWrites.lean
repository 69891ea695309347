import Grunyas.Proxy.Acquire
import Grunyas.Routing.Foreign
import Grunyas.Routing.Reads
import Grunyas.Session.Leases
import Grunyas.Session.WriteCommit

/-!
# Reads after the commit of a write

A client of the compat port should see its own writes although its reads go to replicas. Three parts
work together for this: the session opens its window when a write is committed, sends the state of the
window with every request for a lease, and the pipeline then admits only the primary to a read. The
session is followed here together with the time of the last commit, and `read_your_writes` composes it
with the acquisition by the proxy.
-/

namespace Grunyas.Server

open GoText Grunyas.Classifier Machine

attribute [ext] PostWriteWindow

/-- The clock that the turn of an event reads. -/
def Event.clock : Event → Option Time
  | .upstream env _ => some env.now
  | .downstream env _ => some env.now
  | _ => none

/-- A lease of the primary ends that was acquired by a write, on which no error came back and nothing
that begins with `ROLLBACK` was forwarded. -/
def CommitsWrite (s : Session) (l : WriteLog) : Event → Prop
  | .upstream env msg =>
    EndsLease env s msg ∧ s.compatLeasedRole = some .primary ∧ l.failed = false ∧
      l.opener = some .write ∧ l.rollback = false
  | _ => False

instance CommitsWrite.decidable (s : Session) (l : WriteLog) : (ev : Event) →
    Decidable (CommitsWrite s l ev)
  | .upstream _ _ => inferInstanceAs (Decidable (_ ∧ _ ∧ _ ∧ _ ∧ _))
  | .downstream _ _ => inferInstanceAs (Decidable False)
  | .downstreamClosed => inferInstanceAs (Decidable False)
  | .err => inferInstanceAs (Decidable False)
  | .release => inferInstanceAs (Decidable False)
  | .done => inferInstanceAs (Decidable False)

/-- The log of writes with the time of the last commit of a write and the clock that was read last. -/
structure ReadLog where
  writes : WriteLog
  committedAt : Option Time
  clock : Time
  deriving DecidableEq, Repr

/-- The log after an event was taken. -/
def ReadLog.note (l : ReadLog) (s : Session) (ev : Event) : ReadLog where
  writes := l.writes.note s ev
  committedAt := if CommitsWrite s l.writes ev then ev.clock else l.committedAt
  clock := ev.clock.getD l.clock

/-- The log after an action of the session. -/
def ReadLog.record (l : ReadLog) (act : Action) : ReadLog := { l with writes := l.writes.record act }

/-- The main loop with the log of commits. -/
def readStep : Watched Session ReadLog → Event → Watched Session ReadLog :=
  Watched.step turn ReadLog.note ReadLog.record

/-- The main loop at its start, at a time. -/
def Session.reads (s : Session) (clock : Time) : Watched Session ReadLog :=
  ⟨s, ⟨.empty, none, clock⟩, .running⟩

/-- The clock does not go back. -/
def ClockOnward (w : Watched Session ReadLog) (ev : Event) : Prop :=
  ∀ now ∈ ev.clock, w.ledger.clock ≤ now

instance (w : Watched Session ReadLog) (ev : Event) : Decidable (ClockOnward w ev) :=
  inferInstanceAs (Decidable (∀ now ∈ ev.clock, w.ledger.clock ≤ now))

/-- The log of commits sees the same writes as the log of writes. -/
theorem observe_readStep (w : Watched Session ReadLog) (ev : Event) :
    (readStep w ev).observe ReadLog.writes = writeStep (w.observe ReadLog.writes) ev :=
  Watched.observe_step ReadLog.writes id (fun _ _ => rfl) (fun _ _ _ => rfl) (fun _ _ => rfl) w ev

/-- Actions are recorded in the log of writes only. -/
theorem foldl_record (acts : List Action) (l : ReadLog) :
    (acts.foldl ReadLog.record l).committedAt = l.committedAt ∧
      (acts.foldl ReadLog.record l).clock = l.clock := by
  induction acts generalizing l with
  | nil => exact ⟨rfl, rfl⟩
  | cons act acts ih => exact ih (l.record act)

/-- The end of a lease keeps the length of the window. -/
theorem durationMs_of_endsLease {env : Env} {s : Session} {msg : BackendMessage}
    (hends : EndsLease env s msg) :
    (turn s (.upstream env msg)).state.postWriteWindow.durationMs = s.postWriteWindow.durationMs := by
  obtain ⟨rfl, hmode, hheld, hswallow, hsend, hflush⟩ := hends
  obtain ⟨hnone, -⟩ | ⟨-, hswallow', -⟩ | ⟨-, -, hrelay⟩ :=
    serve_upstream_cases s env (.readyForQuery statusIdle)
  · exact absurd hnone hheld
  · simp [hswallow] at hswallow'
  · obtain ⟨hnext, hstate⟩ := hrelay.detaches hmode hsend hflush
    rw [turn_eq_serve hnext, hstate, releaseUpstream_postWriteWindow, trackReadyForQuery]
    split_ifs
    · rw [handleCompatReadyForQuery, if_pos rfl, resetCompatState]
      dsimp only
      split_ifs <;> rfl
    · rfl

/-- A turn keeps the window, or ends a lease and opens it at the time of the turn. -/
theorem turn_window_cases (s : Session) (ev : Event) (hport : s.port = .compat) :
    (turn s ev).state.postWriteWindow = s.postWriteWindow ∨
      ∃ now ∈ ev.clock, (turn s ev).state.postWriteWindow = ⟨now, s.postWriteWindow.durationMs⟩ := by
  by_cases hends : ∃ env msg, ev = .upstream env msg ∧ EndsLease env s msg
  · obtain ⟨env, msg, rfl, hends⟩ := hends
    have hopened := openedAt_of_endsLease hends hport
    have hduration := durationMs_of_endsLease hends
    split_ifs at hopened
    · exact .inr ⟨env.now, rfl, PostWriteWindow.ext hopened hduration⟩
    · exact .inl (PostWriteWindow.ext hopened hduration)
  · refine .inl (turn_postWriteWindow ?_)
    intro env msg hev hmsg
    exact hends ⟨env, msg, hev, hmsg⟩

/-- A committed write opens the window. -/
theorem CommitsWrite.opens {s : Session} {l : WriteLog} {ev : Event} (h : CommitsWrite s l ev)
    (hport : s.port = .compat) (htracked : s.poolMode = .transaction → Tracked s l) :
    ∃ now ∈ ev.clock, (turn s ev).state.postWriteWindow.openedAt = now := by
  cases ev with
  | upstream env msg =>
    obtain ⟨hends, hprimary, -, hopener, hrollback⟩ := h
    have htracked := htracked hends.2.1
    refine ⟨env.now, rfl, ?_⟩
    rw [openedAt_of_endsLease hends hport, if_pos]
    exact ⟨htracked.awaiting.trans hrollback, htracked.first.mpr hopener, hprimary⟩
  | _ => exact h.elim

/-- What holds of the window throughout a session: its length is the configured one, and it was opened
no earlier than the last commit and no later than now. -/
structure Windowed (windowMs : ℤ) (w : Watched Session ReadLog) : Prop where
  tracked : RunsTracked (w.observe ReadLog.writes)
  duration : w.state.postWriteWindow.durationMs = windowMs
  positive : 0 < w.ledger.clock
  opened : w.state.postWriteWindow.openedAt ≤ w.ledger.clock
  committed : ∀ since ∈ w.ledger.committedAt,
    0 < since ∧ since ≤ w.state.postWriteWindow.openedAt

/-- The clock that is noted is the one the event reads, if it reads one. -/
theorem clock_note {l : ReadLog} {s : Session} {ev : Event} {now : Time} (hnow : now ∈ ev.clock) :
    (l.note s ev).clock = now := by
  rw [ReadLog.note, Option.mem_def.mp hnow, Option.getD_some]

/-- Noting an event in order does not turn the clock back. -/
theorem ClockOnward.clock_le {w : Watched Session ReadLog} {ev : Event} (h : ClockOnward w ev) :
    w.ledger.clock ≤ (w.ledger.note w.state ev).clock := by
  unfold ReadLog.note
  cases hev : ev.clock with
  | none => exact le_rfl
  | some now => exact h now hev

/-- A turn in order opens the window no earlier than before and no later than now. -/
theorem Windowed.openedAt_turn {windowMs : ℤ} {w : Watched Session ReadLog} {ev : Event}
    (hw : Windowed windowMs w) (horder : ClockOnward w ev) :
    w.state.postWriteWindow.openedAt ≤ (turn w.state ev).state.postWriteWindow.openedAt ∧
      (turn w.state ev).state.postWriteWindow.openedAt ≤ (w.ledger.note w.state ev).clock := by
  obtain hkept | ⟨now, hnow, hopened⟩ := turn_window_cases w.state ev hw.tracked.1
  · rw [hkept]
    exact ⟨le_rfl, hw.opened.trans horder.clock_le⟩
  · rw [hopened, clock_note hnow]
    exact ⟨hw.opened.trans (horder now hnow), le_rfl⟩

/-- After a turn in order the window was opened no earlier than the last commit. -/
theorem Windowed.committed_turn {windowMs : ℤ} {w : Watched Session ReadLog} {ev : Event}
    (hw : Windowed windowMs w) (hrun : w.next = .running) (horder : ClockOnward w ev) :
    ∀ since ∈ (w.ledger.note w.state ev).committedAt,
      0 < since ∧ since ≤ (turn w.state ev).state.postWriteWindow.openedAt := by
  intro since hsince
  unfold ReadLog.note at hsince
  dsimp only at hsince
  split_ifs at hsince with hcommits
  · obtain ⟨now, hnow, hopened⟩ := hcommits.opens hw.tracked.1 (hw.tracked.2 hrun)
    obtain rfl : now = since := Option.mem_unique hnow hsince
    exact ⟨hw.positive.trans_le (horder now hnow), hopened.ge⟩
  · obtain ⟨hpositive, hopened⟩ := hw.committed since hsince
    exact ⟨hpositive, hopened.trans (hw.openedAt_turn horder).1⟩

/-- Every step in order keeps the window. -/
theorem windowed_readStep {windowMs : ℤ} (w : Watched Session ReadLog) (ev : Event)
    (hw : Windowed windowMs w) (horder : ClockOnward w ev) : Windowed windowMs (readStep w ev) := by
  by_cases hrun : w.next = .running
  · have htracked : RunsTracked ((readStep w ev).observe ReadLog.writes) := by
      rw [observe_readStep]
      exact tracked_step ev hw.tracked
    have hstep : readStep w ev = ⟨(turn w.state ev).state,
        (turn w.state ev).acts.foldl ReadLog.record (w.ledger.note w.state ev),
        (turn w.state ev).next⟩ := Watched.step_of_running hrun ev
    obtain ⟨hcommitted, hclock⟩ := foldl_record (turn w.state ev).acts (w.ledger.note w.state ev)
    rw [hstep] at htracked ⊢
    refine ⟨htracked, ?_, ?_, ?_, ?_⟩
    · obtain hkept | ⟨now, -, hopened⟩ := turn_window_cases w.state ev hw.tracked.1
      · exact (congrArg PostWriteWindow.durationMs hkept).trans hw.duration
      · exact (congrArg PostWriteWindow.durationMs hopened).trans hw.duration
    · exact hclock ▸ hw.positive.trans_le horder.clock_le
    · exact hclock ▸ (hw.openedAt_turn horder).2
    · exact hcommitted ▸ hw.committed_turn hrun horder
  · rw [readStep, Watched.step_of_not_running hrun]
    exact hw

/-- Until it has elapsed since the last commit, the window is open. -/
theorem Windowed.active {windowMs : ℤ} (hfits : windowMs * 1000000 < 2 ^ 63)
    {w : Watched Session ReadLog} (hw : Windowed windowMs w) {since now : Time} (hsince : since ∈ w.ledger.committedAt) (horder : w.ledger.clock ≤ now)
    (hwithin : now - since < windowMs * 1000000) : w.state.postWriteWindow.active now = true := by
  obtain ⟨hpositive, hcommitted⟩ := hw.committed since hsince
  have hnow : since ≤ now := hcommitted.trans (hw.opened.trans horder)
  have hduration : (0 : ℤ) < windowMs * 1000000 :=
    (Int.sub_nonneg_of_le hnow).trans_lt hwithin
  have helapsed : now - w.state.postWriteWindow.openedAt < windowMs * 1000000 :=
    (Int.sub_le_sub_left hcommitted now).trans_lt hwithin
  rw [PostWriteWindow.active, hw.duration, milliseconds_of_fits (by omega) hfits]
  simp only [Bool.and_eq_true, decide_eq_true_eq, bne_iff_ne]
  exact ⟨⟨by omega, (hpositive.trans_le hcommitted).ne'⟩, helapsed⟩

/-- On the compat port a statement that acquires an upstream gets the answer to its own request. -/
theorem Prepares.lease_of_acquired {env : Env} {s : Session} {msg : FrontendMessage} {h : Handling}
    (hprep : Prepares env s msg h) (hport : s.port = .compat) {stmt : Statement}
    (hstmt : msg.statement = some stmt) {conn : ConnId}
    (hacquired : conn ∈ h.acts.filterMap acquiredBy) :
    ∃ lease, requestLease env s stmt.sql = .ok lease ∧ lease.client = conn := by
  cases hprep with
  | acquired _ hother => exact absurd hport hother
  | otherLeased _ _ _ hnone => simp [hstmt] at hnone
  | leased stmt' lease _ _ hstmt' _ hok =>
    obtain rfl : stmt = stmt' := Option.some_inj.mp (hstmt.symm.trans hstmt')
    exact ⟨lease, hok, (List.mem_singleton.mp hacquired).symm⟩
  | reclassified => cases msg <;> exact absurd hacquired List.not_mem_nil
  | _ => exact absurd hacquired List.not_mem_nil

/-- Serving a client message acquires what preparing the upstream for it acquires. -/
theorem Serves.acquired {env : Env} {msg : FrontendMessage} {s : Session} {t : SessionTurn}
    (hserve : Serves env msg s t) : t.acts.filterMap acquiredBy = [] ∨
      ∃ h, Prepares env s msg h ∧ t.acts.filterMap acquiredBy = h.acts.filterMap acquiredBy := by
  have hprepared {h : Handling} (hprep : Prepares env s msg h) {acts : List Action}
      (hnone : acts.filterMap acquiredBy = []) :
      ∃ h', Prepares env s msg h' ∧
        (h.acts ++ acts).filterMap acquiredBy = h'.acts.filterMap acquiredBy :=
    ⟨h, hprep, by rw [List.filterMap_append, hnone, List.append_nil]⟩
  cases hserve with
  | bufferFailed acts _ hcut => cases hcut <;> exact .inl rfl
  | revokedUnflushed h err ref hprep => exact .inr (hprepared hprep rfl)
  | revoked h err ref hprep => exact .inr (hprepared hprep rfl)
  | closed h err hprep => exact .inr (hprepared hprep rfl)
  | handled h hprep => exact .inr (hprepared hprep rfl)
  | panicked h hprep => exact .inr ⟨h, hprep, rfl⟩
  | forwarded h conn u hprep _ _ hfwd => exact .inr (hprepared hprep hfwd.leases.1)
  | _ => exact .inl rfl

/-- A turn for a statement on the compat port acquires the answer to the request for its text. -/
theorem lease_of_acquire {env : Env} {s : Session} {msg : FrontendMessage} (hport : s.port = .compat)
    {stmt : Statement} (hstmt : msg.statement = some stmt) {conn : ConnId}
    (hacquire : .acquire conn ∈ (turn s (.downstream env msg)).acts) :
    ∃ lease, requestLease env s stmt.sql = .ok lease ∧ lease.client = conn := by
  rw [mem_turn_acts (by simp)] at hacquire
  have hmem : conn ∈ (serve s (.downstream env msg)).acts.filterMap acquiredBy :=
    List.mem_filterMap.mpr ⟨_, hacquire, rfl⟩
  obtain ⟨slot, hdecode⟩ := decodeMessage_eq s msg
  have hserve := serve_serves s env msg
  rw [hdecode] at hserve
  obtain hnone | ⟨h, hprep, hsame⟩ := hserve.acquired
  · rw [hnone] at hmem
    cases hmem
  · rw [hsame] at hmem
    exact hprep.lease_of_acquired hport hstmt hmem

end Grunyas.Server

namespace Grunyas.Proxy

open GoText GoMap Machine Grunyas.Server Grunyas.Classifier Grunyas.Cluster Grunyas.Routing

/-- The session's requests for leases are answered by the proxy of the compat port. -/
def AnsweredBy (p : Pipeline) (c : Course p.topo) (cfg : ServerConfig) (env : Server.Env) : Prop :=
  ∀ sql active remaining lease, env.lease sql active remaining = .ok lease →
    acquireUpstreamLeaseWithSQL p c .compat cfg sql active remaining = .ok lease

/-- Where a lease may be if its node is the primary: the node is shown as primary in the snapshot on
which it was judged, or it is the only one observed as primary when the primary is searched. -/
def Course.OnPrimary {t : Topology} (c : Course t) (id : NodeID) : Prop :=
  (∃ nv ∈ c.snapshot, nv.id = id ∧ nv.observedRole = .primary) ∨ c.later.SolePrimary id

/-- Whatever the proxy answers, a statement that reads within the window is served by the primary. -/
def ReadsOwnWrites (cfg : ServerConfig) (windowMs : ℤ) (w : Machine.Watched Session ReadLog)
    (ev : Event) : Prop :=
  w.next = .running →
    match ev with
    | .downstream env msg =>
      ∀ since ∈ w.ledger.committedAt, env.now - since < windowMs * 1000000 →
        ∀ stmt ∈ msg.statement, (classifyFor .compat stmt.sql).kind = .read →
          ∀ (p : Pipeline) (c : Course p.topo), AnsweredBy p c cfg env →
            ∀ conn, .acquire conn ∈ (Server.turn w.state ev).acts →
              ∃ lease, requestLease env w.state stmt.sql = .ok lease ∧ lease.client = conn ∧
                c.OnPrimary lease.nodeID
    | _ => True

/-- A lease without an error is on a node that was judged eligible, or on the sole primary. -/
theorem eligible_or_solePrimary_of_leaseFrom {p : Pipeline} {nodes : List NodeView} {later : Topology}
    {env : Env later} {req : LeaseRequest} (hok : (p.leaseFrom nodes later env req).1.error = none) :
    (p.leaseFrom nodes later env req).1.nodeID ∈
        eligibleNodes (p.filterCandidates nodes req.port req.classType req.postWriteWindowActive) ∨
      later.SolePrimary (p.leaseFrom nodes later env req).1.nodeID := by
  by_cases hempty :
    eligibleNodes (p.filterCandidates nodes req.port req.classType req.postWriteWindowActive) = []
  · right
    unfold Pipeline.leaseFrom at hok ⊢
    dsimp only at hok ⊢
    split_ifs at hok ⊢ with hvalid hnodes
    · cases hok
    · cases hok
    · exact solePrimary_of_leaseEmpty hok
  · exact .inl (leaseFrom_eligible hok hempty).2

/-- A read within the window that the proxy answers is on the primary. -/
theorem onPrimary_of_window {p : Pipeline} {c : Course p.topo} {cfg : ServerConfig} {sql : Text}
    {remaining : ℤ} {lease : UpstreamLease} (hread : (classifyFor .compat sql).kind = .read)
    (hok : acquireUpstreamLeaseWithSQL p c .compat cfg sql true remaining = .ok lease) :
    c.OnPrimary lease.nodeID := by
  obtain ⟨herror, hnode, -⟩ := acquire_ok hok
  have htype : (leaseRequest .compat cfg sql true remaining).classType = .read := hread
  rw [← hnode]
  refine (eligible_or_solePrimary_of_leaseFrom herror).imp_left fun hmem => ?_
  obtain ⟨nv, hnv, hid, hreasons⟩ := mem_eligibleNodes_filterCandidates.mp hmem
  refine ⟨nv, hnv, hid, (roleReasons_eq_nil_of_window nv.observedRole).mp ?_⟩
  rw [htype] at hreasons
  simp only [Pipeline.reasons, List.append_eq_nil_iff] at hreasons
  exact hreasons.1.1.1.2

/-- In a windowed session every read in order sees the writes. -/
theorem readsOwnWrites_of_windowed {cfg : ServerConfig} {windowMs : ℤ}
    (hfits : windowMs * 1000000 < 2 ^ 63) (w : Machine.Watched Session ReadLog) (ev : Event)
    (hw : Windowed windowMs w) (horder : ClockOnward w ev) : ReadsOwnWrites cfg windowMs w ev := by
  intro hrun
  cases ev with
  | downstream env msg =>
    intro since hsince hwithin stmt hstmt hread p c hanswered conn hacquire
    have hport : w.state.port = .compat := hw.tracked.1
    obtain ⟨lease, hlease, hclient⟩ := lease_of_acquire hport hstmt hacquire
    refine ⟨lease, hlease, hclient, ?_⟩
    rw [requestLease, hw.active hfits hsince (horder env.now rfl) hwithin] at hlease
    exact onPrimary_of_window hread (hanswered _ _ _ _ hlease)
  | _ => trivial

/-- In every run of a session on the compat port whose window fits into a duration and whose clock does
not go back: after the commit of a write that acquired its lease, a statement that reads and acquires a
lease before the window has elapsed is served by the primary, whatever the state of the pipeline and
whatever probes report meanwhile. -/
theorem read_your_writes (cfg : ServerConfig) (conn : ConnId) (windowMs : ℤ)
    (hfits : windowMs * 1000000 < 2 ^ 63) (clock : Time) (events : List Event) (hclock : 0 < clock)
    (horder : Throughout readStep ClockOnward
      ((Session.start .compat .transaction conn windowMs).reads clock) events) :
    Throughout readStep (ReadsOwnWrites cfg windowMs)
      ((Session.start .compat .transaction conn windowMs).reads clock) events := by
  refine throughout_of_invariant windowed_readStep (readsOwnWrites_of_windowed hfits) ?_ horder
  refine ⟨⟨rfl, fun _ _ => ⟨rfl, ?_⟩⟩, rfl, hclock, hclock.le, nofun⟩
  simp [Session.start, Session.reads, Machine.Watched.observe, WriteLog.empty]

/-- A compat port in transaction mode. -/
def compatPort : ServerConfig := ⟨.transaction, some ⟨text "transaction", 0⟩⟩

/-- The answers of the proxy of a cluster of a primary and a replica. -/
def proxied (now : Time) : Server.Env :=
  { Env.steady now ⟨0, [], .unknown⟩ with
    lease := fun sql active remaining =>
      (acquireUpstreamLeaseWithSQL primaryAndReplica (afterSnapshot [] 10000000000) .compat compatPort
        sql active remaining).mapError fun err => ⟨some err.code, err.message⟩ }

/-- The proxy answers those requests. -/
theorem answeredBy_proxied (now : Time) :
    AnsweredBy primaryAndReplica (afterSnapshot [] 10000000000) compatPort (proxied now) := by
  intro sql active remaining lease hlease
  cases hok : acquireUpstreamLeaseWithSQL primaryAndReplica (afterSnapshot [] 10000000000) .compat
      compatPort sql active remaining with
  | error err => simp [proxied, hok, Except.mapError] at hlease
  | ok found => simpa [proxied, hok, Except.mapError] using hlease

/-- Half a second after the commit of an `INSERT` a `SELECT` is served by the primary. -/
theorem read_your_writes_insert :
    let w := run readStep ((Session.start .compat .transaction 0 1000).reads 1)
      [.downstream (proxied 10000000000) (.query (text "INSERT INTO t VALUES (1)")),
        .upstream (proxied 10000000000) (.readyForQuery statusIdle)]
    w.ledger.committedAt = some 10000000000 ∧
      ∃ lease, requestLease (proxied 10500000000) w.state (text "SELECT 1") = .ok lease ∧
        (afterSnapshot [] 10000000000).OnPrimary lease.nodeID := by
  intro w
  have hcommitted : w.ledger.committedAt = some 10000000000 := by decide
  obtain ⟨-, -, hselect, -⟩ := read_your_writes compatPort 0 1000 (by decide) 1
    [.downstream (proxied 10000000000) (.query (text "INSERT INTO t VALUES (1)")),
      .upstream (proxied 10000000000) (.readyForQuery statusIdle),
      .downstream (proxied 10500000000) (.query (text "SELECT 1"))] (by decide) (by decide)
  obtain ⟨lease, hlease, -, hprimary⟩ := hselect (by decide) _ hcommitted (by decide) _ rfl (by decide)
    primaryAndReplica (afterSnapshot [] 10000000000) (answeredBy_proxied _) 0 (by decide)
  exact ⟨hcommitted, lease, hlease, hprimary⟩

end Grunyas.Proxy
