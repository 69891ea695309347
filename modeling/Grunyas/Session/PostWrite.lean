import Grunyas.Session.Outcomes
import Grunyas.Sql.Postgres

/-!
# The window after a write

A session of the compat port remembers the commit of a write, so that its reads go to the primary
for a while. It decides at the `ReadyForQuery` with status `'I'` that ends a lease, from two flags:
the class of the statement that acquired the lease, and whether a statement that begins with
`ROLLBACK` was forwarded. A write that follows a read, or a savepoint rollback, goes unnoticed.
Whether the backend committed the work of a lease is given with the events of a run.
-/

namespace Grunyas.Server

open GoText Grunyas.Classifier Machine

/-- A statement with its class. -/
abbrev Classified := Statement × Kind

/-- What the session forwarded and was told: the statement it serves, the statements forwarded on
the lease, whether an error came back on it, the class of the statement that acquired it, and
whether a `ROLLBACK` was forwarded since the last `ReadyForQuery` with status `'I'`. -/
structure WriteLog where
  current : Option Classified
  statements : List Classified
  failed : Bool
  opener : Option Kind
  rollback : Bool
  deriving DecidableEq, Repr

/-- Nothing was forwarded yet. -/
def WriteLog.empty : WriteLog := ⟨none, [], false, none, false⟩

/-- Whether a reply says that a statement failed. -/
def reportsFailure (msg : BackendMessage) : Bool := msg.isError || msg == .readyForQuery statusFailed

/-- The log after a reply. -/
def WriteLog.reply (l : WriteLog) (msg : BackendMessage) : WriteLog :=
  { l with failed := l.failed || reportsFailure msg }

/-- The log after the client was told the status of its transaction. -/
def WriteLog.told (l : WriteLog) (msg : BackendMessage) : WriteLog :=
  if msg = .readyForQuery statusIdle then { l with opener := none, rollback := false }
  else if msg = .readyForQuery statusFailed then { l with opener := none }
  else l

/-- Whether the session serves a `ROLLBACK`. -/
def WriteLog.servesRollback (l : WriteLog) : Bool := l.current.any fun entry => isRollback entry.1.sql

/-- The log after an action of the session. -/
def WriteLog.record (l : WriteLog) : Action → WriteLog
  | .acquire _ =>
    { l with statements := [], failed := false, opener := (l.current.map Prod.snd).or l.opener }
  | .forward _ _ true =>
    { l with
      statements := l.statements ++ l.current.toList
      rollback := l.rollback || l.servesRollback }
  | .relay msg _ => (l.reply msg).told msg
  | .discard msg => l.reply msg
  | _ => l

/-- The statement of a message with the class it has in the state of the session. -/
def classified (s : Session) (msg : FrontendMessage) : Option Classified :=
  msg.statement.map fun stmt => (stmt, compatKind s stmt)

/-- The log after an event was taken. -/
def WriteLog.note (l : WriteLog) (s : Session) : Event → WriteLog
  | .downstream _ msg => { l with current := classified s msg }
  | _ => { l with current := none }

/-- The main loop with the log of its writes. -/
def writeStep : Watched Session WriteLog → Event → Watched Session WriteLog :=
  Watched.step turn WriteLog.note WriteLog.record

/-- The main loop at its start. -/
def Session.writes (s : Session) : Watched Session WriteLog := ⟨s, .empty, .running⟩

/-- The session processes the `ReadyForQuery` that ends its lease. -/
def EndsLease (env : Env) (s : Session) (msg : BackendMessage) : Prop :=
  msg = .readyForQuery statusIdle ∧ s.poolMode = .transaction ∧ s.upstream ≠ none ∧
    s.swallowingBeginResponse = false ∧ env.send msg = true ∧ env.flush = true

/-- An event, and whether the backend has committed the work of the lease that it ends. -/
structure Concluded where
  event : Event
  commits : Bool

/-- The main loop takes the event. -/
def concludeStep (w : Watched Session WriteLog) (i : Concluded) : Watched Session WriteLog :=
  writeStep w i.event

/-- Whether a text has a statement other than `COMMIT` and `ROLLBACK`. -/
def hasWork (sql : Text) : Bool :=
  (Sql.Postgres.statements sql).any fun stmt =>
    !(Sql.Postgres.significant stmt).isEmpty &&
      match Sql.Postgres.transactionCommand stmt with
      | some .commit | some .rollback | some .rollbackTo => false
      | _ => true

/-- A write other than `COMMIT` and `ROLLBACK` was forwarded on a lease of the primary, and no error
came back. -/
def ForwardedWrite (s : Session) (l : WriteLog) : Prop :=
  s.compatLeasedRole = some .primary ∧
    (∃ entry ∈ l.statements, entry.2 = .write ∧ hasWork entry.1.sql = true) ∧ l.failed = false

instance (env : Env) (s : Session) (msg : BackendMessage) : Decidable (EndsLease env s msg) :=
  inferInstanceAs (Decidable (_ ∧ _ ∧ _ ∧ _ ∧ _ ∧ _))

instance (s : Session) (l : WriteLog) : Decidable (ForwardedWrite s l) :=
  inferInstanceAs (Decidable (_ ∧ _ ∧ _))

/-- The end of a lease with a committed write opens the window. -/
def WindowStep (w : Watched Session WriteLog) (i : Concluded) : Prop :=
  w.next = .running →
    match i.event with
    | .upstream env msg =>
      EndsLease env w.state msg → ForwardedWrite w.state w.ledger → i.commits = true →
        (turn w.state (.upstream env msg)).state.postWriteWindow.openedAt = env.now
    | _ => True

/-- A lease that ends with a committed write was acquired by a write, and nothing that begins with
`ROLLBACK` was forwarded; or the window was opened at this time already. -/
def OpenerStep (w : Watched Session WriteLog) (i : Concluded) : Prop :=
  w.next = .running →
    match i.event with
    | .upstream env msg =>
      EndsLease env w.state msg → ForwardedWrite w.state w.ledger → i.commits = true →
        (w.ledger.opener = some .write ∧ w.ledger.rollback = false) ∨
          w.state.postWriteWindow.openedAt = env.now
    | _ => True

/-- The two flags of the session are those of the log. -/
structure Tracked (s : Session) (l : WriteLog) : Prop where
  awaiting : s.awaitingRollbackResult = l.rollback
  first : s.compatTransactionFirstClass = .write ↔ l.opener = some .write

/-- The flag for a `ROLLBACK` after one more statement. -/
theorem trackRollback_awaiting (s : Session) (sql : Text) :
    (trackRollback s sql).awaitingRollbackResult = (s.awaitingRollbackResult || isRollback sql) ∧
      (trackRollback s sql).compatTransactionFirstClass = s.compatTransactionFirstClass := by
  unfold trackRollback
  cases hr : isRollback sql with
  | true => simp
  | false => simp

/-- Preparing the upstream tracks the statement that acquires it. -/
theorem Prepares.opener {env : Env} {s : Session} {msg : FrontendMessage} {h : Handling}
    (hprep : Prepares env s msg h) (hport : s.port = .compat) {l : WriteLog} (htracked : Tracked s l)
    (hcurrent : l.current = classified s msg) :
    (h.acts.foldl WriteLog.record l).current = l.current ∧
      (h.acts.foldl WriteLog.record l).rollback = l.rollback ∧
      (h.sess.compatTransactionFirstClass = .write ↔
        (h.acts.foldl WriteLog.record l).opener = some .write) := by
  cases hprep with
  | held _ hother => exact absurd hport hother
  | acquired _ hother => exact absurd hport hother
  | refused _ hother => exact absurd hport hother
  | otherLeased lease _ _ hother =>
    refine ⟨rfl, rfl, ?_⟩
    simp [WriteLog.record, hcurrent, classified, hother, setUpstreamLease, htracked.first]
  | reclassified =>
    have hacts : (rejectStatement env msg).foldl WriteLog.record l = l := by cases msg <;> rfl
    dsimp only
    rw [hacts]
    exact ⟨rfl, rfl, htracked.first⟩
  | continued =>
    exact ⟨rfl, rfl, by rw [continueTransaction, (trackRollback_awaiting _ _).2]; exact htracked.first⟩
  | leased stmt lease _ _ hstmt =>
    refine ⟨rfl, rfl, ?_⟩
    rw [beginTransaction, (trackRollback_awaiting _ _).2]
    simp [WriteLog.record, hcurrent, classified, hstmt]
  | _ => exact ⟨rfl, rfl, htracked.first⟩

/-- Preparing the upstream for a message that is forwarded tracks a `ROLLBACK`. -/
theorem Prepares.awaiting {env : Env} {s : Session} {msg : FrontendMessage} {h : Handling}
    (hprep : Prepares env s msg h) (hport : s.port = .compat) {l : WriteLog}
    (hcurrent : l.current = classified s msg) :
    h.sess.awaitingRollbackResult =
      (s.awaitingRollbackResult || (h.verdict == .forward && l.servesRollback)) := by
  have hserves : ∀ stmt, msg.statement = some stmt → l.servesRollback = isRollback stmt.sql := by
    intro stmt hstmt
    simp [WriteLog.servesRollback, hcurrent, classified, hstmt]
  have hother : msg.statement = none → l.servesRollback = false := by
    intro hnone
    simp [WriteLog.servesRollback, hcurrent, classified, hnone]
  cases hprep with
  | held _ hne => exact absurd hport hne
  | acquired _ hne => exact absurd hport hne
  | refused _ hne => exact absurd hport hne
  | rollback string _ _ hmsg hr =>
    subst hmsg
    simp [hserves _ rfl, hr]
  | abortedQuery string _ _ hmsg hr =>
    subst hmsg
    simp [hserves _ rfl, hr]
  | abortedSync _ _ hmsg =>
    subst hmsg
    simp [hother rfl]
  | otherHeld _ _ _ hnone => simp [hother hnone]
  | otherLeased _ _ _ hnone => simp [hother hnone, setUpstreamLease]
  | reclassified stmt _ _ _ hstmt _ _ _ _ hr =>
    simp [hserves _ hstmt, hr, failTransaction, cacheClass]
  | continued stmt _ _ _ hstmt =>
    rw [continueTransaction, (trackRollback_awaiting _ _).1, hserves _ hstmt]
    rfl
  | leased stmt _ _ _ hstmt =>
    rw [beginTransaction, (trackRollback_awaiting _ _).1, hserves _ hstmt]
    rfl
  | _ => simp [cacheClass]

/-- A message that is not forwarded touches neither flag. -/
theorem Prepares.tracked_of_answered {env : Env} {s : Session} {msg : FrontendMessage} {h : Handling}
    (hprep : Prepares env s msg h) (hport : s.port = .compat) {l : WriteLog} (htracked : Tracked s l)
    (hcurrent : l.current = classified s msg) (hverdict : h.verdict ≠ .forward) :
    Tracked h.sess (h.acts.foldl WriteLog.record l) := by
  obtain ⟨-, hrollback, hopener⟩ := hprep.opener hport htracked hcurrent
  refine ⟨?_, hopener⟩
  have hawaiting := hprep.awaiting hport hcurrent
  have hne : (h.verdict == .forward) = false := by simpa using hverdict
  rw [hawaiting, hne, htracked.awaiting, hrollback]
  simp

/-- Sending a message and a `BEGIN` before it touches neither flag. -/
theorem afterProcess_flags (msg : FrontendMessage) (s : Session) :
    (afterProcess msg (afterReplay s)).awaitingRollbackResult = s.awaitingRollbackResult ∧
      (afterProcess msg (afterReplay s)).compatTransactionFirstClass =
        s.compatTransactionFirstClass := by
  obtain ⟨mode, swallowing, hprocess, -⟩ := afterProcess_eq msg s
  rw [hprocess]
  exact ⟨rfl, rfl⟩

/-- Forwarding a prepared message enters it into the log. -/
theorem Forwards.writes {env : Env} {msg : FrontendMessage} {s : Session} {conn : ConnId}
    {t : SessionTurn} (hfwd : Forwards env msg s conn t) (l : WriteLog) (hrun : t.next = .running) :
    (t.acts.foldl WriteLog.record l).rollback = (l.rollback || l.servesRollback) ∧
      (t.acts.foldl WriteLog.record l).opener = l.opener ∧
      t.state.awaitingRollbackResult = s.awaitingRollbackResult ∧
      t.state.compatTransactionFirstClass = s.compatTransactionFirstClass := by
  cases hfwd with
  | sent =>
    have hreplay : (replayed conn s).foldl WriteLog.record l = l := by
      unfold replayed
      cases s.pendingBegin <;> rfl
    have hflush : ∀ l : WriteLog, (flushed msg).foldl WriteLog.record l = l := by
      intro l
      unfold flushed
      split_ifs <;> rfl
    simp only [List.foldl_append, List.foldl_cons, hreplay, hflush]
    exact ⟨rfl, rfl, afterProcess_flags msg s⟩
  | _ => cases hrun

/-- How a turn ends whose loop goes on in transaction mode. -/
def EndsTracked (s : Session) (l : WriteLog) (n : Next) : Prop :=
  n = .running → s.poolMode = .transaction → Tracked s l

/-- Serving a client message tracks its statement. -/
theorem Serves.tracked {env : Env} {msg : FrontendMessage} {s : Session} {t : SessionTurn}
    (hserve : Serves env msg s t) (hport : s.port = .compat) {l : WriteLog}
    (htracked : Tracked s l) (hcurrent : l.current = classified s msg) :
    t.Ends WriteLog.record l EndsTracked := by
  cases hserve with
  | terminated => nofun
  | refusedUnflushed => nofun
  | refused href => simp [readPortRefuses, hport] at href
  | bufferFailed => nofun
  | buffered => exact fun _ _ => ⟨htracked.awaiting, htracked.first⟩
  | revokedUnflushed => nofun
  | revoked h err ref hprep hfailed =>
    have hprepared := hprep.tracked_of_answered hport htracked hcurrent (by simp [hfailed])
    rw [Turn.Ends, List.foldl_append]
    exact fun _ _ => ⟨hprepared.awaiting, hprepared.first⟩
  | closed => nofun
  | handled h hprep hhandled =>
    have hprepared := hprep.tracked_of_answered hport htracked hcurrent (by simp [hhandled])
    rw [Turn.Ends, List.foldl_append]
    exact fun _ _ => hprepared
  | panicked => nofun
  | forwarded h conn u hprep hforward hheld hfwd =>
    obtain ⟨hserving, hrollback, hopener⟩ := hprep.opener hport htracked hcurrent
    have hawaiting := hprep.awaiting hport hcurrent
    rw [Turn.Ends, List.foldl_append]
    intro hrun _
    obtain ⟨hlog, hlog', hflag, hflag'⟩ := hfwd.writes _ hrun
    constructor
    · have hserves : (h.acts.foldl WriteLog.record l).servesRollback = l.servesRollback := by
        rw [WriteLog.servesRollback, hserving, WriteLog.servesRollback]
      rw [hflag, hlog, hawaiting, hforward, htracked.awaiting, hrollback, hserves]
      rfl
    · rw [hflag', hlog', hopener]

/-- Releasing the upstream touches neither flag. -/
theorem releaseUpstream_tracked {s : Session} {l : WriteLog} (htracked : Tracked s l) :
    Tracked (releaseUpstream s).1 ((releaseUpstream s).2.foldl WriteLog.record l) := by
  unfold releaseUpstream
  cases s.upstream <;> exact ⟨htracked.awaiting, htracked.first⟩

/-- Tracking the status of a reply in transaction mode. -/
theorem trackReadyForQuery_tracked (now : Time) (msg : BackendMessage) {s : Session}
    (hport : s.port = .compat) (hmode : s.poolMode = .transaction) {l : WriteLog}
    (htracked : Tracked s l) :
    Tracked (trackReadyForQuery now msg s) ((l.reply msg).told msg) := by
  have hreply : Tracked s (l.reply msg) := ⟨htracked.awaiting, htracked.first⟩
  cases msg with
  | readyForQuery txStatus =>
    have htrack : trackReadyForQuery now (.readyForQuery txStatus) s =
        handleCompatReadyForQuery now s txStatus := by
      simp [trackReadyForQuery, hport, hmode]
    rw [htrack, handleCompatReadyForQuery, WriteLog.told]
    by_cases hidle : txStatus = statusIdle
    · simp only [hidle, if_true]
      constructor
      · rfl
      · simp [resetCompatState]
    · by_cases hfailed : txStatus = statusFailed
      · subst hfailed
        constructor
        · exact htracked.awaiting
        · refine iff_of_false (fun hidle => ?_) (fun hidle => ?_) <;> cases hidle
      · simp only [hidle, hfailed, if_false, BackendMessage.readyForQuery.injEq]
        exact hreply
  | _ => exact hreply

/-- Relaying a reply in transaction mode tracks its status. -/
theorem Relays.tracked {env : Env} {msg : BackendMessage} {s : Session} {t : SessionTurn}
    (hrelay : Relays env msg s t) (hport : s.port = .compat) (hmode : s.poolMode = .transaction)
    {l : WriteLog} (htracked : Tracked s l) : t.Ends WriteLog.record l EndsTracked := by
  have htrack := trackReadyForQuery_tracked env.now msg hport hmode htracked
  cases hrelay with
  | sendFailed => nofun
  | flushFailed => nofun
  | detached => exact fun _ _ => releaseUpstream_tracked htrack
  | kept =>
    intro _ _
    simp only [List.foldl_cons, List.foldl_append, flushedDownstream]
    split_ifs <;> exact htrack

/-- Dropping a reply touches neither flag. -/
theorem Swallows.tracked {env : Env} {msg : BackendMessage} {s : Session} {t : SessionTurn}
    (hdrop : Swallows env msg s t) {l : WriteLog} (htracked : Tracked s l) :
    t.Ends WriteLog.record l EndsTracked := by
  intro _ _
  cases hdrop <;> exact ⟨htracked.awaiting, htracked.first⟩

/-- The loop is on the compat port and, in transaction mode, its flags are those of the log. -/
def RunsTracked (w : Watched Session WriteLog) : Prop :=
  w.state.port = .compat ∧
    (w.next = .running → w.state.poolMode = .transaction → Tracked w.state w.ledger)

/-- Serving an event tracks it. -/
theorem serve_tracked {w : Watched Session WriteLog} (ev : Event) (hw : RunsTracked w)
    (hrun : w.next = .running) (hmode : w.state.poolMode = .transaction) :
    (serve w.state ev).Ends WriteLog.record (w.ledger.note w.state ev) EndsTracked := by
  obtain ⟨hport, htracked⟩ := hw
  have htracked := htracked hrun hmode
  cases ev with
  | upstream env msg =>
    have hnote : Tracked w.state (w.ledger.note w.state (.upstream env msg)) :=
      ⟨htracked.awaiting, htracked.first⟩
    obtain ⟨-, hserve⟩ | ⟨-, -, hdrop⟩ | ⟨-, -, hrelay⟩ := serve_upstream_cases w.state env msg
    · rw [hserve]
      exact fun _ _ => hnote
    · exact hdrop.tracked hnote
    · exact hrelay.tracked hport hmode hnote
  | downstream env msg =>
    obtain ⟨slot, hdecode⟩ := decodeMessage_eq w.state msg
    have hserve := serve_serves w.state env msg
    rw [hdecode] at hserve
    have hnote : Tracked { w.state with querySlot := slot }
        (w.ledger.note w.state (.downstream env msg)) := ⟨htracked.awaiting, htracked.first⟩
    exact hserve.tracked hport hnote rfl
  | release =>
    have hnote : Tracked w.state (w.ledger.note w.state .release) :=
      ⟨htracked.awaiting, htracked.first⟩
    exact fun _ _ => releaseUpstream_tracked hnote
  | _ => nofun

/-- Every step keeps the log of the session's flags. -/
theorem tracked_step {w : Watched Session WriteLog} (ev : Event) (hw : RunsTracked w) :
    RunsTracked (writeStep w ev) := by
  apply Watched.step_keeps RunsTracked hw
  intro hrun
  refine ⟨(turn_port w.state ev).1.trans hw.1, fun hnext hmode => ?_⟩
  have htracked := serve_tracked ev hw hrun (turn_poolMode hmode)
  have hturn := turn_of_running hnext
  rw [hturn] at hnext hmode ⊢
  exact htracked hnext hmode

/-- Releasing the upstream keeps the window. -/
theorem releaseUpstream_postWriteWindow (s : Session) :
    (releaseUpstream s).1.postWriteWindow = s.postWriteWindow := by
  rw [releaseUpstream_eq]

/-- A `ReadyForQuery` with status `'I'` that reaches the client gives the upstream back. -/
theorem Relays.detaches {env : Env} {s : Session} {t : SessionTurn}
    (hrelay : Relays env (.readyForQuery statusIdle) s t) (hmode : s.poolMode = .transaction)
    (hsend : env.send (.readyForQuery statusIdle) = true) (hflush : env.flush = true) :
    t.next = .running ∧
      t.state =
        (releaseUpstream (trackReadyForQuery env.now (.readyForQuery statusIdle) s)).1 := by
  cases hrelay with
  | sendFailed hfailed => simp [hsend] at hfailed
  | flushFailed _ hfailed => simp [hflush] at hfailed
  | detached => exact ⟨rfl, rfl⟩
  | kept hkept => exact absurd ⟨rfl, hmode⟩ hkept

/-- When the window opens at the end of a lease. -/
theorem openedAt_of_endsLease {env : Env} {s : Session} {msg : BackendMessage}
    (hends : EndsLease env s msg) (hport : s.port = .compat) :
    (turn s (.upstream env msg)).state.postWriteWindow.openedAt =
      if s.awaitingRollbackResult = false ∧ s.compatTransactionFirstClass = .write ∧
          s.compatLeasedRole = some .primary then env.now
      else s.postWriteWindow.openedAt := by
  obtain ⟨rfl, hmode, hheld, hswallow, hsend, hflush⟩ := hends
  obtain ⟨hnone, -⟩ | ⟨-, hswallow', -⟩ | ⟨-, -, hrelay⟩ :=
    serve_upstream_cases s env (.readyForQuery statusIdle)
  · exact absurd hnone hheld
  · simp [hswallow] at hswallow'
  · obtain ⟨hnext, hstate⟩ := hrelay.detaches hmode hsend hflush
    rw [turn_eq_serve hnext, hstate, releaseUpstream_postWriteWindow, trackReadyForQuery,
      if_pos ⟨hport, hmode⟩, handleCompatReadyForQuery, if_pos rfl, resetCompatState]
    simp only [Bool.and_eq_true, Bool.not_eq_true', beq_iff_eq, and_assoc]
    split_ifs <;> rfl

/-- In every run on the compat port, in transaction mode, and whatever the backend commits: the end of a
lease with a committed write opens the window exactly if every such lease was acquired by a write and
nothing that begins with `ROLLBACK` was forwarded on it. -/
theorem window_opened_iff (conn : ConnId) (windowMs : ℤ) (inputs : List Concluded) :
    Throughout concludeStep WindowStep (Session.start .compat .transaction conn windowMs).writes
        inputs ↔
      Throughout concludeStep OpenerStep (Session.start .compat .transaction conn windowMs).writes
        inputs := by
  refine throughout_congr (I := RunsTracked) ?_ ?_ ?_
  · intro w i hw
    exact tracked_step i.event hw
  · intro w i hw
    obtain ⟨ev, commits⟩ := i
    refine forall_congr' fun hrun => ?_
    cases ev with
    | upstream env msg =>
      refine forall_congr' fun hends => forall_congr' fun hwrite => forall_congr' fun _ => ?_
      have htracked := hw.2 hrun hends.2.1
      have hflags : (w.state.awaitingRollbackResult = false ∧
          w.state.compatTransactionFirstClass = .write ∧ w.state.compatLeasedRole = some .primary) ↔
            (w.ledger.opener = some .write ∧ w.ledger.rollback = false) := by
        rw [htracked.awaiting, htracked.first, and_comm, and_assoc, and_iff_right hwrite.1]
      rw [openedAt_of_endsLease hends hw.1]
      split_ifs with hopens
      · exact iff_of_true rfl (.inl (hflags.mp hopens))
      · rw [hflags] at hopens
        exact (or_iff_right hopens).symm
    | _ => exact Iff.rfl
  · exact ⟨rfl, fun _ _ => ⟨rfl, by simp [Session.start, Session.writes, WriteLog.empty]⟩⟩

/-- An `INSERT` in a transaction that also rolls back to a savepoint is committed, and the window
stays closed. -/
theorem window_missed_after_savepoint_rollback :
    let env := Env.steady 5 ⟨7, text "node-1", .primary⟩
    let w := run concludeStep (Session.start .compat .transaction 0 1000).writes
      [⟨.downstream env (.query (text "BEGIN; INSERT INTO t VALUES (1); SAVEPOINT a")), false⟩,
        ⟨.upstream env (.readyForQuery statusBlock), false⟩,
        ⟨.downstream env (.query (text "ROLLBACK TO a")), false⟩,
        ⟨.upstream env (.readyForQuery statusBlock), false⟩,
        ⟨.downstream env (.query (text "COMMIT")), false⟩]
    ¬WindowStep w ⟨.upstream env (.readyForQuery statusIdle), true⟩ := by
  intro env w hstep
  have hopened := hstep (by decide) (by decide) (by decide) rfl
  exact absurd hopened (by decide)

end Grunyas.Server
