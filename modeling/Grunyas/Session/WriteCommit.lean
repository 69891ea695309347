import Grunyas.Session.PostWrite

/-!
# Which leases open the window after a write

The window after a write is opened from what was sent: the class of the statement that acquired the
lease, and the absence of a `ROLLBACK`. What became of the statement is known only from the replies.
The log of replies names, for every `CommandComplete`, the statement it answers.
-/

namespace Grunyas.Server

open GoText Grunyas.Classifier Machine

/-- An event with the number of the forwarded text, and of the statement within it, whose completion it
reports, if any. -/
structure Answered where
  event : Event
  completes : Option (ℕ × ℕ)

/-- A statement with the text that it is part of. -/
abbrev Part := Classified × List Sql.Postgres.Token

/-- What a reply says about the statements of a lease: one was completed, or what was done so far is
undone. -/
inductive Outcome where
  | completed (part : Part)
  | undone
  deriving DecidableEq, Repr

/-- The log of writes with the replies to them: all texts forwarded so far, the one that acquired the
lease, and the outcomes reported on the lease. -/
structure CommitLog where
  writes : WriteLog
  completes : Option (ℕ × ℕ)
  forwarded : List Classified
  lead : Option Classified
  outcomes : List Outcome
  deriving DecidableEq, Repr

/-- Nothing was forwarded yet. -/
def CommitLog.empty : CommitLog := ⟨.empty, none, [], none, []⟩

/-- The statement whose completion is reported. -/
def CommitLog.part (l : CommitLog) : Option Part :=
  l.completes.bind fun number => l.forwarded[number.1]?.bind fun entry =>
    (Sql.Postgres.statements entry.1.sql)[number.2]?.map fun stmt => (entry, stmt)

/-- The outcome that a reply reports. An error ends the implicit transaction of its statement. -/
def CommitLog.outcome (l : CommitLog) : BackendMessage → Option Outcome
  | .commandComplete commandTag =>
    if commandTag = text "ROLLBACK" then some .undone else l.part.map .completed
  | .errorResponse _ _ _ => some .undone
  | _ => none

/-- The log after a reply. -/
def CommitLog.reply (l : CommitLog) (msg : BackendMessage) : CommitLog :=
  { l with outcomes := l.outcomes ++ (l.outcome msg).toList }

/-- The log after the client was told the status of its transaction. -/
def CommitLog.told (l : CommitLog) (msg : BackendMessage) : CommitLog :=
  if msg = .readyForQuery statusIdle ∨ msg = .readyForQuery statusFailed then { l with lead := none }
  else l

/-- What an action says about the statements. -/
def CommitLog.follow (l : CommitLog) : Action → CommitLog
  | .acquire _ => { l with lead := l.writes.current.or l.lead, outcomes := [] }
  | .forward _ _ true => { l with forwarded := l.forwarded ++ l.writes.current.toList }
  | .relay msg _ => (l.reply msg).told msg
  | .discard msg => l.reply msg
  | _ => l

/-- The log after an action of the session. -/
def CommitLog.record (l : CommitLog) (act : Action) : CommitLog :=
  { l.follow act with writes := l.writes.record act }

/-- The log after an event was taken. -/
def CommitLog.note (l : CommitLog) (s : Session) (i : Answered) : CommitLog :=
  { l with writes := l.writes.note s i.event, completes := i.completes }

/-- The main loop with the log of its writes and the replies to them. -/
def commitStep : Watched Session CommitLog → Answered → Watched Session CommitLog :=
  Watched.step (fun s i => turn s i.event) CommitLog.note CommitLog.record

/-- The main loop at its start. -/
def Session.commits (s : Session) : Watched Session CommitLog := ⟨s, .empty, .running⟩

/-- The statements that were completed and not undone, after those that were before. -/
def survivingFrom (done : List Part) : List Outcome → List Part
  | [] => done
  | .completed part :: rest => survivingFrom (done ++ [part]) rest
  | .undone :: rest => survivingFrom [] rest

/-- The statements of a lease that were completed and not undone. -/
def surviving (outcomes : List Outcome) : List Part := survivingFrom [] outcomes

/-- A statement of a write that is a write by itself, and no command that begins, ends or divides a
transaction. -/
def isDataWrite (part : Part) : Bool :=
  part.1.2 == .write && (classifyByKeyword (Sql.Postgres.textOf part.2)).kind == .write &&
    (Sql.Postgres.transactionCommand part.2).isNone

/-- The window changes only at the end of a lease of the primary on which a write was completed and
not undone. -/
def OpensForWrite (w : Watched Session CommitLog) (i : Answered) : Prop :=
  w.next = .running →
    (turn w.state i.event).state.postWriteWindow.openedAt ≠ w.state.postWriteWindow.openedAt →
      match i.event with
      | .upstream env msg =>
        EndsLease env w.state msg ∧ w.state.compatLeasedRole = some .primary ∧
          ∃ part ∈ surviving w.ledger.outcomes, isDataWrite part = true
      | _ => False

/-- A lease that was acquired by a write, and on which no `ROLLBACK` was forwarded, ends when a data
write of the text that acquired it was completed and neither an error nor a `ROLLBACK` was reported. -/
def LeadCompletes (w : Watched Session CommitLog) (i : Answered) : Prop :=
  w.next = .running →
    match i.event with
    | .upstream env msg =>
      EndsLease env w.state msg → w.ledger.writes.rollback = false →
        ∀ entry ∈ w.ledger.lead, entry.2 = .write →
          (∃ stmt ∈ Sql.Postgres.statements entry.1.sql, isDataWrite (entry, stmt) = true ∧
            .completed (entry, stmt) ∈ w.ledger.outcomes) ∧ .undone ∉ w.ledger.outcomes
    | _ => True

instance LeadCompletes.decidable (w : Watched Session CommitLog) : (i : Answered) →
    Decidable (LeadCompletes w i)
  | ⟨.upstream env msg, _⟩ => inferInstanceAs (Decidable (_ → EndsLease env w.state msg → _ → _))
  | ⟨.downstream _ _, _⟩ => inferInstanceAs (Decidable (_ → True))
  | ⟨.downstreamClosed, _⟩ => inferInstanceAs (Decidable (_ → True))
  | ⟨.err, _⟩ => inferInstanceAs (Decidable (_ → True))
  | ⟨.release, _⟩ => inferInstanceAs (Decidable (_ → True))
  | ⟨.done, _⟩ => inferInstanceAs (Decidable (_ → True))

/-- Where nothing is undone, nothing that was completed is lost. -/
theorem mem_survivingFrom {done : List Part} {outcomes : List Outcome} {part : Part}
    (hcompleted : part ∈ done ∨ .completed part ∈ outcomes) (hkept : .undone ∉ outcomes) :
    part ∈ survivingFrom done outcomes := by
  induction outcomes generalizing done with
  | nil => exact hcompleted.resolve_right List.not_mem_nil
  | cons outcome rest ih =>
    cases outcome with
    | completed first =>
      refine ih ?_ fun hundone => hkept (List.mem_cons_of_mem _ hundone)
      simpa [or_assoc] using hcompleted
    | undone => exact absurd List.mem_cons_self hkept

/-- The log of replies sees the same writes as the log of writes. -/
theorem observe_commitStep (w : Watched Session CommitLog) (i : Answered) :
    (commitStep w i).observe CommitLog.writes =
      writeStep (w.observe CommitLog.writes) i.event :=
  Watched.observe_step CommitLog.writes Answered.event (fun _ _ => rfl) (fun _ _ _ => rfl)
    (fun _ _ => rfl) w i

/-- The statement that acquired the lease has the class of the log of writes. -/
def LeadTracked (l : CommitLog) : Prop := l.writes.opener = l.lead.map Prod.snd

/-- An action keeps track of the statement that acquired the lease. -/
theorem LeadTracked.record {l : CommitLog} (h : LeadTracked l) (act : Action) :
    LeadTracked (l.record act) := by
  cases act with
  | acquire conn =>
    simp only [LeadTracked, CommitLog.record, CommitLog.follow, WriteLog.record]
    rw [h]
    cases l.writes.current <;> rfl
  | forward conn msg ok => cases ok <;> exact h
  | relay msg ok =>
    simp only [LeadTracked, CommitLog.record, CommitLog.follow, CommitLog.told, WriteLog.record,
      WriteLog.told]
    by_cases hidle : msg = .readyForQuery statusIdle
    · simp [hidle]
    · by_cases hfailed : msg = .readyForQuery statusFailed
      · simp [hfailed, statusFailed, statusIdle]
      · simp only [hidle, hfailed, or_self, if_false]
        exact h
  | _ => exact h

/-- The flags of the session and the statement that acquired the lease are those of the log. -/
def RunsCommits (w : Watched Session CommitLog) : Prop :=
  RunsTracked (w.observe CommitLog.writes) ∧ LeadTracked w.ledger

/-- Every step keeps the log. -/
theorem runsCommits_step (w : Watched Session CommitLog) (i : Answered) (hw : RunsCommits w) :
    RunsCommits (commitStep w i) := by
  refine ⟨?_, ?_⟩
  · rw [observe_commitStep]
    exact tracked_step i.event hw.1
  · have hfold (acts : List Action) {l : CommitLog} (h : LeadTracked l) :
        LeadTracked (acts.foldl CommitLog.record l) := by
      induction acts generalizing l with
      | nil => exact h
      | cons act acts ih => exact ih (h.record act)
    apply Watched.step_keeps (fun w : Watched Session CommitLog => LeadTracked w.ledger) hw.2
    intro _
    refine hfold _ ?_
    cases hev : i.event <;> simpa [LeadTracked, CommitLog.note, WriteLog.note, hev] using hw.2

/-- Preparing the upstream keeps the window. -/
theorem Prepares.postWriteWindow {env : Env} {s : Session} {msg : FrontendMessage} {h : Handling}
    (hprep : Prepares env s msg h) : h.sess.postWriteWindow = s.postWriteWindow := by
  cases hprep with
  | continued stmt =>
    unfold continueTransaction trackRollback
    split_ifs <;> rfl
  | leased stmt lease =>
    unfold beginTransaction trackRollback
    split_ifs <;> rfl
  | _ => rfl

/-- Serving a client message keeps the window. -/
theorem Serves.postWriteWindow {env : Env} {msg : FrontendMessage} {s : Session} {t : SessionTurn}
    (hserve : Serves env msg s t) : t.state.postWriteWindow = s.postWriteWindow := by
  cases hserve with
  | revokedUnflushed h err ref hprep => exact hprep.postWriteWindow
  | revoked h err ref hprep => exact hprep.postWriteWindow
  | closed h err hprep => exact hprep.postWriteWindow
  | handled h hprep => exact hprep.postWriteWindow
  | panicked h hprep => exact hprep.postWriteWindow
  | forwarded h conn u hprep _ _ hfwd =>
    obtain ⟨mode, pending, swallowing, hstate⟩ := hfwd.state_eq
    rw [hstate]
    exact hprep.postWriteWindow
  | _ => rfl

/-- A status other than the end of a transaction keeps the window. -/
theorem trackReadyForQuery_postWriteWindow (now : Time) {msg : BackendMessage} {s : Session}
    (h : ¬(msg = .readyForQuery statusIdle ∧ s.poolMode = .transaction)) :
    (trackReadyForQuery now msg s).postWriteWindow = s.postWriteWindow := by
  cases msg with
  | readyForQuery txStatus =>
    simp only [trackReadyForQuery]
    split_ifs with htracks
    · have hother : txStatus ≠ statusIdle := by
        rintro rfl
        exact h ⟨rfl, htracks.2⟩
      simp only [handleCompatReadyForQuery, hother, if_false]
      split_ifs <;> rfl
    · rfl
  | _ => rfl

/-- An upstream message that cannot be delivered changes nothing. -/
theorem relayUpstream_undelivered {env : Env} {msg : BackendMessage} (s : Session)
    (hflushes : flushesDownstream msg = true) (hfails : ¬(env.send msg = true ∧ env.flush = true)) :
    (relayUpstream env msg s).state = s := by
  unfold relayUpstream
  cases hsend : env.send msg with
  | false => rfl
  | true =>
    have hflush : env.flush = false := by simpa [hsend] using hfails
    simp [hflushes, hflush, Turn.attempt, Turn.andThen]

/-- Serving an upstream message other than the end of a lease keeps the window. -/
theorem serve_upstream_postWriteWindow {s : Session} {env : Env} {msg : BackendMessage}
    (h : ¬EndsLease env s msg) :
    (serve s (.upstream env msg)).state.postWriteWindow = s.postWriteWindow := by
  obtain ⟨-, hserve⟩ | ⟨-, -, hdrop⟩ | ⟨hheld, hswallow, hrelay⟩ := serve_upstream_cases s env msg
  · rw [hserve]
    rfl
  · generalize serve s (.upstream env msg) = t at hdrop ⊢
    cases hdrop <;> rfl
  · by_cases hends : msg = .readyForQuery statusIdle ∧ s.poolMode = .transaction
    · obtain ⟨rfl, hmode⟩ := hends
      have hserve : serve s (.upstream env (.readyForQuery statusIdle)) =
          relayUpstream env (.readyForQuery statusIdle) s := by
        simp [serve, onUpstream, Option.isSome_iff_ne_none, hheld, hswallow]
      rw [hserve, relayUpstream_undelivered s rfl]
      exact fun hdelivered => h ⟨rfl, hmode, hheld, hswallow, hdelivered⟩
    · generalize serve s (.upstream env msg) = t at hrelay ⊢
      cases hrelay with
      | detached hready hmode => exact absurd ⟨hready, hmode⟩ hends
      | kept => exact trackReadyForQuery_postWriteWindow env.now hends
      | _ => rfl

/-- A turn other than the end of a lease keeps the window. -/
theorem turn_postWriteWindow {s : Session} {ev : Event}
    (h : ∀ env msg, ev = .upstream env msg → ¬EndsLease env s msg) :
    (turn s ev).state.postWriteWindow = s.postWriteWindow := by
  have hserve : (serve s ev).state.postWriteWindow = s.postWriteWindow := by
    cases ev with
    | upstream env msg => exact serve_upstream_postWriteWindow (h env msg rfl)
    | downstream env msg =>
      obtain ⟨slot, hdecode⟩ := decodeMessage_eq s msg
      rw [(serve_serves s env msg).postWriteWindow, hdecode]
    | release => exact releaseUpstream_postWriteWindow s
    | _ => rfl
  rw [turn, deferredRelease]
  split
  · exact (releaseUpstream_postWriteWindow _).trans hserve
  · exact hserve
  · exact hserve

/-- Where the statement that acquired a lease completes, the window opens for it only. -/
theorem opensForWrite_of_leadCompletes {w : Watched Session CommitLog} {i : Answered}
    (hw : RunsCommits w) (hlead : LeadCompletes w i) : OpensForWrite w i := by
  obtain ⟨event, completes⟩ := i
  intro hrunning hchanges
  cases event with
  | upstream env msg =>
    by_cases hends : EndsLease env w.state msg
    · obtain ⟨⟨hport, htracked⟩, hopener⟩ := hw
      have htracked := htracked hrunning hends.2.1
      have hflags : w.state.awaitingRollbackResult = false ∧
          w.state.compatTransactionFirstClass = .write ∧
          w.state.compatLeasedRole = some .primary := by
        by_contra hflags
        rw [openedAt_of_endsLease hends hport, if_neg hflags] at hchanges
        exact hchanges rfl
      obtain ⟨hawaiting, hfirst, hprimary⟩ := hflags
      have hwrite : w.ledger.lead.map Prod.snd = some .write :=
        hopener.symm.trans (htracked.first.mp hfirst)
      obtain ⟨entry, hentry, hkind⟩ := Option.map_eq_some_iff.mp hwrite
      obtain ⟨⟨stmt, -, hdata, hcompleted⟩, hkept⟩ :=
        hlead hrunning hends (htracked.awaiting.symm.trans hawaiting) entry hentry hkind
      exact ⟨hends, hprimary, (entry, stmt), mem_survivingFrom (.inr hcompleted) hkept, hdata⟩
    · have hstays : ∀ env' msg', Event.upstream env msg = .upstream env' msg' →
          ¬EndsLease env' w.state msg' := by
        rintro _ _ ⟨⟩
        exact hends
      exact absurd (congrArg PostWriteWindow.openedAt (turn_postWriteWindow hstays)) hchanges
  | _ =>
    refine hchanges (congrArg PostWriteWindow.openedAt (turn_postWriteWindow ?_))
    rintro env msg ⟨⟩

/-- In every run on the compat port that starts in transaction mode and in which a data write of each
text that acquires a lease as a write completes before the lease ends, the window opens only at the end
of a lease of the primary on which a data write was completed and not undone. -/
theorem window_opens_for_writes (conn : ConnId) (windowMs : ℤ) (inputs : List Answered)
    (hlead : Throughout commitStep LeadCompletes
      (Session.start .compat .transaction conn windowMs).commits inputs) :
    Throughout commitStep OpensForWrite (Session.start .compat .transaction conn windowMs).commits
      inputs := by
  refine throughout_of_invariant (fun w i hw _ => runsCommits_step w i hw)
    (fun w i hw => opensForWrite_of_leadCompletes hw) ?_ hlead
  exact ⟨⟨rfl, fun _ _ => ⟨rfl, by simp [Session.start, Session.commits, CommitLog.empty,
    Watched.observe, WriteLog.empty]⟩⟩, rfl⟩

/-- A transaction that begins with an `INSERT` and commits opens the window. -/
theorem window_opens_for_writes_insert :
    let env := Env.steady 5 ⟨7, text "node-1", .primary⟩
    let inputs : List Answered :=
      [⟨.downstream env (.query (text "BEGIN")), none⟩,
        ⟨.downstream env (.query (text "INSERT INTO t VALUES (1)")), none⟩,
        ⟨.upstream env (.commandComplete (text "BEGIN")), none⟩,
        ⟨.upstream env (.readyForQuery statusBlock), none⟩,
        ⟨.upstream env (.commandComplete (text "INSERT 0 1")), some (0, 0)⟩,
        ⟨.upstream env (.readyForQuery statusBlock), none⟩,
        ⟨.downstream env (.query (text "COMMIT")), none⟩,
        ⟨.upstream env (.commandComplete (text "COMMIT")), some (1, 0)⟩,
        ⟨.upstream env (.readyForQuery statusIdle), none⟩]
    (run commitStep (Session.start .compat .transaction 0 1000).commits
        inputs).state.postWriteWindow.openedAt = 5 ∧
      Throughout commitStep OpensForWrite (Session.start .compat .transaction 0 1000).commits
        inputs := by
  intro env inputs
  exact ⟨by decide, window_opens_for_writes 0 1000 inputs (by decide)⟩

/-- An `INSERT` outside of a transaction block fails, and the window opens. -/
theorem window_opens_for_failed_insert :
    let env := Env.steady 5 ⟨7, text "node-1", .primary⟩
    let w := run commitStep (Session.start .compat .transaction 0 1000).commits
      [⟨.downstream env (.query (text "INSERT INTO t VALUES (1)")), none⟩,
        ⟨.upstream env (.errorResponse "ERROR" "23505" "duplicate key value"), none⟩]
    ¬OpensForWrite w ⟨.upstream env (.readyForQuery statusIdle), none⟩ := by
  intro env w hopens
  obtain ⟨-, -, part, hpart, -⟩ := hopens (by decide) (by decide)
  have hnone : surviving w.ledger.outcomes = [] := by decide
  rw [hnone] at hpart
  cases hpart

end Grunyas.Server
