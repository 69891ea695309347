import Grunyas.Machine.Blocks
import Grunyas.Session.Outcomes

/-!
# The exchange between client, session and upstream

The ledger of a session: the requests received from the client, the `ReadyForQuery` messages sent
to it, and what was sent on the present lease and waits for its reply. A backend answers in order,
with one `ReadyForQuery` for each `Query` or `Sync`, so that each `ReadyForQuery` completes the
replies to every message up to the next request.
-/

namespace Grunyas.Server

open GoText Grunyas.Classifier Machine

/-- A message sent on the lease; it is not the client's own if it is a replayed `BEGIN`, to which
the client has had an answer. -/
structure Sent where
  msg : FrontendMessage
  own : Bool
  deriving DecidableEq, Repr

/-- Whether a `ReadyForQuery` answers the message. -/
def Sent.isRequest (sent : Sent) : Bool := sent.msg.isRequest

/-- Whether a backend answers the message at all; those of a `COPY` stream are part of the
exchange of its `Query`. -/
def FrontendMessage.expectsReply (msg : FrontendMessage) : Bool :=
  !msg.isCopy && msg != .flush

/-- The ledger of a session. -/
structure Exchange where
  received : ℕ
  delivered : ℕ
  waiting : List Sent
  withheld : List Sent
  unflushed : List FrontendMessage
  deriving DecidableEq, Repr

/-- Nothing was exchanged yet. -/
def Exchange.empty : Exchange := ⟨0, 0, [], [], []⟩

/-- The requests of the lease that are not answered yet. -/
def Exchange.owed (l : Exchange) : ℕ := l.waiting.countP Sent.isRequest

/-- A request was received. -/
def Exchange.receive (l : Exchange) (msg : FrontendMessage) : Exchange :=
  { l with received := l.received + msg.isRequest.toNat }

/-- A message was sent to the client. -/
def Exchange.deliver (l : Exchange) (msg : BackendMessage) : Exchange :=
  { l with delivered := l.delivered + msg.isReady.toNat }

/-- A message was sent on the lease. -/
def Exchange.send (l : Exchange) (sent : Sent) : Exchange :=
  { l with
    waiting := if sent.msg.expectsReply then l.waiting ++ [sent] else l.waiting
    unflushed := l.unflushed ++ [sent.msg] }

/-- A reply of the upstream was sent to the client. -/
def Exchange.relay (l : Exchange) (msg : BackendMessage) : Exchange :=
  { l.deliver msg with
    waiting := if msg.isReady then afterFirst Sent.isRequest l.waiting else l.waiting }

/-- A reply of the upstream was dropped. -/
def Exchange.discard (l : Exchange) (msg : BackendMessage) : Exchange :=
  { l with
    waiting := if msg.isReady then afterFirst Sent.isRequest l.waiting else l.waiting
    withheld :=
      if msg.isReady then l.withheld ++ (throughFirst Sent.isRequest l.waiting).filter Sent.own
      else l.withheld }

/-- The upstream was flushed. -/
def Exchange.flush (l : Exchange) : Exchange := { l with unflushed := [] }

/-- A new upstream was leased. -/
def Exchange.lease (l : Exchange) : Exchange :=
  { l with waiting := [], withheld := [], unflushed := [] }

/-- The ledger after an action of the session. -/
def Exchange.record (l : Exchange) : Action → Exchange
  | .send msg _ => l.deliver msg
  | .relay msg _ => l.relay msg
  | .discard msg => l.discard msg
  | .acquire _ => l.lease
  | .replay _ msg true => l.send ⟨msg, false⟩
  | .forward _ msg true => l.send ⟨msg, true⟩
  | .upstreamFlush true => l.flush
  | _ => l

/-- The ledger after an event was taken. -/
def Exchange.note (l : Exchange) (_ : Session) : Event → Exchange
  | .downstream _ msg => l.receive msg
  | _ => l

/-- The main loop with the ledger of its exchange. -/
def exchangeStep : Watched Session Exchange → Event → Watched Session Exchange :=
  Watched.step turn Exchange.note Exchange.record

/-- The main loop at its start. -/
def Session.exchange (s : Session) : Watched Session Exchange := ⟨s, .empty, .running⟩

/-- The backends send a `ReadyForQuery` for a request only, and one for each. -/
def BackendStep (w : Watched Session Exchange) : Event → Prop
  | .upstream _ msg =>
    w.next = .running → w.state.upstream ≠ none → msg.isReady = true → 0 < w.ledger.owed
  | _ => True

instance BackendStep.decidable (w : Watched Session Exchange) : (ev : Event) →
    Decidable (BackendStep w ev)
  | .upstream _ _ => inferInstanceAs (Decidable (_ → _ → _ → _))
  | .downstream _ _ => isTrue trivial
  | .downstreamClosed => isTrue trivial
  | .err => isTrue trivial
  | .release => isTrue trivial
  | .done => isTrue trivial

/-- Whether the session answers a message on the compat port in the upstream's place: in a failed
transaction everything but a `ROLLBACK`, and otherwise a write in a transaction leased to a
replica. -/
def answersItself (s : Session) (msg : FrontendMessage) : Bool :=
  if s.compatTxState = .inFailedTransaction then
    match msg with
    | .query string => !isRollback string
    | _ => true
  else
    match msg.statement with
    | some stmt => reclassifies s (compatKind s stmt) stmt.sql
    | none => false

/-- The session replays a buffered `BEGIN` before the message, on the upstream it holds. -/
def ReplaysBegin (env : Env) (s : Session) (msg : FrontendMessage) : Prop :=
  s.pendingBegin ≠ none ∧ s.upstream ≠ none ∧ ¬(answersItself s msg = true ∧ env.flush = true)

instance (env : Env) (s : Session) (msg : FrontendMessage) : Decidable (ReplaysBegin env s msg) :=
  inferInstanceAs (Decidable (_ ∧ _ ∧ _))

/-- A request expects a reply. -/
theorem FrontendMessage.expectsReply_of_isRequest {msg : FrontendMessage}
    (h : msg.isRequest = true) : msg.expectsReply = true := by
  cases msg with
  | query string => rfl
  | sync => rfl
  | _ => cases h

/-- Sending a request makes the lease owe one more reply. -/
@[simp] theorem Exchange.owed_send (l : Exchange) (sent : Sent) :
    (l.send sent).owed = l.owed + sent.isRequest.toNat := by
  cases hreq : sent.isRequest with
  | true =>
    have hreply : sent.msg.expectsReply = true := FrontendMessage.expectsReply_of_isRequest hreq
    simp [Exchange.owed, Exchange.send, hreply, hreq]
  | false =>
    simp only [Exchange.owed, Exchange.send]
    split_ifs <;> simp [hreq]

/-- A relayed `ReadyForQuery` answers one request. -/
@[simp] theorem Exchange.owed_relay (l : Exchange) (msg : BackendMessage) :
    (l.relay msg).owed = l.owed - msg.isReady.toNat := by
  cases hready : msg.isReady <;> simp [Exchange.owed, Exchange.relay, hready, countP_afterFirst]

/-- A dropped `ReadyForQuery` answers one request. -/
@[simp] theorem Exchange.owed_discard (l : Exchange) (msg : BackendMessage) :
    (l.discard msg).owed = l.owed - msg.isReady.toNat := by
  cases hready : msg.isReady <;> simp [Exchange.owed, Exchange.discard, hready, countP_afterFirst]

/-- The ledger after a buffered `BEGIN` was replayed. -/
def Exchange.replay (l : Exchange) (s : Session) : Exchange :=
  match s.pendingBegin with
  | none => l
  | some ref => l.send ⟨s.deref ref, false⟩

/-- The ledger after a message was forwarded. -/
def Exchange.forward (l : Exchange) (s : Session) (msg : FrontendMessage) : Exchange :=
  if flushesUpstream msg then ((l.replay s).send ⟨msg, true⟩).flush
  else (l.replay s).send ⟨msg, true⟩

/-- Forwarding a message makes the lease owe the replies to it and to a replayed `BEGIN`. -/
theorem Exchange.owed_forward (l : Exchange) (s : Session) (msg : FrontendMessage) :
    (l.forward s msg).owed = l.owed + s.pendingBegin.isSome.toNat + msg.isRequest.toNat := by
  have hreplay : (l.replay s).owed = l.owed + s.pendingBegin.isSome.toNat := by
    unfold Exchange.replay
    cases s.pendingBegin with
    | none => rfl
    | some ref => exact Exchange.owed_send l ⟨s.deref ref, false⟩
  have hsend := Exchange.owed_send (l.replay s) ⟨msg, true⟩
  rw [hreplay] at hsend
  unfold Exchange.forward
  split_ifs <;> exact hsend

/-- The ledger follows a replay. -/
theorem foldl_record_replayed (conn : ConnId) (s : Session) (l : Exchange) :
    (replayed conn s).foldl Exchange.record l = l.replay s := by
  unfold replayed Exchange.replay
  cases s.pendingBegin <;> rfl

/-- What forwarding a message does to the ledger: nothing is sent to the client, and if the loop
goes on the message was sent. -/
theorem Forwards.exchange {env : Env} {msg : FrontendMessage} {s : Session} {conn : ConnId}
    {t : SessionTurn} (hfwd : Forwards env msg s conn t) (l : Exchange) :
    (t.acts.foldl Exchange.record l).delivered = l.delivered ∧
      (t.acts.foldl Exchange.record l).received = l.received ∧
      (t.next = .running → t.acts.foldl Exchange.record l = l.forward s msg ∧
        t.state = afterProcess msg (afterReplay s)) := by
  have hreplay : (l.replay s).delivered = l.delivered ∧ (l.replay s).received = l.received := by
    unfold Exchange.replay
    cases s.pendingBegin <;> exact ⟨rfl, rfl⟩
  cases hfwd with
  | replayFailed => exact ⟨rfl, rfl, nofun⟩
  | processFailed =>
    simp only [List.foldl_append, foldl_record_replayed]
    exact ⟨hreplay.1, hreplay.2, nofun⟩
  | flushFailed =>
    simp only [List.foldl_append, foldl_record_replayed]
    exact ⟨hreplay.1, hreplay.2, nofun⟩
  | sent =>
    have hforward : (replayed conn s ++ Action.forward conn msg true ::
        (flushed msg ++ [Action.downstreamAck env.ack])).foldl Exchange.record l =
          l.forward s msg := by
      simp only [List.foldl_append, foldl_record_replayed, List.foldl_cons, flushed,
        Exchange.forward]
      split_ifs <;> rfl
    have hcounts : (l.forward s msg).delivered = (l.replay s).delivered ∧
        (l.forward s msg).received = (l.replay s).received := by
      unfold Exchange.forward
      split_ifs <;> exact ⟨rfl, rfl⟩
    rw [hforward]
    exact ⟨hcounts.1.trans hreplay.1, hcounts.2.trans hreplay.2, fun _ => ⟨rfl, rfl⟩⟩

/-- A further statement of a transaction keeps the upstream. -/
theorem continueTransaction_upstream (s : Session) (kind : Kind) (sql : Text) :
    (continueTransaction s kind sql).upstream = s.upstream := by
  unfold continueTransaction trackRollback
  split_ifs <;> rfl

/-- What preparing the upstream does to the ledger: nothing, a new lease, or the answer to a
request that the session rejects. -/
theorem Prepares.exchange {env : Env} {s : Session} {msg : FrontendMessage} {h : Handling}
    (hprep : Prepares env s msg h) (l : Exchange) :
    (h.acts.foldl Exchange.record l = l ∧ h.sess.upstream = s.upstream) ∨
      (s.upstream = none ∧ h.acts.foldl Exchange.record l = l.lease) ∨
      (h.acts.foldl Exchange.record l = l.deliver (.readyForQuery statusFailed) ∧
        msg.isRequest = true ∧ s.port = .compat ∧ answersItself s msg = true ∧
        h.verdict = afterRejection env ∧ h.sess.upstream = s.upstream) := by
  cases hprep with
  | acquired _ _ hnone => exact .inr (.inl ⟨hnone, rfl⟩)
  | otherLeased _ _ _ _ hnone => exact .inr (.inl ⟨hnone, rfl⟩)
  | leased _ _ _ _ _ hnone => exact .inr (.inl ⟨hnone, rfl⟩)
  | abortedQuery string hport htx hmsg hr =>
    subst hmsg
    exact .inr (.inr ⟨rfl, rfl, hport, by simp [answersItself, htx, hr], rfl, rfl⟩)
  | abortedSync hport htx hmsg =>
    subst hmsg
    exact .inr (.inr ⟨rfl, rfl, hport, by simp [answersItself, htx], rfl, rfl⟩)
  | reclassified stmt conn hport htx hstmt hheld hreplica hwrite hcommit hrollback =>
    have hanswers : answersItself s msg = true := by
      simp [answersItself, htx, hstmt, reclassifies, hheld, hreplica, hwrite, hcommit, hrollback]
    cases msg with
    | query string => exact .inr (.inr ⟨rfl, rfl, hport, hanswers, rfl, rfl⟩)
    | parse name sql => exact .inl ⟨rfl, rfl⟩
    | _ => cases hstmt
  | continued => exact .inl ⟨rfl, continueTransaction_upstream _ _ _⟩
  | _ => exact .inl ⟨rfl, rfl⟩

/-- On the compat port only a refused lease fails. -/
theorem Prepares.lease_of_failed {env : Env} {s : Session} {msg : FrontendMessage} {h : Handling}
    {err : AcquireError} (hprep : Prepares env s msg h) (hport : s.port = .compat)
    (hfailed : h.verdict = .failed err) :
    answersItself s msg = false ∧ requestLease env s msg.sql = .error err := by
  cases hprep with
  | refused _ hother => exact absurd hport hother
  | otherRefused err' _ htx hother _ hlease =>
    obtain rfl : err' = err := Verdict.failed.inj hfailed
    have hsql : msg.sql = [] := by
      cases msg with
      | query string => cases hother
      | parse name sql => cases hother
      | _ => rfl
    exact ⟨by simp [answersItself, htx, hother], by rw [hsql, hlease]⟩
  | leaseRefused stmt err' _ htx hstmt hnone hlease =>
    obtain rfl : err' = err := Verdict.failed.inj hfailed
    have hsql : msg.sql = stmt.sql := by
      cases msg with
      | query string => cases hstmt; rfl
      | parse name sql => cases hstmt; rfl
      | _ => cases hstmt
    exact ⟨by simp [answersItself, htx, hstmt, reclassifies, hnone], by rw [hsql, hlease]⟩
  | abortedQuery => exact absurd hfailed (afterRejection_ne_failed env err)
  | abortedSync => exact absurd hfailed (afterRejection_ne_failed env err)
  | reclassified => exact absurd hfailed (afterRejection_ne_failed env err)
  | _ => cases hfailed

/-- A message that the session answers successfully is not forwarded. -/
theorem Prepares.not_answered_of_forward {env : Env} {s : Session} {msg : FrontendMessage}
    {h : Handling} (hprep : Prepares env s msg h) (hport : s.port = .compat)
    (hforward : h.verdict = .forward) : ¬(answersItself s msg = true ∧ env.flush = true) := by
  intro hanswered
  obtain ⟨hanswers, hflush⟩ := hanswered
  cases hprep with
  | held _ hother => exact hother hport
  | acquired _ hother => exact hother hport
  | rollback string _ htx hmsg hr =>
    subst hmsg
    simp [answersItself, htx, hr] at hanswers
  | abortedQuery => simp [hflush] at hforward
  | abortedSync => simp [hflush] at hforward
  | otherHeld _ _ htx hother => simp [answersItself, htx, hother] at hanswers
  | otherLeased _ _ htx hother => simp [answersItself, htx, hother] at hanswers
  | reclassified => simp [hflush] at hforward
  | continued stmt conn _ htx hstmt _ hallowed =>
    simp [answersItself, htx, hstmt, hallowed] at hanswers
  | leased stmt _ _ htx hstmt hnone =>
    simp [answersItself, htx, hstmt, reclassifies, hnone] at hanswers
  | _ => cases hforward

/-- Releasing the upstream adds nothing to the ledger. -/
theorem foldl_record_releaseUpstream (s : Session) (l : Exchange) :
    (releaseUpstream s).2.foldl Exchange.record l = l := by
  unfold releaseUpstream
  cases s.upstream <;> rfl

/-- What relaying a reply does to the ledger. -/
theorem Relays.exchange {env : Env} {msg : BackendMessage} {s : Session} {t : SessionTurn}
    (hrelay : Relays env msg s t) (l : Exchange) :
    t.acts.foldl Exchange.record l = l.relay msg ∧
      t.state.swallowingBeginResponse = s.swallowingBeginResponse := by
  have hframe := (trackReadyForQuery_frame env.now msg s).1
  cases hrelay with
  | sendFailed => exact ⟨rfl, rfl⟩
  | flushFailed => exact ⟨rfl, rfl⟩
  | detached => exact ⟨foldl_record_releaseUpstream _ _,
      (releaseUpstream_frame _).swallowing.trans hframe.swallowing⟩
  | kept =>
    refine ⟨?_, hframe.swallowing⟩
    simp only [List.foldl_cons, List.foldl_append, flushedDownstream]
    split_ifs <;> rfl

/-- What dropping a reply does to the ledger; the failure of a replayed `BEGIN` is answered. -/
theorem Swallows.exchange {env : Env} {msg : BackendMessage} {s : Session} {t : SessionTurn}
    (hdrop : Swallows env msg s t) (l : Exchange) :
    (t.acts.foldl Exchange.record l = l.discard msg ∨
      (t.acts.foldl Exchange.record l = (l.discard msg).deliver (.readyForQuery statusIdle) ∧
        msg.isReady = true ∧ msg ≠ .readyForQuery statusBlock)) ∧
      t.state = if msg.isReady then stopSwallowing s else s := by
  cases hdrop with
  | dropped hother => exact ⟨.inl rfl, by simp [hother]⟩
  | begun hready =>
    subst hready
    exact ⟨.inl rfl, rfl⟩
  | flushFailed txStatus hready hfailed =>
    subst hready
    exact ⟨.inr ⟨rfl, rfl, by simpa using hfailed⟩, rfl⟩
  | reported txStatus hready hfailed =>
    subst hready
    exact ⟨.inr ⟨rfl, rfl, by simpa using hfailed⟩, rfl⟩

/-- Leaving the loop adds nothing to the ledger. -/
theorem foldl_record_turn (s : Session) (ev : Event) (l : Exchange) :
    (turn s ev).acts.foldl Exchange.record l = (serve s ev).acts.foldl Exchange.record l := by
  obtain hacts | ⟨conn, hacts⟩ := turn_acts s ev
  · rw [hacts]
  · rw [hacts, List.foldl_append]
    rfl

end Grunyas.Server
