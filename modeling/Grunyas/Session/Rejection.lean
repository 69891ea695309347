import Grunyas.Session.Outcomes

/-!
# Rejected messages on the compat port

A rejection is an error, perhaps a `ReadyForQuery`, and a flush. The handler reports a failed
flush with the same result as a message that is to be forwarded, so the rejected message goes to
the upstream in exactly that case.
-/

namespace Grunyas.Server

open GoText Grunyas.Classifier Machine

/-- The error of a write in a transaction leased to a replica. -/
def reclassificationError : BackendMessage :=
  .errorResponse "ERROR" "25006"
    "[grunyas] write attempted in transaction leased to replica (compat port)"

/-- The error of a statement in a failed transaction. -/
def abortedError : BackendMessage :=
  .errorResponse "ERROR" "25P02"
    "[grunyas] current transaction is aborted, commands ignored until end of transaction block"

/-- The session issued or attempted one of the two rejections. -/
def CompatRejected (acts : List Action) : Prop :=
  ∃ ok, Action.send reclassificationError ok ∈ acts ∨ Action.send abortedError ok ∈ acts

/-- A rejected message is not handed to the upstream. -/
def RejectionStep (w : Watched Session Unit) : Event → Prop
  | .downstream env msg =>
    w.next = .running → CompatRejected (turn w.state (.downstream env msg)).acts →
      ¬ForwardedUpstream msg (turn w.state (.downstream env msg)).acts
  | _ => True

/-- Whether the session rejects a client message that is not a `BEGIN` to be buffered. -/
def compatRejects (s : Session) (msg : FrontendMessage) : Bool :=
  if s.compatTxState = .inFailedTransaction then
    match msg with
    | .query string => !isRollback string
    | _ => false
  else
    match msg.statement with
    | some stmt => reclassifies s (compatKind s stmt) stmt.sql
    | none => false

/-- A rejection is flushed, or there is no upstream to hand the message to, or the replay of a
buffered `BEGIN` fails first. -/
def RejectionFlushed (w : Watched Session Unit) : Event → Prop
  | .downstream env msg =>
    w.next = .running → buffersBegin w.state msg = false → compatRejects w.state msg = true →
      env.flush = true ∨ w.state.upstream = none ∨
        (w.state.pendingBegin ≠ none ∧ env.replay = false)
  | _ => True

/-- A rejection among two parts of a turn is in one of them. -/
theorem compatRejected_append (first rest : List Action) :
    CompatRejected (first ++ rest) ↔ CompatRejected first ∨ CompatRejected rest := by
  simp only [CompatRejected, List.mem_append]
  constructor
  · rintro ⟨ok, (h | h) | (h | h)⟩
    · exact .inl ⟨ok, .inl h⟩
    · exact .inr ⟨ok, .inl h⟩
    · exact .inl ⟨ok, .inr h⟩
    · exact .inr ⟨ok, .inr h⟩
  · rintro (⟨ok, h⟩ | ⟨ok, h⟩)
    · exact ⟨ok, h.imp .inl .inl⟩
    · exact ⟨ok, h.imp .inr .inr⟩

/-- Forwarding rejects nothing. -/
theorem Forwards.not_rejected {env : Env} {msg : FrontendMessage} {s : Session} {conn : ConnId}
    {t : SessionTurn} (hfwd : Forwards env msg s conn t) : ¬CompatRejected t.acts := by
  rintro ⟨ok, h | h⟩ <;> exact hfwd.send_not_mem h

/-- Preparing the upstream rejects the messages that `compatRejects` says. -/
theorem Prepares.rejected_iff {env : Env} {s : Session} {msg : FrontendMessage} {h : Handling}
    (hprep : Prepares env s msg h) (hport : s.port = .compat) :
    CompatRejected h.acts ↔ compatRejects s msg = true := by
  cases hprep with
  | held _ hother => exact absurd hport hother
  | acquired _ hother => exact absurd hport hother
  | refused _ hother => exact absurd hport hother
  | rollback string _ htx hmsg hr =>
    subst hmsg
    simp [CompatRejected, compatRejects, htx, hr]
  | abortedQuery string _ htx hmsg hr =>
    subst hmsg
    refine iff_of_true ⟨_, .inr List.mem_cons_self⟩ ?_
    simp [compatRejects, htx, hr]
  | abortedSync _ htx hmsg =>
    subst hmsg
    simp [CompatRejected, compatRejects, htx, sendMessage, reclassificationError, abortedError]
  | aborted _ htx hmsg =>
    cases msg <;> simp_all [CompatRejected, compatRejects, FrontendMessage.isRequest]
  | reclassified stmt conn _ htx hstmt hheld hreplica hwrite hcommit hrollback =>
    refine iff_of_true ?_ ?_
    · cases msg with
      | query string => exact ⟨_, .inl (List.mem_cons_of_mem _ List.mem_cons_self)⟩
      | parse name sql => exact ⟨_, .inl (List.mem_cons_of_mem _ List.mem_cons_self)⟩
      | _ => cases hstmt
    · simp [compatRejects, htx, hstmt, reclassifies, hheld, hreplica, hwrite, hcommit, hrollback]
  | continued stmt conn _ htx hstmt _ hallowed =>
    simp [CompatRejected, compatRejects, htx, hstmt, hallowed]
  | otherHeld _ _ htx hstmt => simp [CompatRejected, compatRejects, htx, hstmt]
  | otherLeased _ _ htx hstmt => simp [CompatRejected, compatRejects, htx, hstmt]
  | otherRefused _ _ htx hstmt => simp [CompatRejected, compatRejects, htx, hstmt]
  | leased stmt _ _ htx hstmt hnone =>
    simp [CompatRejected, compatRejects, htx, hstmt, reclassifies, hnone]
  | leaseRefused stmt _ _ htx hstmt hnone =>
    simp [CompatRejected, compatRejects, htx, hstmt, reclassifies, hnone]

/-- A rejection has the verdict of its flush and keeps the upstream. -/
theorem Prepares.of_rejected {env : Env} {s : Session} {msg : FrontendMessage} {h : Handling}
    (hprep : Prepares env s msg h) (hrej : CompatRejected h.acts) :
    h.verdict = afterRejection env ∧ h.sess.upstream = s.upstream := by
  cases hprep with
  | abortedQuery => exact ⟨rfl, rfl⟩
  | reclassified => exact ⟨rfl, rfl⟩
  | abortedSync => exact ⟨rfl, rfl⟩
  | _ => simp [CompatRejected] at hrej

/-- A rejected message is kept from the upstream exactly if the flush of its rejection succeeds or
something else stops it. -/
theorem Serves.kept_iff {env : Env} {msg : FrontendMessage} {s : Session} {t : SessionTurn}
    (hserve : Serves env msg s t) (hport : s.port = .compat) :
    (CompatRejected t.acts → ¬ForwardedUpstream msg t.acts) ↔
      (buffersBegin s msg = false → compatRejects s msg = true →
        env.flush = true ∨ s.upstream = none ∨ (s.pendingBegin ≠ none ∧ env.replay = false)) := by
  cases hserve with
  | terminated hterm =>
    subst hterm
    simp [CompatRejected, compatRejects, FrontendMessage.statement]
  | refusedUnflushed href => simp [readPortRefuses, hport] at href
  | refused href => simp [readPortRefuses, hport] at href
  | bufferFailed acts hbuf hcut =>
    refine iff_of_true ?_ fun hplain => by simp [hbuf] at hplain
    cases hcut <;> simp [ForwardedUpstream]
  | buffered hbuf =>
    refine iff_of_true ?_ fun hplain => by simp [hbuf] at hplain
    simp [ForwardedUpstream]
  | revokedUnflushed h err ref hprep hfailed =>
    obtain ⟨hup, hacts, -⟩ := hprep.of_failed hfailed
    simp [hup, hacts, ForwardedUpstream, beginRevokedError, sendErrorAndReady, sendMessage]
  | revoked h err ref hprep hfailed =>
    obtain ⟨hup, hacts, -⟩ := hprep.of_failed hfailed
    simp [hup, hacts, ForwardedUpstream, beginRevokedError, sendErrorAndReady, sendMessage]
  | closed h err hprep hfailed =>
    obtain ⟨hup, hacts, -⟩ := hprep.of_failed hfailed
    simp [hup, hacts, ForwardedUpstream, fatalError, sendMessage]
  | handled h hprep hhandled =>
    refine iff_of_true ?_ ?_
    · simp [ForwardedUpstream, hprep.forward_not_mem]
    · intro _ hrejects
      have hrej := (hprep.rejected_iff hport).mpr hrejects
      rw [(hprep.of_rejected hrej).1, afterRejection_eq_handled] at hhandled
      exact .inl hhandled
  | panicked h hprep hforward hnone =>
    refine iff_of_true ?_ ?_
    · simp [ForwardedUpstream, hprep.forward_not_mem]
    · intro _ hrejects
      have hrej := (hprep.rejected_iff hport).mpr hrejects
      rw [(hprep.of_rejected hrej).2] at hnone
      exact .inr (.inl hnone)
  | forwarded h conn u hprep hforward hheld hfwd hplain =>
    have hmem : ForwardedUpstream msg (h.acts ++ u.acts) ↔ ForwardedUpstream msg u.acts := by
      simp [ForwardedUpstream, hprep.forward_not_mem]
    have hrej : CompatRejected (h.acts ++ u.acts) ↔ compatRejects s msg = true := by
      rw [compatRejected_append, or_iff_left hfwd.not_rejected, hprep.rejected_iff hport]
    rw [hmem, hrej, hfwd.forwarded_iff, hprep.frame.pendingBegin]
    simp only [hplain, true_imp_iff]
    refine forall_congr' fun hrejects => ?_
    obtain ⟨hverdict, hup⟩ := hprep.of_rejected ((hprep.rejected_iff hport).mpr hrejects)
    have hflush : env.flush = false := by
      rwa [hverdict, afterRejection_eq_forward] at hforward
    simp [hflush, ← hup, hheld]

/-- The decoder's slot plays no part in a rejection. -/
theorem compatRejects_decodeMessage (s : Session) (msg : FrontendMessage) :
    compatRejects (decodeMessage s msg) msg = compatRejects s msg := by
  obtain ⟨slot, hdecode⟩ := decodeMessage_eq s msg
  rw [hdecode]
  rfl

/-- Rejecting a message is part of serving the event. -/
theorem compatRejected_turn (s : Session) (ev : Event) :
    CompatRejected (turn s ev).acts ↔ CompatRejected (serve s ev).acts :=
  exists_congr fun _ => or_congr (mem_turn_acts (by simp)) (mem_turn_acts (by simp))

/-- In every run on the compat port no rejected message is handed to the upstream exactly if every
rejection is flushed, as far as an upstream could be reached at all. -/
theorem rejected_not_forwarded_iff (mode : PoolMode) (conn : ConnId) (windowMs : ℤ)
    (events : List Event) :
    Throughout loopStep RejectionStep (Session.start .compat mode conn windowMs).loop events ↔
      Throughout loopStep RejectionFlushed (Session.start .compat mode conn windowMs).loop events := by
  apply throughout_congr (I := fun w => w.state.port = .compat)
  · intro w ev hport
    exact (watched_port w ev).trans hport
  · intro w ev hport
    cases ev with
    | downstream env msg =>
      refine forall_congr' fun _ => ?_
      obtain ⟨slot, hdecode⟩ := decodeMessage_eq w.state msg
      have hport' : (decodeMessage w.state msg).port = .compat := by rw [hdecode, hport]
      have h := (serve_serves w.state env msg).kept_iff hport'
      rw [buffersBegin_decodeMessage, compatRejects_decodeMessage] at h
      rw [forwardedUpstream_turn, compatRejected_turn, h, hdecode]
    | _ => exact Iff.rfl
  · rfl

/-- A write in a transaction leased to a replica is rejected and, when the client connection fails
to flush, forwarded as well. -/
theorem rejected_insert_forwarded :
    let env := Env.steady 1 ⟨7, text "node-2", .replica⟩
    let insert := FrontendMessage.query (text "INSERT INTO t VALUES (1)")
    let s := (run loopStep (Session.start .compat .transaction 0 1000).loop
      [.downstream env (.query (text "SELECT 1"))]).state
    let t := turn s (.downstream { env with flush := false } insert)
    CompatRejected t.acts ∧ ForwardedUpstream insert t.acts := by
  refine ⟨⟨true, .inl ?_⟩, ⟨7, true, ?_⟩⟩ <;> decide

end Grunyas.Server
