import Grunyas.Session.BeginReplay
import Grunyas.Session.RollbackText

/-!
# Leaving a failed transaction

While the session's record says that the transaction has failed, only a simple query that the
session recognises as `ROLLBACK` is forwarded, and the record is cleared by the `ReadyForQuery`
that follows in transaction mode only. Written with a semicolon, sent through the extended
protocol or sent after the session was pinned, a `ROLLBACK` leaves the client where it was.
-/

namespace Grunyas.Server

open GoText Grunyas.Classifier Machine

/-- How the client sends a statement. -/
inductive Protocol where
  | simple
  | extended (name portal : Text)
  deriving DecidableEq, Repr

/-- The messages of a statement. -/
def Protocol.messages (sql : Text) : Protocol → List FrontendMessage
  | .simple => [.query sql]
  | .extended name portal => [.parse name sql, .bind portal name, .execute portal 0, .sync]

/-- The message that carries the statement. -/
def Protocol.carrier (sql : Text) : Protocol → FrontendMessage
  | .simple => .query sql
  | .extended name _ => .parse name sql

/-- The session once the client has sent a statement, with the messages sent upstream. -/
def afterStatement (env : Env) (s : Session) (p : Protocol) (sql : Text) :
    Watched Session (List FrontendMessage) :=
  run sendingStep ⟨s, [], .running⟩ ((p.messages sql).map (.downstream env))

/-- The session once the upstream has replied. -/
def afterReplies (w : Watched Session (List FrontendMessage))
    (replies : List (Env × BackendMessage)) : Watched Session (List FrontendMessage) :=
  run sendingStep w (replies.map fun reply => .upstream reply.1 reply.2)

/-- The statement is forwarded, and once its own `ReadyForQuery` with status `'I'` is relayed,
after whatever other replies, the record does not say failed. -/
def LeavesFailed (env : Env) (s : Session) (p : Protocol) (sql : Text) : Prop :=
  p.carrier sql ∈ (afterStatement env s p sql).ledger ∧
    ∀ replies, let w := afterReplies (afterStatement env s p sql) replies
      w.next = .running → w.state.upstream ≠ none → w.state.swallowingBeginResponse = false →
        ∀ env' : Env, env'.Healthy →
          (sendingStep w (.upstream env' (.readyForQuery statusIdle))).state.compatTxState ≠
            .inFailedTransaction

/-- A failed transaction answers a client message on its own. -/
theorem serve_failed {s : Session} (env : Env) {msg : FrontendMessage} (hport : s.port = .compat)
    (htx : s.compatTxState = .inFailedTransaction) (hterm : msg ≠ .terminate)
    (hplain : buffersBegin s msg = false) :
    serve s (.downstream env msg) =
      dispatch env msg (handleFailedTransaction env (decodeMessage s msg) msg) := by
  obtain ⟨slot, hdecode⟩ := decodeMessage_eq s msg
  have href : readPortRefuses (decodeMessage s msg) msg = false := by
    simp [readPortRefuses, hdecode, hport]
  have hbuffers : buffersBegin (decodeMessage s msg) msg = false :=
    (buffersBegin_decodeMessage s msg).trans hplain
  have hprep : prepareUpstream env (decodeMessage s msg) msg =
      handleFailedTransaction env (decodeMessage s msg) msg := by
    simp [prepareUpstream, handleCompatSQL, hdecode, hport, htx]
  simp [serve, onDownstream, serveMessage, hterm, href, hbuffers, hprep]

/-- A step of a running loop whose turn goes on. -/
theorem sendingStep_of_serve {s : Session} {ev : Event} {t : SessionTurn} (hserve : serve s ev = t)
    (hrun : t.next = .running) (sent : List FrontendMessage) :
    sendingStep ⟨s, sent, .running⟩ ev = ⟨t.state, t.acts.foldl recordSent sent, .running⟩ := by
  have hstep : sendingStep ⟨s, sent, .running⟩ ev = _ := Watched.step_of_running rfl ev
  have hturn : turn s ev = t := (turn_eq_serve (hserve ▸ hrun)).trans hserve
  rw [hstep, hturn, hrun]

/-- A message that the failed transaction handles is not sent and changes the slot at most. -/
theorem sendingStep_handled {env : Env} (henv : env.Healthy) {s : Session} {msg : FrontendMessage}
    (hport : s.port = .compat) (htx : s.compatTxState = .inFailedTransaction)
    (hterm : msg ≠ .terminate) (hplain : buffersBegin s msg = false)
    (hhandled : (handleFailedTransaction env (decodeMessage s msg) msg).verdict = .handled)
    (sent : List FrontendMessage) :
    sendingStep ⟨s, sent, .running⟩ (.downstream env msg) = ⟨decodeMessage s msg, sent, .running⟩ := by
  obtain ⟨slot, hdecode⟩ := decodeMessage_eq s msg
  have hprep : Prepares env (decodeMessage s msg) msg _ :=
    handleFailedTransaction_prepares env (by rw [hdecode, hport]) (by rw [hdecode, htx]) hterm
  have hsess : (handleFailedTransaction env (decodeMessage s msg) msg).sess = decodeMessage s msg := by
    cases msg with
    | query sql =>
      by_cases hr : isRollback sql = true
      · simp [handleFailedTransaction, hr] at hhandled
      · simp [handleFailedTransaction, hr]
    | _ => rfl
  have hserve := serve_failed env hport htx hterm hplain
  have hdispatch : dispatch env msg (handleFailedTransaction env (decodeMessage s msg) msg) =
      ⟨decodeMessage s msg,
        (handleFailedTransaction env (decodeMessage s msg) msg).acts ++ [.downstreamAck true],
        .running⟩ := by
    unfold dispatch
    simp [Turn.log_andThen, hhandled, hsess, ackDownstream, Turn.attempt, henv.ack]
  rw [sendingStep_of_serve (hserve.trans hdispatch) rfl, List.foldl_append, hprep.sent]
  rfl

/-- A failed transaction consumes a statement of the extended protocol. -/
theorem afterStatement_extended {env : Env} (henv : env.Healthy) {s : Session}
    (hport : s.port = .compat) (htx : s.compatTxState = .inFailedTransaction)
    (name portal sql : Text) :
    afterStatement env s (.extended name portal) sql = ⟨s, [], .running⟩ := by
  have hsync : (handleFailedTransaction env (decodeMessage s .sync) .sync).verdict = .handled := by
    simp [handleFailedTransaction, afterRejection, henv.flush]
  have hsteps : ∀ msg ∈ (Protocol.extended name portal).messages sql,
      sendingStep ⟨s, [], .running⟩ (.downstream env msg) = ⟨s, [], .running⟩ := by
    intro msg hmsg
    simp only [Protocol.messages, List.mem_cons, List.not_mem_nil, or_false] at hmsg
    obtain rfl | rfl | rfl | rfl := hmsg
    · exact sendingStep_handled henv hport htx (by simp) rfl rfl []
    · exact sendingStep_handled henv hport htx (by simp) rfl rfl []
    · exact sendingStep_handled henv hport htx (by simp) rfl rfl []
    · exact sendingStep_handled henv hport htx (by simp) rfl hsync []
  simp [Protocol.messages] at hsteps
  simp [afterStatement, Protocol.messages, hsteps]

/-- A failed transaction rejects a query that it does not recognise as `ROLLBACK`. -/
theorem afterStatement_rejected {env : Env} (henv : env.Healthy) {s : Session} {t : RollbackText}
    (hport : s.port = .compat) (htx : s.compatTxState = .inFailedTransaction)
    (hplain : t.plain = false) : (afterStatement env s .simple t.sql).ledger = [] := by
  have hbuffers : buffersBegin s (.query t.sql) = false := by
    simp [buffersBegin, t.not_transactionStart]
  have hverdict : (handleFailedTransaction env (decodeMessage s (.query t.sql))
      (.query t.sql)).verdict = .handled := by
    simp [handleFailedTransaction, t.isRollback_sql, hplain, afterRejection, henv.flush]
  have hstep := sendingStep_handled henv hport htx (by simp) hbuffers hverdict []
  simp [afterStatement, Protocol.messages, hstep]

/-- The session on which a recognised `ROLLBACK` was forwarded. -/
def rolledBack (s : Session) (sql : Text) : Session :=
  afterReplay { decodeMessage s (.query sql) with awaitingRollbackResult := true }

/-- What a forwarded `ROLLBACK` leaves as it was. -/
theorem rolledBack_frame (s : Session) (sql : Text) :
    (rolledBack s sql).port = s.port ∧ (rolledBack s sql).poolMode = s.poolMode ∧
      (rolledBack s sql).upstream = s.upstream ∧
      (rolledBack s sql).compatTxState = s.compatTxState := by
  unfold rolledBack afterReplay
  split <;> exact ⟨rfl, rfl, rfl, rfl⟩

/-- Forwarding a recognised `ROLLBACK` is all that is left to do. -/
theorem serve_rollback (env : Env) {s : Session} {t : RollbackText} (hport : s.port = .compat)
    (htx : s.compatTxState = .inFailedTransaction) (hplain : t.plain = true) :
    serve s (.downstream env (.query t.sql)) = forwardMessage env (.query t.sql)
      { decodeMessage s (.query t.sql) with awaitingRollbackResult := true } := by
  have hbuffers : buffersBegin s (.query t.sql) = false := by
    simp [buffersBegin, t.not_transactionStart]
  rw [serve_failed env hport htx (by simp) hbuffers]
  simp [dispatch, handleFailedTransaction, t.isRollback_sql, hplain, Turn.log_andThen]

/-- A recognised `ROLLBACK` is forwarded. -/
theorem afterStatement_rollback {env : Env} (henv : env.Healthy) {s : Session} {t : RollbackText}
    (hport : s.port = .compat) (htx : s.compatTxState = .inFailedTransaction)
    (hheld : s.upstream ≠ none) (hplain : t.plain = true) :
    ∃ sent, afterStatement env s .simple t.sql = ⟨rolledBack s t.sql, sent, .running⟩ ∧
      .query t.sql ∈ sent := by
  obtain ⟨conn, hconn⟩ := Option.ne_none_iff_exists'.mp hheld
  have hpins : Messaging.processPins (.query t.sql) = false := t.not_pins
  have hserve := serve_rollback env hport htx hplain
  have hforward : forwardMessage env (.query t.sql)
      { decodeMessage s (.query t.sql) with awaitingRollbackResult := true } =
        forwardOn env conn (.query t.sql)
          { decodeMessage s (.query t.sql) with awaitingRollbackResult := true } := by
    simp [forwardMessage, decodeMessage, hconn]
  rw [hforward, forwardOn_of_healthy henv] at hserve
  have hstate : afterProcess (.query t.sql) (afterReplay
      { decodeMessage s (.query t.sql) with awaitingRollbackResult := true }) =
        rolledBack s t.sql := by
    simp only [afterProcess, hpins, Bool.false_eq_true, if_false, rolledBack]
  have hstep := sendingStep_of_serve hserve rfl []
  rw [hstate] at hstep
  refine ⟨_, hstep, ?_⟩
  apply mem_foldl_recordSent_of_forward
  exact List.mem_append_right _ List.mem_cons_self

/-- Without an upstream a recognised `ROLLBACK` ends the loop. -/
theorem afterStatement_detached {env : Env} {s : Session} {t : RollbackText}
    (hport : s.port = .compat) (htx : s.compatTxState = .inFailedTransaction)
    (hheld : s.upstream = none) (hplain : t.plain = true) :
    (afterStatement env s .simple t.sql).ledger = [] := by
  have hserve := serve_rollback env hport htx hplain
  have hforward : forwardMessage env (.query t.sql)
      { decodeMessage s (.query t.sql) with awaitingRollbackResult := true } =
        ⟨{ decodeMessage s (.query t.sql) with awaitingRollbackResult := true }, [], .panicked⟩ := by
    simp [forwardMessage, decodeMessage, hheld]
  rw [hforward] at hserve
  have hstep : sendingStep ⟨s, [], .running⟩ (.downstream env (.query t.sql)) = _ :=
    Watched.step_of_running rfl _
  simp [afterStatement, Protocol.messages, hstep, turn, deferredRelease, hserve]

/-- An upstream message keeps the port and the pool mode. -/
theorem serve_upstream_mode (env : Env) (msg : BackendMessage) (s : Session) :
    (serve s (.upstream env msg)).state.port = s.port ∧
      (serve s (.upstream env msg)).state.poolMode = s.poolMode := by
  unfold serve
  split_ifs
  · have hframe := onUpstream_frame env msg s
    exact ⟨hframe.1, hframe.2.1⟩
  · exact ⟨rfl, rfl⟩

/-- A step for an upstream message keeps the port and the pool mode. -/
theorem sendingStep_upstream_mode (env : Env) (w : Watched Session (List FrontendMessage))
    (msg : BackendMessage) :
    (sendingStep w (.upstream env msg)).state.port = w.state.port ∧
      (sendingStep w (.upstream env msg)).state.poolMode = w.state.poolMode := by
  by_cases hrun : w.next = .running
  · have hstep : sendingStep w (.upstream env msg) = _ := Watched.step_of_running hrun _
    have hframe := turn_frame w.state (.upstream env msg)
    have hserve := serve_upstream_mode env msg w.state
    rw [hstep]
    exact ⟨hframe.port.trans hserve.1, hframe.poolMode.trans hserve.2⟩
  · have hstep : sendingStep w (.upstream env msg) = w := Watched.step_of_not_running hrun _
    rw [hstep]
    exact ⟨rfl, rfl⟩

/-- Upstream replies keep the port and the pool mode. -/
theorem afterReplies_mode (w : Watched Session (List FrontendMessage))
    (replies : List (Env × BackendMessage)) :
    (afterReplies w replies).state.port = w.state.port ∧
      (afterReplies w replies).state.poolMode = w.state.poolMode := by
  induction replies generalizing w with
  | nil => exact ⟨rfl, rfl⟩
  | cons reply replies ih =>
    have hstep := sendingStep_upstream_mode reply.1 w reply.2
    have hrest := ih (sendingStep w (.upstream reply.1 reply.2))
    exact ⟨hrest.1.trans hstep.1, hrest.2.trans hstep.2⟩

/-- The record after a relayed `ReadyForQuery` with status `'I'`. -/
theorem sendingStep_ready {env : Env} (henv : env.Healthy)
    {w : Watched Session (List FrontendMessage)} (hrun : w.next = .running)
    (hheld : w.state.upstream ≠ none) (hswallow : w.state.swallowingBeginResponse = false)
    (hport : w.state.port = .compat) :
    (sendingStep w (.upstream env (.readyForQuery statusIdle))).state.compatTxState =
      if w.state.poolMode = .transaction then .idle else w.state.compatTxState := by
  have hstep : sendingStep w (.upstream env (.readyForQuery statusIdle)) = _ :=
    Watched.step_of_running hrun _
  have hserve : serve w.state (.upstream env (.readyForQuery statusIdle)) =
      relayUpstream env (.readyForQuery statusIdle) w.state := by
    simp [serve, onUpstream, hswallow, Option.isSome_iff_ne_none, hheld]
  rw [hstep]
  simp only [turn_compatTxState, hserve]
  have hrelay := relayUpstream_relays env (.readyForQuery statusIdle) w.state
  generalize relayUpstream env (.readyForQuery statusIdle) w.state = t at hrelay ⊢
  cases hrelay with
  | sendFailed hsend => simp [henv.send] at hsend
  | flushFailed _ hflush => simp [henv.flush] at hflush
  | detached _ hmode =>
    simp [releaseUpstream_compatTxState, trackReadyForQuery_compatTxState _ _ hport hmode, hmode]
  | kept hkept =>
    have hmode : w.state.poolMode ≠ .transaction := fun hmode => hkept ⟨rfl, hmode⟩
    simp [trackReadyForQuery, hmode]

/-- The reply to a replayed `BEGIN` is withheld from the client. -/
theorem sendingStep_swallowed {env : Env} (henv : env.Healthy) {s : Session}
    (hheld : s.upstream ≠ none) (hswallow : s.swallowingBeginResponse = true)
    (sent : List FrontendMessage) :
    sendingStep ⟨s, sent, .running⟩ (.upstream env (.readyForQuery statusBlock)) =
      ⟨stopSwallowing s, sent, .running⟩ := by
  have hserve : serve s (.upstream env (.readyForQuery statusBlock)) =
      ⟨stopSwallowing s, [.discard (.readyForQuery statusBlock), .upstreamAck true], .running⟩ := by
    simp [serve, onUpstream, hswallow, Option.isSome_iff_ne_none, hheld, swallowBeginResponse,
      Turn.log_andThen, ackUpstream, Turn.attempt, henv.ack]
  rw [sendingStep_of_serve hserve rfl]
  rfl

/-- In a pinned session the record outlives the `ROLLBACK`. -/
theorem pinned_stays_failed {env : Env} (henv : env.Healthy) {s : Session} (hport : s.port = .compat)
    (htx : s.compatTxState = .inFailedTransaction) (hheld : s.upstream ≠ none)
    (hmode : s.poolMode ≠ .transaction) {t : RollbackText} (hplain : t.plain = true) :
    ¬LeavesFailed env s .simple t.sql := by
  rintro ⟨-, hready⟩
  obtain ⟨sent, hafter, -⟩ := afterStatement_rollback henv hport htx hheld hplain
  obtain ⟨hport', hmode', hheld', htx'⟩ := rolledBack_frame s t.sql
  rw [← hport'] at hport
  rw [← hmode'] at hmode
  rw [← hheld'] at hheld
  rw [← htx'] at htx
  rw [hafter] at hready
  generalize rolledBack s t.sql = r at hport hmode hheld htx hready
  cases hswallow : r.swallowingBeginResponse with
  | false =>
    apply hready [] rfl hheld hswallow env henv
    rw [sendingStep_ready henv rfl hheld hswallow hport]
    exact (if_neg hmode).trans htx
  | true =>
    have hstep := sendingStep_swallowed henv hheld hswallow sent
    have hreplies : afterReplies ⟨r, sent, .running⟩ [(env, .readyForQuery statusBlock)] =
        ⟨stopSwallowing r, sent, .running⟩ := hstep
    have hfinal := hready [(env, .readyForQuery statusBlock)]
    rw [hreplies] at hfinal
    apply hfinal rfl hheld rfl env henv
    rw [sendingStep_ready henv rfl hheld rfl hport]
    exact (if_neg hmode).trans htx

/-- A client leaves a failed transaction with a `ROLLBACK` exactly if it sends it as a simple
query without a semicolon, on an upstream it still holds, in a session that was not pinned. -/
theorem leaves_failed_iff {env : Env} (henv : env.Healthy) {s : Session} (hport : s.port = .compat)
    (htx : s.compatTxState = .inFailedTransaction) (p : Protocol) (t : RollbackText) :
    LeavesFailed env s p t.sql ↔
      p = .simple ∧ t.plain = true ∧ s.upstream ≠ none ∧ s.poolMode = .transaction := by
  constructor
  · intro hleaves
    have hsent := hleaves.1
    cases p with
    | extended name portal =>
      rw [afterStatement_extended henv hport htx] at hsent
      cases hsent
    | simple =>
      have hplain : t.plain = true := by
        by_contra hplain
        rw [afterStatement_rejected henv hport htx (by simpa using hplain)] at hsent
        cases hsent
      have hheld : s.upstream ≠ none := by
        intro hheld
        rw [afterStatement_detached hport htx hheld hplain] at hsent
        cases hsent
      refine ⟨rfl, hplain, hheld, ?_⟩
      by_contra hmode
      exact pinned_stays_failed henv hport htx hheld hmode hplain hleaves
  · rintro ⟨rfl, hplain, hheld, hmode⟩
    obtain ⟨sent, hafter, hsent⟩ := afterStatement_rollback henv hport htx hheld hplain
    have hrolled := rolledBack_frame s t.sql
    rw [LeavesFailed, hafter]
    refine ⟨hsent, ?_⟩
    intro replies w hrun hup hswallow env' henv'
    have hkeeps : w.state.port = _ ∧ w.state.poolMode = _ :=
      afterReplies_mode ⟨rolledBack s t.sql, sent, .running⟩ replies
    have hcompat : w.state.port = .compat := hkeeps.1.trans (hrolled.1.trans hport)
    have hunpinned : w.state.poolMode = .transaction := hkeeps.2.trans (hrolled.2.1.trans hmode)
    rw [sendingStep_ready henv' hrun hup hswallow hcompat, if_pos hunpinned]
    simp

/-- A client leaves the transaction that an upstream error failed with a bare `ROLLBACK`. -/
theorem leaves_failed_bare :
    let env := Env.steady 1 ⟨7, text "node-1", .primary⟩
    let s := (run loopStep (Session.start .compat .transaction 0 1000).loop
      [.downstream env (.query (text "BEGIN; SELECT broken")),
        .upstream env (.readyForQuery statusFailed)]).state
    LeavesFailed env s .simple RollbackText.bare.sql :=
  (leaves_failed_iff (Env.steady_healthy _ _) (by decide) (by decide) .simple .bare).mpr
    ⟨rfl, by decide, by decide, by decide⟩

/-- In the same state a `ROLLBACK;` is not forwarded: the client is told that the transaction is
aborted. -/
theorem semicolon_keeps_failed :
    let env := Env.steady 1 ⟨7, text "node-1", .primary⟩
    let s := (run loopStep (Session.start .compat .transaction 0 1000).loop
      [.downstream env (.query (text "BEGIN; SELECT broken")),
        .upstream env (.readyForQuery statusFailed)]).state
    s.port = .compat ∧ s.compatTxState = .inFailedTransaction ∧
      .query (text "ROLLBACK;") ∉ (afterStatement env s .simple (text "ROLLBACK;")).ledger ∧
      (afterStatement env s .simple (text "ROLLBACK;")).state.compatTxState =
        .inFailedTransaction := by
  decide

end Grunyas.Server
