import Grunyas.Session.Loop

/-!
# What a turn can do

`Prepares` lists everything that preparing the upstream for a client message can do, with the
conditions under which it does it; `Forwards`, `Relays` and `Swallows` do the same for the ends of
a turn that sends a message upstream, relays an upstream message and drops one. Later results take
cases on these lists instead of unfolding the loop.
-/

namespace Grunyas.Server

open GoText Grunyas.Classifier Machine

/-- The statement a message carries. -/
def FrontendMessage.statement : FrontendMessage → Option Statement
  | .query string => some ⟨[], string⟩
  | .parse name sql => some ⟨name, sql⟩
  | _ => none

/-- The rejection of a message that is a write in a transaction leased to a replica. -/
def rejectStatement (env : Env) : FrontendMessage → List Action
  | .query string => rejectQuery env string
  | .parse _ sql => rejectParse env sql
  | _ => []

/-- Everything that preparing the upstream for a message can do. -/
inductive Prepares (env : Env) (s : Session) (msg : FrontendMessage) : Handling → Prop
  | held (conn : ConnId) (port : s.port ≠ .compat) (held : s.upstream = some conn) :
    Prepares env s msg ⟨s, [], .forward⟩
  | acquired (conn : ConnId) (port : s.port ≠ .compat) (none : s.upstream = none)
      (ok : env.acquire = .ok conn) :
    Prepares env s msg ⟨{ s with upstream := some conn }, [.acquire conn], .forward⟩
  | refused (err : AcquireError) (port : s.port ≠ .compat) (none : s.upstream = none)
      (failed : env.acquire = .error err) :
    Prepares env s msg ⟨s, [], .failed err⟩
  | rollback (string : Text) (port : s.port = .compat)
      (tx : s.compatTxState = .inFailedTransaction) (query : msg = .query string)
      (rollback : isRollback string = true) :
    Prepares env s msg ⟨{ s with awaitingRollbackResult := true }, [], .forward⟩
  | abortedQuery (string : Text) (port : s.port = .compat)
      (tx : s.compatTxState = .inFailedTransaction) (query : msg = .query string)
      (rollback : isRollback string = false) :
    Prepares env s msg
      ⟨s, sendCompatError env "25P02"
        "current transaction is aborted, commands ignored until end of transaction block"
        statusFailed, afterRejection env⟩
  | abortedSync (port : s.port = .compat) (tx : s.compatTxState = .inFailedTransaction)
      (sync : msg = .sync) :
    Prepares env s msg
      ⟨s, [sendMessage env (.readyForQuery statusFailed), .flush env.flush], afterRejection env⟩
  | aborted (port : s.port = .compat) (tx : s.compatTxState = .inFailedTransaction)
      (request : msg.isRequest = false) :
    Prepares env s msg ⟨s, [], .handled⟩
  | otherHeld (conn : ConnId) (port : s.port = .compat)
      (tx : s.compatTxState ≠ .inFailedTransaction) (other : msg.statement = none)
      (held : s.upstream = some conn) :
    Prepares env s msg ⟨s, [], .forward⟩
  | otherLeased (lease : UpstreamLease) (port : s.port = .compat)
      (tx : s.compatTxState ≠ .inFailedTransaction) (other : msg.statement = none)
      (none : s.upstream = none) (ok : requestLease env s [] = .ok lease) :
    Prepares env s msg ⟨setUpstreamLease s lease, [.acquire lease.client], .forward⟩
  | otherRefused (err : AcquireError) (port : s.port = .compat)
      (tx : s.compatTxState ≠ .inFailedTransaction) (other : msg.statement = none)
      (none : s.upstream = none) (failed : requestLease env s [] = .error err) :
    Prepares env s msg ⟨s, [], .failed err⟩
  | reclassified (stmt : Statement) (conn : ConnId) (port : s.port = .compat)
      (tx : s.compatTxState ≠ .inFailedTransaction) (statement : msg.statement = some stmt)
      (held : s.upstream = some conn) (replica : s.compatLeasedRole = some .replica)
      (write : compatKind s stmt = .write) (commit : isCommit stmt.sql = false)
      (rollback : isRollback stmt.sql = false) :
    Prepares env s msg
      ⟨failTransaction (cacheClass s stmt), rejectStatement env msg, afterRejection env⟩
  | continued (stmt : Statement) (conn : ConnId) (port : s.port = .compat)
      (tx : s.compatTxState ≠ .inFailedTransaction) (statement : msg.statement = some stmt)
      (held : s.upstream = some conn)
      (allowed : reclassifies s (compatKind s stmt) stmt.sql = false) :
    Prepares env s msg
      ⟨continueTransaction (cacheClass s stmt) (compatKind s stmt) stmt.sql, [], .forward⟩
  | leased (stmt : Statement) (lease : UpstreamLease) (port : s.port = .compat)
      (tx : s.compatTxState ≠ .inFailedTransaction) (statement : msg.statement = some stmt)
      (none : s.upstream = none) (ok : requestLease env s stmt.sql = .ok lease) :
    Prepares env s msg
      ⟨beginTransaction (cacheClass s stmt) lease (compatKind s stmt) stmt.sql,
        [.acquire lease.client], .forward⟩
  | leaseRefused (stmt : Statement) (err : AcquireError) (port : s.port = .compat)
      (tx : s.compatTxState ≠ .inFailedTransaction) (statement : msg.statement = some stmt)
      (none : s.upstream = none) (failed : requestLease env s stmt.sql = .error err) :
    Prepares env s msg ⟨cacheClass s stmt, [], .failed err⟩

/-- A message in a failed transaction. -/
theorem handleFailedTransaction_prepares (env : Env) {s : Session} {msg : FrontendMessage}
    (hport : s.port = .compat) (htx : s.compatTxState = .inFailedTransaction)
    (hmsg : msg ≠ .terminate) : Prepares env s msg (handleFailedTransaction env s msg) := by
  cases msg with
  | query string =>
    by_cases hr : isRollback string = true
    · rw [handleFailedTransaction, if_pos hr]
      exact .rollback string hport htx rfl hr
    · rw [handleFailedTransaction, if_neg hr]
      exact .abortedQuery string hport htx rfl (Bool.eq_false_iff.mpr hr)
  | sync => exact .abortedSync hport htx rfl
  | terminate => exact absurd rfl hmsg
  | _ => exact .aborted hport htx rfl

/-- A statement outside a failed transaction. -/
theorem handleStatement_prepares (env : Env) {s : Session} (msg : FrontendMessage)
    {stmt : Statement} (hport : s.port = .compat) (htx : s.compatTxState ≠ .inFailedTransaction)
    (hstmt : msg.statement = some stmt) :
    Prepares env s msg (handleStatement env s stmt (rejectStatement env msg)) := by
  have hcache : (cacheClass s stmt).upstream = s.upstream := rfl
  have hlease : requestLease env (cacheClass s stmt) stmt.sql = requestLease env s stmt.sql := rfl
  unfold handleStatement handleClassified
  rw [hlease, hcache]
  cases hup : s.upstream with
  | none =>
    have hrec : reclassifies (cacheClass s stmt) (compatKind s stmt) stmt.sql = false := by
      simp [reclassifies, cacheClass, hup]
    simp only [hrec, Bool.false_eq_true, if_false]
    cases hl : requestLease env s stmt.sql with
    | error err => exact .leaseRefused stmt err hport htx hstmt hup hl
    | ok lease => exact .leased stmt lease hport htx hstmt hup hl
  | some conn =>
    by_cases hrec : reclassifies (cacheClass s stmt) (compatKind s stmt) stmt.sql = true
    · have hcond := hrec
      simp only [reclassifies, cacheClass, hup, Bool.and_eq_true, beq_iff_eq, Bool.not_eq_true',
        Option.isSome_some, true_and] at hcond
      obtain ⟨⟨⟨hreplica, hwrite⟩, hcommit⟩, hrollback⟩ := hcond
      rw [if_pos hrec]
      exact .reclassified stmt conn hport htx hstmt hup hreplica hwrite hcommit hrollback
    · rw [if_neg hrec]
      exact .continued stmt conn hport htx hstmt hup (Bool.eq_false_iff.mpr hrec)

/-- A message without SQL text outside a failed transaction. -/
theorem handleCompatOther_prepares (env : Env) {s : Session} (msg : FrontendMessage)
    (hport : s.port = .compat) (htx : s.compatTxState ≠ .inFailedTransaction)
    (hother : msg.statement = none) : Prepares env s msg (handleCompatOther env s) := by
  unfold handleCompatOther
  cases hup : s.upstream with
  | some conn => exact .otherHeld conn hport htx hother hup
  | none =>
    cases hl : requestLease env s [] with
    | error err => exact .otherRefused err hport htx hother hup hl
    | ok lease => exact .otherLeased lease hport htx hother hup hl

/-- A message on the other ports. -/
theorem acquireUpstream_prepares (env : Env) {s : Session} (msg : FrontendMessage)
    (hport : s.port ≠ .compat) : Prepares env s msg (acquireUpstream env s) := by
  unfold acquireUpstream
  cases hup : s.upstream with
  | some conn => exact .held conn hport hup
  | none =>
    cases hacq : env.acquire with
    | error err => exact .refused err hport hup hacq
    | ok conn => exact .acquired conn hport hup hacq

/-- The list is complete. -/
theorem prepareUpstream_prepares (env : Env) (s : Session) {msg : FrontendMessage}
    (hmsg : msg ≠ .terminate) : Prepares env s msg (prepareUpstream env s msg) := by
  unfold prepareUpstream
  by_cases hport : s.port = .compat
  · rw [if_pos hport]
    unfold handleCompatSQL
    by_cases htx : s.compatTxState = .inFailedTransaction
    · rw [if_pos htx]
      exact handleFailedTransaction_prepares env hport htx hmsg
    · rw [if_neg htx]
      cases msg with
      | query string => exact handleStatement_prepares env (.query string) hport htx rfl
      | parse name sql => exact handleStatement_prepares env (.parse name sql) hport htx rfl
      | _ => exact handleCompatOther_prepares env _ hport htx rfl
  · rw [if_neg hport]
    exact acquireUpstream_prepares env msg hport

/-- Two sessions agree outside their upstream and their compat state. -/
structure Frame (s t : Session) : Prop where
  port : t.port = s.port
  poolMode : t.poolMode = s.poolMode
  querySlot : t.querySlot = s.querySlot
  pendingBegin : t.pendingBegin = s.pendingBegin
  swallowing : t.swallowingBeginResponse = s.swallowingBeginResponse

/-- Nothing has changed. -/
theorem Frame.refl (s : Session) : Frame s s := ⟨rfl, rfl, rfl, rfl, rfl⟩

/-- Decoding a message touches the slot only. -/
theorem decodeMessage_eq (s : Session) (msg : FrontendMessage) :
    ∃ slot, decodeMessage s msg = { s with querySlot := slot } := by
  cases msg with
  | query string => exact ⟨string, rfl⟩
  | _ => exact ⟨s.querySlot, rfl⟩

/-- Changes outside the frame compose. -/
theorem Frame.trans {s t u : Session} (hst : Frame s t) (htu : Frame t u) : Frame s u :=
  ⟨htu.port.trans hst.port, htu.poolMode.trans hst.poolMode, htu.querySlot.trans hst.querySlot,
    htu.pendingBegin.trans hst.pendingBegin, htu.swallowing.trans hst.swallowing⟩

/-- Classifying a statement touches the cache only. -/
theorem cacheClass_frame (s : Session) (stmt : Statement) : Frame s (cacheClass s stmt) :=
  ⟨rfl, rfl, rfl, rfl, rfl⟩

/-- A further statement touches the compat state only. -/
theorem continueTransaction_frame (s : Session) (kind : Kind) (sql : Text) :
    Frame s (continueTransaction s kind sql) ∧
      (continueTransaction s kind sql).upstream = s.upstream := by
  unfold continueTransaction trackRollback
  split_ifs <;> exact ⟨⟨rfl, rfl, rfl, rfl, rfl⟩, rfl⟩

/-- A first statement sets the upstream to the leased one. -/
theorem beginTransaction_frame (s : Session) (lease : UpstreamLease) (kind : Kind) (sql : Text) :
    Frame s (beginTransaction s lease kind sql) ∧
      (beginTransaction s lease kind sql).upstream = some lease.client := by
  unfold beginTransaction trackRollback
  split_ifs <;> exact ⟨⟨rfl, rfl, rfl, rfl, rfl⟩, rfl⟩

/-- Releasing the upstream leaves none and touches nothing else. -/
theorem releaseUpstream_eq (s : Session) : (releaseUpstream s).1 = { s with upstream := none } := by
  cases s with
  | mk _ _ upstream => cases upstream <;> rfl

/-- Releasing the upstream touches the upstream only. -/
theorem releaseUpstream_frame (s : Session) : Frame s (releaseUpstream s).1 := by
  rw [releaseUpstream_eq]
  exact ⟨rfl, rfl, rfl, rfl, rfl⟩

/-- Releasing the upstream keeps the record of the transaction. -/
theorem releaseUpstream_compatTxState (s : Session) :
    (releaseUpstream s).1.compatTxState = s.compatTxState := by
  rw [releaseUpstream_eq]

/-- The message was handed to the upstream. -/
def ForwardedUpstream (msg : FrontendMessage) (acts : List Action) : Prop :=
  ∃ conn ok, Action.forward conn msg ok ∈ acts

/-- Preparing the upstream forwards nothing. -/
theorem Prepares.forward_not_mem {env : Env} {s : Session} {msg m : FrontendMessage} {h : Handling}
    {conn : ConnId} {ok : Bool} (hprep : Prepares env s msg h) :
    Action.forward conn m ok ∉ h.acts := by
  cases hprep with
  | abortedQuery => simp [sendCompatError, sendErrorAndReady, sendMessage]
  | abortedSync => simp [sendMessage]
  | reclassified =>
    cases msg <;>
      simp [rejectStatement, rejectQuery, rejectParse, sendCompatError, sendErrorAndReady, sendMessage]
  | _ => simp

/-- An acquisition fails only where there is no upstream and no failed transaction. -/
theorem Prepares.of_failed {env : Env} {s : Session} {msg : FrontendMessage} {h : Handling}
    {err : AcquireError} (hprep : Prepares env s msg h) (hfailed : h.verdict = .failed err) :
    s.upstream = none ∧ h.acts = [] ∧
      (s.port = .compat → h.sess.compatTxState ≠ .inFailedTransaction) := by
  cases hprep with
  | refused _ hother hup => exact ⟨hup, rfl, fun hport => absurd hport hother⟩
  | otherRefused _ _ htx _ hup => exact ⟨hup, rfl, fun _ => htx⟩
  | leaseRefused _ _ _ htx _ hup => exact ⟨hup, rfl, fun _ => htx⟩
  | abortedQuery => exact absurd hfailed (afterRejection_ne_failed env err)
  | abortedSync => exact absurd hfailed (afterRejection_ne_failed env err)
  | reclassified => exact absurd hfailed (afterRejection_ne_failed env err)
  | _ => cases hfailed

/-- Preparing the upstream touches the upstream and the compat state only. -/
theorem Prepares.frame {env : Env} {s : Session} {msg : FrontendMessage} {h : Handling}
    (hprep : Prepares env s msg h) : Frame s h.sess := by
  cases hprep with
  | continued stmt =>
    exact (cacheClass_frame s stmt).trans (continueTransaction_frame (cacheClass s stmt) _ _).1
  | leased stmt lease =>
    exact (cacheClass_frame s stmt).trans (beginTransaction_frame (cacheClass s stmt) lease _ _).1
  | _ => exact ⟨rfl, rfl, rfl, rfl, rfl⟩

/-- The replay of a buffered `BEGIN`, if any. -/
def replayed (conn : ConnId) (s : Session) : List Action :=
  match s.pendingBegin with
  | none => []
  | some ref => [.replay conn (s.deref ref) true]

/-- The session once a buffered `BEGIN` was replayed. -/
def afterReplay (s : Session) : Session :=
  match s.pendingBegin with
  | none => s
  | some _ => { dropBegin s with swallowingBeginResponse := true }

/-- A replay starts the swallowing of the reply. -/
theorem afterReplay_swallowing (s : Session) :
    (afterReplay s).swallowingBeginResponse =
      (s.pendingBegin.isSome || s.swallowingBeginResponse) := by
  unfold afterReplay
  cases s.pendingBegin <;> rfl

/-- The flush of the upstream that follows a message. -/
def flushed (msg : FrontendMessage) : List Action :=
  if flushesUpstream msg then [.upstreamFlush true] else []

/-- Sending a message leaves the swallowing as it is. -/
theorem afterProcess_swallowing (msg : FrontendMessage) (s : Session) :
    (afterProcess msg s).swallowingBeginResponse = s.swallowingBeginResponse := by
  unfold afterProcess switchToSessionMode
  split_ifs <;> rfl

/-- Sending a message keeps the upstream. -/
theorem afterProcess_upstream (msg : FrontendMessage) (s : Session) :
    (afterProcess msg s).upstream = s.upstream := by
  unfold afterProcess switchToSessionMode
  split_ifs <;> rfl

/-- A loop goes on exactly if its last call succeeded. -/
def nextIf (ok : Bool) : Next := if ok then .running else .returned

/-- A loop goes on after its last call exactly if the call succeeded. -/
@[simp] theorem nextIf_eq_running (ok : Bool) : nextIf ok = .running ↔ ok = true := by
  cases ok <;> simp [nextIf]

/-- A call that fails ends the loop without a panic. -/
@[simp] theorem nextIf_ne_panicked (ok : Bool) : nextIf ok ≠ .panicked := by
  cases ok <;> simp [nextIf]

/-- Everything that forwarding a message on a held upstream can do. -/
inductive Forwards (env : Env) (msg : FrontendMessage) (s : Session) (conn : ConnId) :
    SessionTurn → Prop
  | replayFailed (ref : QueryRef) (pending : s.pendingBegin = some ref)
      (replay : env.replay = false) :
    Forwards env msg s conn ⟨s, [.replay conn (s.deref ref) false], .returned⟩
  | processFailed (replay : s.pendingBegin ≠ none → env.replay = true)
      (process : env.process = false) :
    Forwards env msg s conn
      ⟨afterReplay s, replayed conn s ++ [.forward conn msg false], .returned⟩
  | flushFailed (replay : s.pendingBegin ≠ none → env.replay = true) (process : env.process = true)
      (flushes : flushesUpstream msg = true) (flush : env.upstreamFlush = false) :
    Forwards env msg s conn
      ⟨afterProcess msg (afterReplay s),
        replayed conn s ++ [.forward conn msg true, .upstreamFlush false], .returned⟩
  | sent (replay : s.pendingBegin ≠ none → env.replay = true) (process : env.process = true)
      (flush : flushesUpstream msg = true → env.upstreamFlush = true) :
    Forwards env msg s conn
      ⟨afterProcess msg (afterReplay s),
        replayed conn s ++ .forward conn msg true :: (flushed msg ++ [.downstreamAck env.ack]),
        nextIf env.ack⟩

/-- The replay of a buffered `BEGIN` leaves none and may start the swallowing of its reply. -/
theorem afterReplay_eq (s : Session) : ∃ swallowing,
    afterReplay s = { s with pendingBegin := none, swallowingBeginResponse := swallowing } := by
  unfold afterReplay
  cases hp : s.pendingBegin with
  | none =>
    refine ⟨s.swallowingBeginResponse, ?_⟩
    cases s
    cases hp
    rfl
  | some ref => exact ⟨_, rfl⟩

/-- Processing a message after the replay may leave transaction mode besides. -/
theorem afterProcess_eq (msg : FrontendMessage) (s : Session) : ∃ mode swallowing,
    afterProcess msg (afterReplay s) =
        { s with poolMode := mode, pendingBegin := none, swallowingBeginResponse := swallowing } ∧
      (mode = .transaction → s.poolMode = .transaction) := by
  obtain ⟨swallowing, hreplay⟩ := afterReplay_eq s
  rw [hreplay]
  unfold afterProcess switchToSessionMode
  split_ifs
  · exact ⟨.session, swallowing, rfl, fun h => by cases h⟩
  · exact ⟨s.poolMode, swallowing, rfl, id⟩

/-- Forwarding touches the pool mode and the handling of a buffered `BEGIN` only. -/
theorem Forwards.state_eq {env : Env} {msg : FrontendMessage} {s : Session} {conn : ConnId}
    {t : SessionTurn} (hfwd : Forwards env msg s conn t) :
    ∃ mode pending swallowing, t.state =
      { s with poolMode := mode, pendingBegin := pending, swallowingBeginResponse := swallowing } := by
  obtain ⟨swallowing, hreplay⟩ := afterReplay_eq s
  obtain ⟨mode, swallowing', hprocess, -⟩ := afterProcess_eq msg s
  cases hfwd with
  | replayFailed => exact ⟨_, _, _, rfl⟩
  | processFailed => exact ⟨_, _, _, hreplay⟩
  | flushFailed => exact ⟨_, _, _, hprocess⟩
  | sent => exact ⟨_, _, _, hprocess⟩

/-- The actions of forwarding are calls on its connection and the acknowledgement. -/
theorem Forwards.mem_acts {env : Env} {msg : FrontendMessage} {s : Session} {conn : ConnId}
    {t : SessionTurn} (hfwd : Forwards env msg s conn t) {act : Action} (hact : act ∈ t.acts) :
    (∃ m ok, act = .replay conn m ok) ∨ (∃ ok, act = .forward conn msg ok) ∨
      (∃ ok, act = .upstreamFlush ok) ∨ ∃ ok, act = .downstreamAck ok := by
  have hreplayed (hact : act ∈ replayed conn s) : ∃ m ok, act = .replay conn m ok := by
    unfold replayed at hact
    cases hp : s.pendingBegin with
    | none => simp [hp] at hact
    | some ref => exact ⟨s.deref ref, true, by simpa [hp] using hact⟩
  have hflushed (hact : act ∈ flushed msg) : ∃ ok, act = .upstreamFlush ok := by
    unfold flushed at hact
    split_ifs at hact
    · exact ⟨true, List.mem_singleton.mp hact⟩
    · cases hact
  cases hfwd with
  | replayFailed => exact .inl ⟨_, _, List.mem_singleton.mp hact⟩
  | processFailed =>
    obtain hact | hact := List.mem_append.mp hact
    · exact .inl (hreplayed hact)
    · exact .inr (.inl ⟨_, List.mem_singleton.mp hact⟩)
  | flushFailed =>
    obtain hact | hact := List.mem_append.mp hact
    · exact .inl (hreplayed hact)
    · obtain rfl | rfl : act = .forward conn msg true ∨ act = .upstreamFlush false := by
        simpa using hact
      · exact .inr (.inl ⟨_, rfl⟩)
      · exact .inr (.inr (.inl ⟨_, rfl⟩))
  | sent =>
    obtain hact | rfl | hact | rfl : act ∈ replayed conn s ∨ act = .forward conn msg true ∨
        act ∈ flushed msg ∨ act = .downstreamAck env.ack := by
      simpa using hact
    · exact .inl (hreplayed hact)
    · exact .inr (.inl ⟨_, rfl⟩)
    · exact .inr (.inr (.inl (hflushed hact)))
    · exact .inr (.inr (.inr ⟨_, rfl⟩))

/-- Forwarding sends nothing to the client. -/
theorem Forwards.send_not_mem {env : Env} {msg : FrontendMessage} {s : Session} {conn : ConnId}
    {t : SessionTurn} {m : BackendMessage} {ok : Bool} (hfwd : Forwards env msg s conn t) :
    Action.send m ok ∉ t.acts := by
  intro hact
  simpa using hfwd.mem_acts hact

/-- Forwarding on a held upstream does not panic. -/
theorem Forwards.not_panicked {env : Env} {msg : FrontendMessage} {s : Session} {conn : ConnId}
    {t : SessionTurn} (hfwd : Forwards env msg s conn t) : t.next ≠ .panicked := by
  cases hfwd <;> simp

/-- Forwarding hands over the message unless the replay of a buffered `BEGIN` fails first. -/
theorem Forwards.forwarded_iff {env : Env} {msg : FrontendMessage} {s : Session} {conn : ConnId}
    {t : SessionTurn} (hfwd : Forwards env msg s conn t) :
    ForwardedUpstream msg t.acts ↔ ¬(s.pendingBegin ≠ none ∧ env.replay = false) := by
  cases hfwd with
  | replayFailed ref hp hfailed => simp [ForwardedUpstream, hp, hfailed]
  | processFailed hok =>
    refine iff_of_true ⟨conn, false, by simp⟩ ?_
    rintro ⟨hp, hfailed⟩
    simp [hok hp] at hfailed
  | flushFailed hok =>
    refine iff_of_true ⟨conn, true, by simp⟩ ?_
    rintro ⟨hp, hfailed⟩
    simp [hok hp] at hfailed
  | sent hok =>
    refine iff_of_true ⟨conn, true, by simp⟩ ?_
    rintro ⟨hp, hfailed⟩
    simp [hok hp] at hfailed

/-- The replay of a buffered `BEGIN` succeeds or ends the session. -/
theorem replayBegin_cases (env : Env) (conn : ConnId) (s : Session) :
    (replayBegin env conn s = .log (replayed conn s) (afterReplay s) ∧
        (s.pendingBegin ≠ none → env.replay = true)) ∨
      ∃ ref, s.pendingBegin = some ref ∧ env.replay = false ∧
        replayBegin env conn s = ⟨s, [.replay conn (s.deref ref) false], .returned⟩ := by
  unfold replayBegin replayed afterReplay
  cases hp : s.pendingBegin with
  | none => exact .inl ⟨rfl, fun h => absurd rfl h⟩
  | some ref =>
    cases env.replay with
    | true => exact .inl ⟨rfl, fun _ => rfl⟩
    | false => exact .inr ⟨ref, rfl, rfl, rfl⟩

/-- The list is complete. -/
theorem forwardOn_forwards (env : Env) (conn : ConnId) (msg : FrontendMessage) (s : Session) :
    Forwards env msg s conn (forwardOn env conn msg s) := by
  unfold forwardOn
  obtain ⟨hreplay, hok⟩ | ⟨ref, hp, hfailed, hreplay⟩ := replayBegin_cases env conn s
  · rw [hreplay, Turn.log_andThen]
    unfold processMessage flushUpstream ackDownstream
    cases hprocess : env.process with
    | false => exact .processFailed hok hprocess
    | true =>
      by_cases hflushes : flushesUpstream msg = true
      · cases hflush : env.upstreamFlush with
        | false =>
          simp only [if_pos hflushes]
          exact .flushFailed hok hprocess hflushes hflush
        | true =>
          have hsent : Forwards env msg s conn _ := .sent hok hprocess fun _ => hflush
          simp only [flushed, if_pos hflushes] at hsent ⊢
          exact hsent
      · have hsent : Forwards env msg s conn _ := .sent hok hprocess fun h => absurd h hflushes
        simp only [flushed, if_neg hflushes] at hsent ⊢
        exact hsent
  · rw [hreplay]
    exact .replayFailed ref hp hfailed

/-- Where every call succeeds the message is sent. -/
theorem forwardOn_of_healthy {env : Env} (henv : env.Healthy) (conn : ConnId)
    (msg : FrontendMessage) (s : Session) :
    forwardOn env conn msg s =
      ⟨afterProcess msg (afterReplay s),
        replayed conn s ++ .forward conn msg true :: (flushed msg ++ [.downstreamAck env.ack]),
        .running⟩ := by
  have hfwd := forwardOn_forwards env conn msg s
  generalize forwardOn env conn msg s = t at hfwd ⊢
  cases hfwd with
  | replayFailed ref _ hfailed => simp [henv.replay] at hfailed
  | processFailed _ hfailed => simp [henv.process] at hfailed
  | flushFailed _ _ _ hfailed => simp [henv.upstreamFlush] at hfailed
  | sent => simp [nextIf, henv.ack]

/-- The flush of the client that follows an upstream message. -/
def flushedDownstream (msg : BackendMessage) : List Action :=
  if flushesDownstream msg then [.flush true] else []

/-- Everything that relaying an upstream message can do. -/
inductive Relays (env : Env) (msg : BackendMessage) (s : Session) : SessionTurn → Prop
  | sendFailed (send : env.send msg = false) : Relays env msg s ⟨s, [.relay msg false], .returned⟩
  | flushFailed (flushes : flushesDownstream msg = true) (flush : env.flush = false) :
    Relays env msg s ⟨s, [.relay msg true, .flush false], .returned⟩
  | detached (ready : msg = .readyForQuery statusIdle) (mode : s.poolMode = .transaction) :
    Relays env msg s
      ⟨(releaseUpstream (trackReadyForQuery env.now msg s)).1,
        .relay msg true :: .flush true :: (releaseUpstream (trackReadyForQuery env.now msg s)).2,
        .running⟩
  | kept (held : ¬(msg = .readyForQuery statusIdle ∧ s.poolMode = .transaction))
      (send : env.send msg = true) (flush : flushesDownstream msg = true → env.flush = true) :
    Relays env msg s
      ⟨trackReadyForQuery env.now msg s,
        .relay msg true :: (flushedDownstream msg ++ [.upstreamAck env.ack]), nextIf env.ack⟩

/-- Tracking the transaction status touches the compat state only. -/
theorem trackReadyForQuery_frame (now : Time) (msg : BackendMessage) (s : Session) :
    Frame s (trackReadyForQuery now msg s) ∧ (trackReadyForQuery now msg s).upstream = s.upstream := by
  cases msg with
  | readyForQuery txStatus =>
    simp only [trackReadyForQuery, handleCompatReadyForQuery, resetCompatState]
    split_ifs <;> exact ⟨⟨rfl, rfl, rfl, rfl, rfl⟩, rfl⟩
  | _ => exact ⟨.refl s, rfl⟩

/-- The session's record after a status in transaction mode. -/
theorem trackReadyForQuery_compatTxState (now : Time) (txStatus : UInt8) {s : Session}
    (hport : s.port = .compat) (hmode : s.poolMode = .transaction) :
    (trackReadyForQuery now (.readyForQuery txStatus) s).compatTxState =
      if txStatus = statusIdle then .idle
      else if txStatus = statusFailed then .inFailedTransaction else s.compatTxState := by
  simp only [trackReadyForQuery, hport, hmode, and_self, if_true, handleCompatReadyForQuery]
  split_ifs <;> rfl

/-- The list is complete. -/
theorem relayUpstream_relays (env : Env) (msg : BackendMessage) (s : Session) :
    Relays env msg s (relayUpstream env msg s) := by
  have hmode := (trackReadyForQuery_frame env.now msg s).1.poolMode
  unfold relayUpstream detach ackUpstream
  cases hsend : env.send msg with
  | false => exact .sendFailed hsend
  | true =>
    by_cases hd : msg = .readyForQuery statusIdle ∧ s.poolMode = .transaction
    · obtain ⟨rfl, hs⟩ := hd
      have hdet : shouldDetach (trackReadyForQuery env.now (.readyForQuery statusIdle) s)
          (.readyForQuery statusIdle) = true := by
        simp [shouldDetach, hmode, hs]
      cases hflush : env.flush with
      | false => exact .flushFailed rfl hflush
      | true =>
        have h : Relays env (.readyForQuery statusIdle) s _ := .detached rfl hs
        simpa [Turn.andThen, Turn.attempt, Turn.log, hdet] using h
    · have hdet : shouldDetach (trackReadyForQuery env.now msg s) msg = false := by
        simp only [shouldDetach, hmode, Bool.and_eq_false_iff, beq_eq_false_iff_ne]
        tauto
      by_cases hf : flushesDownstream msg = true
      · cases hflush : env.flush with
        | false =>
          simp only [if_pos hf]
          exact .flushFailed hf hflush
        | true =>
          have h : Relays env msg s _ := .kept hd hsend fun _ => hflush
          simpa [Turn.andThen, Turn.attempt, Turn.log, hf, hdet, nextIf, flushedDownstream] using h
      · have h : Relays env msg s _ := .kept hd hsend fun hf' => absurd hf' hf
        simpa [Turn.andThen, Turn.attempt, Turn.log, hf, hdet, nextIf, flushedDownstream] using h

/-- The error that reports a failed `BEGIN` to the client. -/
def beginFailedError (env : Env) : List Action :=
  sendErrorAndReady env "25P02" "[grunyas] upstream BEGIN failed; transaction aborted" statusIdle

/-- Everything that dropping a message of the answer to a replayed `BEGIN` can do. -/
inductive Swallows (env : Env) (msg : BackendMessage) (s : Session) : SessionTurn → Prop
  | dropped (other : msg.isReady = false) :
    Swallows env msg s ⟨s, [.discard msg, .upstreamAck env.ack], nextIf env.ack⟩
  | begun (ready : msg = .readyForQuery statusBlock) :
    Swallows env msg s
      ⟨stopSwallowing s, [.discard msg, .upstreamAck env.ack],
        nextIf env.ack⟩
  | flushFailed (txStatus : UInt8) (ready : msg = .readyForQuery txStatus)
      (failed : txStatus ≠ statusBlock) (flush : env.flush = false) :
    Swallows env msg s
      ⟨stopSwallowing s, .discard msg :: beginFailedError env, .returned⟩
  | reported (txStatus : UInt8) (ready : msg = .readyForQuery txStatus)
      (failed : txStatus ≠ statusBlock) (flush : env.flush = true) :
    Swallows env msg s
      ⟨stopSwallowing s,
        .discard msg :: (beginFailedError env ++ [.upstreamAck env.ack]), nextIf env.ack⟩

/-- The list is complete. -/
theorem swallowBeginResponse_swallows (env : Env) (msg : BackendMessage) (s : Session) :
    Swallows env msg s (swallowBeginResponse env msg s) := by
  unfold swallowBeginResponse
  cases msg with
  | readyForQuery txStatus =>
    by_cases ht : txStatus = statusBlock
    · subst ht
      exact .begun rfl
    · cases hf : env.flush with
      | false =>
        have h : Swallows env (.readyForQuery txStatus) s _ := .flushFailed txStatus rfl ht hf
        simpa [Turn.log, ht, answerWithError, hf, Turn.andThen, beginFailedError] using h
      | true =>
        have h : Swallows env (.readyForQuery txStatus) s _ := .reported txStatus rfl ht hf
        simpa [Turn.log, ht, answerWithError, hf, Turn.andThen, beginFailedError, ackUpstream,
          Turn.attempt, nextIf] using h
  | _ => exact .dropped rfl

/-- The error that refuses a message on the read port. -/
def readPortError (env : Env) : List Action :=
  sendErrorAndReady env "25006" "[grunyas] write attempted on read port" statusIdle

/-- The error that takes back the transaction a buffered `BEGIN` promised. -/
def beginRevokedError (env : Env) (err : AcquireError) : List Action :=
  sendErrorAndReady env (codeFromErr err "53300") ("[grunyas] " ++ err.message) statusIdle

/-- The error that closes a session without an upstream. -/
def fatalError (env : Env) (err : AcquireError) : List Action :=
  [sendMessage env (.errorResponse "FATAL" (codeFromErr err "53300") err.message), .flush env.flush]

/-- The answer to a buffered `BEGIN` stops at a call that fails. -/
inductive BeginCut (env : Env) : List Action → Prop
  | complete (failed : env.send beginComplete = false) : BeginCut env [.send beginComplete false]
  | ready (failed : env.send beginReady = false) :
    BeginCut env [.send beginComplete true, .send beginReady false]
  | flush (failed : env.flush = false) :
    BeginCut env [.send beginComplete true, .send beginReady true, .flush false]

/-- Everything that serving a decoded client message can do. -/
inductive Serves (env : Env) (msg : FrontendMessage) (s : Session) : SessionTurn → Prop
  | terminated (terminate : msg = .terminate) : Serves env msg s ⟨s, [], .returned⟩
  | refusedUnflushed (refuses : readPortRefuses s msg = true) (flush : env.flush = false)
      (other : msg ≠ .terminate) :
    Serves env msg s ⟨s, readPortError env, .returned⟩
  | refused (refuses : readPortRefuses s msg = true) (flush : env.flush = true)
      (other : msg ≠ .terminate) :
    Serves env msg s
      ⟨s, readPortError env ++ [.rejectReadPortWrite msg.sql, .downstreamAck env.ack],
        nextIf env.ack⟩
  | bufferFailed (acts : List Action) (buffers : buffersBegin s msg = true) (cut : BeginCut env acts) :
    Serves env msg s ⟨retainBegin s, acts, .returned⟩
  | buffered (buffers : buffersBegin s msg = true) (complete : env.send beginComplete = true)
      (ready : env.send beginReady = true) (flush : env.flush = true) :
    Serves env msg s
      ⟨retainBegin s,
        [.send beginComplete true, .send beginReady true, .flush true, .downstreamAck env.ack],
        nextIf env.ack⟩
  | revokedUnflushed (h : Handling) (err : AcquireError) (ref : QueryRef)
      (prepares : Prepares env s msg h) (failed : h.verdict = .failed err)
      (pending : h.sess.pendingBegin = some ref) (flush : env.flush = false)
      (plain : buffersBegin s msg = false) :
    Serves env msg s ⟨dropBegin h.sess, h.acts ++ beginRevokedError env err, .returned⟩
  | revoked (h : Handling) (err : AcquireError) (ref : QueryRef) (prepares : Prepares env s msg h)
      (failed : h.verdict = .failed err) (pending : h.sess.pendingBegin = some ref)
      (flush : env.flush = true) (plain : buffersBegin s msg = false) :
    Serves env msg s
      ⟨dropBegin h.sess, h.acts ++ (beginRevokedError env err ++ [.downstreamAck env.ack]),
        nextIf env.ack⟩
  | closed (h : Handling) (err : AcquireError) (prepares : Prepares env s msg h)
      (failed : h.verdict = .failed err) (pending : h.sess.pendingBegin = none)
      (plain : buffersBegin s msg = false) :
    Serves env msg s ⟨h.sess, h.acts ++ fatalError env err, .returned⟩
  | handled (h : Handling) (prepares : Prepares env s msg h) (handled : h.verdict = .handled)
      (plain : buffersBegin s msg = false) :
    Serves env msg s ⟨h.sess, h.acts ++ [.downstreamAck env.ack], nextIf env.ack⟩
  | panicked (h : Handling) (prepares : Prepares env s msg h) (forward : h.verdict = .forward)
      (none : h.sess.upstream = none) (plain : buffersBegin s msg = false) :
    Serves env msg s ⟨h.sess, h.acts, .panicked⟩
  | forwarded (h : Handling) (conn : ConnId) (t : SessionTurn) (prepares : Prepares env s msg h)
      (forward : h.verdict = .forward) (held : h.sess.upstream = some conn)
      (forwards : Forwards env msg h.sess conn t) (plain : buffersBegin s msg = false) :
    Serves env msg s ⟨t.state, h.acts ++ t.acts, t.next⟩

/-- Serving a message whose upstream is prepared. -/
theorem dispatch_serves (env : Env) (msg : FrontendMessage) (s : Session) {h : Handling}
    (hprep : Prepares env s msg h) (hplain : buffersBegin s msg = false) :
    Serves env msg s (dispatch env msg h) := by
  unfold dispatch
  rw [Turn.log_andThen]
  cases hv : h.verdict with
  | failed err =>
    unfold acquireFailed
    cases hp : h.sess.pendingBegin with
    | none => exact .closed h err hprep hv hp hplain
    | some ref =>
      cases hf : env.flush with
      | false =>
        have hs : Serves env msg s _ := .revokedUnflushed h err ref hprep hv hp hf hplain
        simpa [answerWithError, hf, Turn.andThen, beginRevokedError] using hs
      | true =>
        have hs : Serves env msg s _ := .revoked h err ref hprep hv hp hf hplain
        simpa [answerWithError, hf, Turn.andThen, beginRevokedError, ackDownstream, Turn.attempt,
          nextIf] using hs
  | handled => exact .handled h hprep hv hplain
  | forward =>
    cases hup : h.sess.upstream with
    | none =>
      have hs : Serves env msg s _ := .panicked h hprep hv hup hplain
      simpa [forwardMessage, hup] using hs
    | some conn =>
      have hs : Serves env msg s _ :=
        .forwarded h conn _ hprep hv hup (forwardOn_forwards env conn msg h.sess) hplain
      simpa [forwardMessage, hup] using hs

/-- Buffering a `BEGIN`. -/
theorem bufferBegin_serves (env : Env) {msg : FrontendMessage} {s : Session}
    (hbuf : buffersBegin s msg = true) : Serves env msg s (bufferBegin env s) := by
  unfold bufferBegin
  cases hcomplete : env.send beginComplete with
  | false => exact .bufferFailed _ hbuf (.complete hcomplete)
  | true =>
    cases hready : env.send beginReady with
    | false => exact .bufferFailed _ hbuf (.ready hready)
    | true =>
      cases hflush : env.flush with
      | false => exact .bufferFailed _ hbuf (.flush hflush)
      | true => exact .buffered hbuf hcomplete hready hflush

/-- Refusing a message on the read port. -/
theorem rejectOnReadPort_serves (env : Env) {msg : FrontendMessage} {s : Session}
    (href : readPortRefuses s msg = true) (hterm : msg ≠ .terminate) :
    Serves env msg s (rejectOnReadPort env msg.sql s) := by
  unfold rejectOnReadPort answerWithError
  cases hf : env.flush with
  | false => exact .refusedUnflushed href hf hterm
  | true =>
    have hs : Serves env msg s _ := .refused href hf hterm
    simpa [Turn.andThen, Turn.log, ackDownstream, Turn.attempt, readPortError, nextIf] using hs

/-- The list is complete. -/
theorem serveMessage_serves (env : Env) (msg : FrontendMessage) (s : Session) :
    Serves env msg s (serveMessage env msg s) := by
  unfold serveMessage
  by_cases hterm : msg = .terminate
  · rw [if_pos hterm]
    exact .terminated hterm
  · rw [if_neg hterm]
    by_cases href : readPortRefuses s msg = true
    · rw [if_pos href]
      exact rejectOnReadPort_serves env href hterm
    · rw [if_neg href]
      by_cases hbuf : buffersBegin s msg = true
      · rw [if_pos hbuf]
        exact bufferBegin_serves env hbuf
      · rw [if_neg hbuf]
        exact dispatch_serves env msg s (prepareUpstream_prepares env s hterm)
          (Bool.eq_false_iff.mpr hbuf)

/-- The decoder's slot plays no part in buffering a `BEGIN`. -/
theorem buffersBegin_decodeMessage (s : Session) (msg : FrontendMessage) :
    buffersBegin (decodeMessage s msg) msg = buffersBegin s msg := by
  cases msg <;> rfl

/-- Serving the event of a client message. -/
theorem serve_serves (s : Session) (env : Env) (msg : FrontendMessage) :
    Serves env msg (decodeMessage s msg) (serve s (.downstream env msg)) :=
  serveMessage_serves env msg (decodeMessage s msg)

/-- Serving the event of an upstream message: there is no upstream, or the message is swallowed, or
it is relayed. -/
theorem serve_upstream_cases (s : Session) (env : Env) (msg : BackendMessage) :
    (s.upstream = none ∧ serve s (.upstream env msg) = .log [] s) ∨
      (s.upstream ≠ none ∧ s.swallowingBeginResponse = true ∧
        Swallows env msg s (serve s (.upstream env msg))) ∨
      (s.upstream ≠ none ∧ s.swallowingBeginResponse = false ∧
        Relays env msg s (serve s (.upstream env msg))) := by
  by_cases hheld : s.upstream = none
  · exact .inl ⟨hheld, by simp [serve, hheld]⟩
  · have hserve : serve s (.upstream env msg) = onUpstream env msg s := by
      simp [serve, Option.isSome_iff_ne_none, hheld]
    right
    rw [hserve, onUpstream]
    cases hswallow : s.swallowingBeginResponse with
    | true => exact .inl ⟨hheld, rfl, swallowBeginResponse_swallows env msg s⟩
    | false => exact .inr ⟨hheld, rfl, relayUpstream_relays env msg s⟩

/-- Serving an upstream message does not panic. -/
theorem serve_upstream_not_panicked (s : Session) (env : Env) (msg : BackendMessage) :
    (serve s (.upstream env msg)).next ≠ .panicked := by
  obtain ⟨-, hserve⟩ | ⟨-, -, hdrop⟩ | ⟨-, -, hrelay⟩ := serve_upstream_cases s env msg
  · simp [hserve, Turn.log]
  · generalize serve s (.upstream env msg) = t at hdrop ⊢
    cases hdrop <;> simp
  · generalize serve s (.upstream env msg) = t at hrelay ⊢
    cases hrelay <;> simp

/-- Forwarding stays on the port, and does not buffer a `BEGIN`. -/
theorem Forwards.port {env : Env} {msg : FrontendMessage} {s : Session} {conn : ConnId}
    {t : SessionTurn} (hfwd : Forwards env msg s conn t) :
    t.state.port = s.port ∧ (s.pendingBegin = none → t.state.pendingBegin = none) := by
  obtain ⟨swallowing, hreplay⟩ := afterReplay_eq s
  obtain ⟨mode, swallowing', hprocess, -⟩ := afterProcess_eq msg s
  cases hfwd with
  | replayFailed ref hp => exact ⟨rfl, id⟩
  | processFailed => simp [hreplay]
  | flushFailed => simp [hprocess]
  | sent => simp [hprocess]

/-- Serving a client message stays on the port; only the compat port buffers a `BEGIN`. -/
theorem Serves.port {env : Env} {msg : FrontendMessage} {s : Session} {t : SessionTurn}
    (hserve : Serves env msg s t) :
    t.state.port = s.port ∧
      (s.port ≠ .compat → s.pendingBegin = none → t.state.pendingBegin = none) := by
  have hcompat : buffersBegin s msg = true → s.port = .compat := by
    intro hbuf
    cases msg with
    | query string =>
      simp only [buffersBegin, Bool.and_eq_true, beq_iff_eq] at hbuf
      exact hbuf.1.1
    | _ => cases hbuf
  cases hserve with
  | bufferFailed acts hbuf => exact ⟨rfl, fun h => absurd (hcompat hbuf) h⟩
  | buffered hbuf => exact ⟨rfl, fun h => absurd (hcompat hbuf) h⟩
  | revokedUnflushed h err ref hprep => exact ⟨hprep.frame.port, fun _ _ => rfl⟩
  | revoked h err ref hprep => exact ⟨hprep.frame.port, fun _ _ => rfl⟩
  | closed h err hprep =>
    exact ⟨hprep.frame.port, fun _ hp => hprep.frame.pendingBegin.trans hp⟩
  | handled h hprep => exact ⟨hprep.frame.port, fun _ hp => hprep.frame.pendingBegin.trans hp⟩
  | panicked h hprep => exact ⟨hprep.frame.port, fun _ hp => hprep.frame.pendingBegin.trans hp⟩
  | forwarded h conn u hprep _ _ hfwd =>
    exact ⟨hfwd.port.1.trans hprep.frame.port,
      fun _ hp => hfwd.port.2 (hprep.frame.pendingBegin.trans hp)⟩
  | _ => exact ⟨rfl, fun _ hp => hp⟩

/-- Forwarding never returns to transaction mode. -/
theorem Forwards.poolMode {env : Env} {msg : FrontendMessage} {s : Session} {conn : ConnId}
    {t : SessionTurn} (hfwd : Forwards env msg s conn t) (h : t.state.poolMode = .transaction) :
    s.poolMode = .transaction := by
  obtain ⟨swallowing, hreplay⟩ := afterReplay_eq s
  obtain ⟨mode, swallowing', hprocess, hmode⟩ := afterProcess_eq msg s
  cases hfwd with
  | replayFailed => exact h
  | processFailed => rwa [hreplay] at h
  | flushFailed =>
    rw [hprocess] at h
    exact hmode h
  | sent =>
    rw [hprocess] at h
    exact hmode h

/-- Serving a client message never returns to transaction mode. -/
theorem Serves.poolMode {env : Env} {msg : FrontendMessage} {s : Session} {t : SessionTurn}
    (hserve : Serves env msg s t) (h : t.state.poolMode = .transaction) :
    s.poolMode = .transaction := by
  cases hserve with
  | revokedUnflushed h' err ref hprep => exact hprep.frame.poolMode.symm.trans h
  | revoked h' err ref hprep => exact hprep.frame.poolMode.symm.trans h
  | closed h' err hprep => exact hprep.frame.poolMode.symm.trans h
  | handled h' hprep => exact hprep.frame.poolMode.symm.trans h
  | panicked h' hprep => exact hprep.frame.poolMode.symm.trans h
  | forwarded h' conn u hprep _ _ hfwd => exact hprep.frame.poolMode.symm.trans (hfwd.poolMode h)
  | _ => exact h

/-- Serving an upstream message keeps the port, the pool mode, the slot and the buffered `BEGIN`. -/
theorem onUpstream_frame (env : Env) (msg : BackendMessage) (s : Session) :
    (onUpstream env msg s).state.port = s.port ∧
      (onUpstream env msg s).state.poolMode = s.poolMode ∧
      (onUpstream env msg s).state.querySlot = s.querySlot ∧
      (onUpstream env msg s).state.pendingBegin = s.pendingBegin := by
  unfold onUpstream
  split_ifs
  · have h := swallowBeginResponse_swallows env msg s
    generalize swallowBeginResponse env msg s = t at h ⊢
    cases h <;> exact ⟨rfl, rfl, rfl, rfl⟩
  · have h := relayUpstream_relays env msg s
    have htrack := (trackReadyForQuery_frame env.now msg s).1
    generalize relayUpstream env msg s = t at h ⊢
    cases h with
    | detached =>
      have hframe := htrack.trans (releaseUpstream_frame _)
      exact ⟨hframe.port, hframe.poolMode, hframe.querySlot, hframe.pendingBegin⟩
    | kept => exact ⟨htrack.port, htrack.poolMode, htrack.querySlot, htrack.pendingBegin⟩
    | _ => exact ⟨rfl, rfl, rfl, rfl⟩

/-- The deferred release stays within the frame. -/
theorem turn_frame (s : Session) (ev : Event) : Frame (serve s ev).state (turn s ev).state := by
  unfold turn deferredRelease
  cases (serve s ev).next with
  | returned => exact releaseUpstream_frame _
  | _ => exact .refl _

/-- A turn stays on the port; only the compat port buffers a `BEGIN`. -/
theorem turn_port (s : Session) (ev : Event) :
    (turn s ev).state.port = s.port ∧
      (s.port ≠ .compat → s.pendingBegin = none → (turn s ev).state.pendingBegin = none) := by
  have hserve : (serve s ev).state.port = s.port ∧
      (s.port ≠ .compat → s.pendingBegin = none → (serve s ev).state.pendingBegin = none) := by
    cases ev with
    | upstream env msg =>
      simp only [serve]
      split_ifs
      · have h := onUpstream_frame env msg s
        exact ⟨h.1, fun _ hp => h.2.2.2.trans hp⟩
      · exact ⟨rfl, fun _ hp => hp⟩
    | downstream env msg =>
      obtain ⟨slot, hdecode⟩ := decodeMessage_eq s msg
      have h := (serveMessage_serves env msg (decodeMessage s msg)).port
      rw [hdecode] at h
      simpa [serve, onDownstream, hdecode] using h
    | release =>
      have h := releaseUpstream_frame s
      exact ⟨h.port, fun _ hp => h.pendingBegin.trans hp⟩
    | _ => exact ⟨rfl, fun _ hp => hp⟩
  have hframe := turn_frame s ev
  exact ⟨hframe.port.trans hserve.1,
    fun hport hp => hframe.pendingBegin.trans (hserve.2 hport hp)⟩

/-- A session in session mode stays in it. -/
theorem turn_poolMode {s : Session} {ev : Event} (h : (turn s ev).state.poolMode = .transaction) :
    s.poolMode = .transaction := by
  rw [(turn_frame s ev).poolMode] at h
  cases ev with
  | upstream env msg =>
    rw [serve] at h
    split_ifs at h
    · rwa [(onUpstream_frame env msg s).2.1] at h
    · exact h
  | downstream env msg =>
    obtain ⟨slot, hdecode⟩ := decodeMessage_eq s msg
    have hserve := (serve_serves s env msg).poolMode h
    rwa [hdecode] at hserve
  | release => exact (releaseUpstream_frame s).poolMode ▸ h
  | _ => exact h

/-- If a `BEGIN` is buffered on the compat port only, so it is after a turn. -/
theorem turn_buffered {s : Session} (ev : Event) (h : s.pendingBegin ≠ none → s.port = .compat)
    (hne : (turn s ev).state.pendingBegin ≠ none) : (turn s ev).state.port = .compat := by
  obtain ⟨hport, hbuffers⟩ := turn_port s ev
  rw [hport]
  by_contra hother
  have hnone : s.pendingBegin = none := by
    by_contra hpending
    exact hother (h hpending)
  exact hne (hbuffers hother hnone)

/-- A session stays on its port, whatever watches it. -/
theorem watched_port {Ledger : Type*} {note : Ledger → Session → Event → Ledger}
    {record : Ledger → Action → Ledger} (w : Watched Session Ledger) (ev : Event) :
    (Watched.step turn note record w ev).state.port = w.state.port := by
  by_cases h : w.next = .running
  · rw [Watched.step_of_running h]
    exact (turn_port w.state ev).1
  · rw [Watched.step_of_not_running h]

/-- A turn that goes on is not changed by the deferred release. -/
theorem turn_of_running {s : Session} {ev : Event} (h : (turn s ev).next = .running) :
    turn s ev = serve s ev := by
  unfold turn deferredRelease at h ⊢
  cases hn : (serve s ev).next with
  | returned =>
    rw [hn] at h
    cases h
  | _ => rfl

/-- A served event after which the loop goes on is the whole turn. -/
theorem turn_eq_serve {s : Session} {ev : Event} (h : (serve s ev).next = .running) :
    turn s ev = serve s ev := by
  unfold turn deferredRelease
  rw [h]

/-- The deferred release comes after everything else a turn does. -/
theorem turn_acts (s : Session) (ev : Event) :
    (turn s ev).acts = (serve s ev).acts ∨
      ∃ conn, (turn s ev).acts = (serve s ev).acts ++ [.release conn] := by
  unfold turn deferredRelease releaseUpstream
  cases (serve s ev).next with
  | returned =>
    cases (serve s ev).state.upstream with
    | none => exact .inl (List.append_nil _)
    | some conn => exact .inr ⟨conn, rfl⟩
  | _ => exact .inl rfl

/-- The deferred release touches the upstream only. -/
theorem turn_compatTxState (s : Session) (ev : Event) :
    (turn s ev).state.compatTxState = (serve s ev).state.compatTxState := by
  unfold turn deferredRelease
  cases (serve s ev).next with
  | returned => exact releaseUpstream_compatTxState _
  | _ => rfl

/-- What a turn does other than releasing is what serving its event does. -/
theorem mem_turn_acts {s : Session} {ev : Event} {act : Action}
    (hact : ∀ conn, act ≠ .release conn) :
    act ∈ (turn s ev).acts ↔ act ∈ (serve s ev).acts := by
  obtain h | ⟨conn, h⟩ := turn_acts s ev
  · rw [h]
  · simp [h, hact]

/-- Handing over a message is part of serving the event. -/
theorem forwardedUpstream_turn (s : Session) (ev : Event) (msg : FrontendMessage) :
    ForwardedUpstream msg (turn s ev).acts ↔ ForwardedUpstream msg (serve s ev).acts :=
  exists_congr fun _ => exists_congr fun _ => mem_turn_acts (by simp)

end Grunyas.Server
