import Grunyas.Session.State

/-!
# Statements on the compat port

A compat session classifies each statement, refuses a write in a transaction that is leased to a
replica, and acquires an upstream for the first statement of a transaction. A transaction known
to have failed answers on its own and lets only a `ROLLBACK` through. A rejection whose flush
fails is reported to the caller exactly as a message to be forwarded.
-/

namespace Grunyas.Server

open GoText Grunyas.Classifier

/-- The two results of a call that prepares the upstream: whether the message is handled
already, and the error of a failed acquisition. -/
inductive Verdict where
  | forward
  | handled
  | failed (err : AcquireError)
  deriving DecidableEq, Repr

/-- What preparing the upstream for a message did. -/
structure Handling where
  sess : Session
  acts : List Action
  verdict : Verdict
  deriving DecidableEq, Repr

/-- Send a message to the client, whose failure is only logged. -/
def sendMessage (env : Env) (msg : BackendMessage) : Action := .send msg (env.send msg)

/-- Send an error and a `ReadyForQuery` to the client, and flush. -/
def sendErrorAndReady (env : Env) (code message : String) (txStatus : UInt8) : List Action :=
  [sendMessage env (.errorResponse "ERROR" code message), sendMessage env (.readyForQuery txStatus),
    .flush env.flush]

/-- The messages of `sendCompatError`. -/
def sendCompatError (env : Env) (code message : String) (txStatus : UInt8) : List Action :=
  sendErrorAndReady env code ("[grunyas] " ++ message) txStatus

/-- The verdict after a rejection: handled if the flush succeeded, and forwarded otherwise. -/
def afterRejection (env : Env) : Verdict := if env.flush then .handled else .forward

/-- A rejection is handled exactly if it was flushed. -/
@[simp] theorem afterRejection_eq_handled (env : Env) :
    afterRejection env = .handled ↔ env.flush = true := by
  unfold afterRejection
  split_ifs with h <;> simp [h]

/-- A rejection is forwarded exactly if its flush failed. -/
@[simp] theorem afterRejection_eq_forward (env : Env) :
    afterRejection env = .forward ↔ env.flush = false := by
  unfold afterRejection
  split_ifs with h <;> simp [h]

/-- A rejection is no failed acquisition. -/
@[simp] theorem afterRejection_ne_failed (env : Env) (err : AcquireError) :
    afterRejection env ≠ .failed err := by
  unfold afterRejection
  split_ifs <;> simp

/-- The answer to a message while the transaction is failed. -/
def handleFailedTransaction (env : Env) (s : Session) : FrontendMessage → Handling
  | .query string =>
    if isRollback string then ⟨{ s with awaitingRollbackResult := true }, [], .forward⟩
    else
      ⟨s, sendCompatError env "25P02"
        "current transaction is aborted, commands ignored until end of transaction block"
        statusFailed, afterRejection env⟩
  | .sync => ⟨s, [sendMessage env (.readyForQuery statusFailed), .flush env.flush], afterRejection env⟩
  | .terminate => ⟨s, [], .forward⟩
  | _ => ⟨s, [], .handled⟩

/-- A message without SQL text only needs some upstream. -/
def handleCompatOther (env : Env) (s : Session) : Handling :=
  match s.upstream with
  | some _ => ⟨s, [], .forward⟩
  | none => match requestLease env s [] with
    | .error err => ⟨s, [], .failed err⟩
    | .ok lease => ⟨setUpstreamLease s lease, [.acquire lease.client], .forward⟩

/-- The classification of a statement in the state of the session, with the updated cache. -/
def classifyCompat (s : Session) (stmt : Statement) : Classifier.Class × Option Prepared :=
  classify stmt ⟨.compat, s.compatTxState, s.compatPrepared⟩

/-- The traffic type of a statement in the state of the session. -/
def compatKind (s : Session) (stmt : Statement) : Kind := (classifyCompat s stmt).1.kind

/-- The session after a statement was classified. -/
def cacheClass (s : Session) (stmt : Statement) : Session :=
  { s with compatPrepared := (classifyCompat s stmt).2 }

/-- Whether the statement is a write in a transaction leased to a replica. -/
def reclassifies (s : Session) (kind : Kind) (sql : Text) : Bool :=
  s.upstream.isSome && s.compatLeasedRole == some .replica && kind == .write && !isCommit sql &&
    !isRollback sql

/-- The transaction state a statement of this class leaves in a transaction under way. -/
def inheritTxState (txState : TxState) (kind : Kind) : TxState :=
  if kind = .write then .inTransactionWrite
  else if txState = .idle then .inTransactionRead else txState

/-- The transaction state of a transaction that starts with a statement of this class. -/
def firstTxState (kind : Kind) : TxState :=
  if kind = .write then .inTransactionWrite else .inTransactionRead

/-- Remember that a `ROLLBACK` is on its way. -/
def trackRollback (s : Session) (sql : Text) : Session :=
  if isRollback sql then { s with awaitingRollbackResult := true } else s

/-- Reject a simple query: an error, `ReadyForQuery` and a flush. -/
def rejectQuery (env : Env) (sql : Text) : List Action :=
  .rejectCompatReclassification sql ::
    sendCompatError env "25006" "write attempted in transaction leased to replica (compat port)"
      statusFailed

/-- Reject a `Parse`: an error and a flush, and no `ReadyForQuery` before the client's `Sync`. -/
def rejectParse (env : Env) (sql : Text) : List Action :=
  [.rejectCompatReclassification sql,
    sendMessage env (.errorResponse "ERROR" "25006"
      "[grunyas] write attempted in transaction leased to replica (compat port)"),
    .flush env.flush]

/-- The session after a statement of this class in a transaction under way. -/
def continueTransaction (s : Session) (kind : Kind) (sql : Text) : Session :=
  trackRollback { s with compatTxState := inheritTxState s.compatTxState kind } sql

/-- The session after a first statement of this class on a new lease. -/
def beginTransaction (s : Session) (lease : UpstreamLease) (kind : Kind) (sql : Text) : Session :=
  trackRollback
    { setUpstreamLease s lease with
      compatTransactionFirstClass := kind
      compatTxState := firstTxState kind } sql

/-- The session after a rejected statement. -/
def failTransaction (s : Session) : Session := { s with compatTxState := .inFailedTransaction }

/-- Prepare the upstream for a classified statement, with the given rejection for a write in a
transaction leased to a replica. -/
def handleClassified (env : Env) (s : Session) (kind : Kind) (sql : Text) (reject : List Action) :
    Handling :=
  if reclassifies s kind sql then
    ⟨failTransaction s, reject, afterRejection env⟩
  else match s.upstream with
    | some _ => ⟨continueTransaction s kind sql, [], .forward⟩
    | none => match requestLease env s sql with
      | .error err => ⟨s, [], .failed err⟩
      | .ok lease => ⟨beginTransaction s lease kind sql, [.acquire lease.client], .forward⟩

/-- Classify a statement and prepare its upstream. -/
def handleStatement (env : Env) (s : Session) (stmt : Statement) (reject : List Action) : Handling :=
  handleClassified env (cacheClass s stmt) (compatKind s stmt) stmt.sql reject

/-- The `handleCompatSQL` method. -/
def handleCompatSQL (env : Env) (s : Session) (msg : FrontendMessage) : Handling :=
  if s.compatTxState = .inFailedTransaction then handleFailedTransaction env s msg
  else match msg with
    | .query string => handleStatement env s ⟨[], string⟩ (rejectQuery env string)
    | .parse name query => handleStatement env s ⟨name, query⟩ (rejectParse env query)
    | _ => handleCompatOther env s

/-- Acquire an upstream without routing metadata, if none is held. -/
def acquireUpstream (env : Env) (s : Session) : Handling :=
  match s.upstream with
  | some _ => ⟨s, [], .forward⟩
  | none => match env.acquire with
    | .error err => ⟨s, [], .failed err⟩
    | .ok conn => ⟨{ s with upstream := some conn }, [.acquire conn], .forward⟩

/-- Prepare the upstream for a message, as the port does it. -/
def prepareUpstream (env : Env) (s : Session) (msg : FrontendMessage) : Handling :=
  if s.port = .compat then handleCompatSQL env s msg else acquireUpstream env s

/-- The compat state after a `ReadyForQuery` in transaction mode. -/
def handleCompatReadyForQuery (now : Time) (s : Session) (txStatus : UInt8) : Session :=
  if txStatus = statusIdle then
    resetCompatState
      (if !s.awaitingRollbackResult && s.compatTransactionFirstClass == .write &&
          s.compatLeasedRole == some .primary then
        { s with postWriteWindow := { s.postWriteWindow with openedAt := now } }
      else s)
  else if txStatus = statusFailed then
    { s with
      compatTxState := .inFailedTransaction
      compatTransactionFirstClass := .unknown }
  else s

end Grunyas.Server
