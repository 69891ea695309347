import Grunyas.Classifier.Classify
import Grunyas.Messaging.Process

/-!
# The state of a client session

The fields of a session that its main loop reads or writes, the environment that one turn of the
loop meets, and what a turn does to the outside: messages for the client and for the leased
upstream, flushes, leases and acknowledgements.

The client-side decoder keeps one `Query` value and decodes every simple query into it. A
session that retains a pointer to that value, as the buffered `BEGIN` does, holds a reference to
the slot and not a copy of its text.
-/

namespace Grunyas.Server

open GoText Grunyas.Classifier

/-- A pointer to the decoder's only `Query` value. -/
inductive QueryRef where
  | slot
  deriving DecidableEq, Repr

/-- Whether a text is a lone `BEGIN` or `START TRANSACTION`, with its options. -/
def isTransactionStart (sql : Text) : Bool :=
  let s := trimSpace (toLower sql)
  s == text "begin" || hasPrefix s (text "begin ") || s == text "start transaction" ||
    hasPrefix s (text "start transaction ")

/-- Whether a text is a top-level `COMMIT`. -/
def isCommit (sql : Text) : Bool :=
  let s := trimSpace (toLower sql)
  s == text "commit" || hasPrefix s (text "commit ")

/-- Whether a text is a top-level `ROLLBACK`. -/
def isRollback (sql : Text) : Bool :=
  let s := trimSpace (toLower sql)
  s == text "rollback" || hasPrefix s (text "rollback ")

/-- The timer that opens when a write-classified transaction commits on the compat port. -/
structure PostWriteWindow where
  openedAt : Time
  durationMs : ℤ
  deriving DecidableEq, Repr

/-- Whether the window is open. -/
def PostWriteWindow.active (w : PostWriteWindow) (now : Time) : Bool :=
  0 < w.durationMs && w.openedAt != 0 && now - w.openedAt < milliseconds w.durationMs

/-- The remaining window duration in milliseconds; the elapsed time is rounded towards zero. -/
def PostWriteWindow.remainingMs (w : PostWriteWindow) (now : Time) : ℤ :=
  if w.active now then w.durationMs - (now - w.openedAt).tdiv 1000000 else 0

/-- The session fields the main loop works on, with the decoder's `Query` slot. -/
structure Session where
  port : Port
  poolMode : PoolMode
  upstream : Option ConnId
  querySlot : Text
  pendingBegin : Option QueryRef
  swallowingBeginResponse : Bool
  compatTxState : TxState
  compatTransactionFirstClass : Kind
  compatLeasedNodeID : Text
  compatLeasedRole : Option Role
  postWriteWindow : PostWriteWindow
  awaitingRollbackResult : Bool
  compatPrepared : Option Prepared
  deriving DecidableEq, Repr

/-- The session when its main loop starts. In session mode an upstream is already held, without
the routing metadata that compat leases record. -/
def Session.start (port : Port) (poolMode : PoolMode) (conn : ConnId) (postWriteWindowMs : ℤ) :
    Session where
  port := port
  poolMode := poolMode
  upstream := if poolMode = .session then some conn else none
  querySlot := []
  pendingBegin := none
  swallowingBeginResponse := false
  compatTxState := .idle
  compatTransactionFirstClass := .empty
  compatLeasedNodeID := []
  compatLeasedRole := none
  postWriteWindow := ⟨0, if port = .compat then postWriteWindowMs else 0⟩
  awaitingRollbackResult := false
  compatPrepared := if port = .compat then some [] else none

/-- What one turn of the main loop meets: the clock, the answers to lease requests, and the
outcome of each call that can fail. No turn flushes the client twice or waits for two
acknowledgements. -/
structure Env where
  now : Time
  lease : Text → Bool → ℤ → Except AcquireError UpstreamLease
  acquire : Except AcquireError ConnId
  send : BackendMessage → Bool
  flush : Bool
  replay : Bool
  process : Bool
  upstreamFlush : Bool
  ack : Bool

/-- An environment in which every call succeeds and every acquisition gets the same lease. -/
def Env.steady (now : Time) (lease : UpstreamLease) : Env where
  now := now
  lease := fun _ _ _ => .ok lease
  acquire := .ok lease.client
  send := fun _ => true
  flush := true
  replay := true
  process := true
  upstreamFlush := true
  ack := true

/-- Every call succeeds; the clock and the leases are arbitrary. -/
structure Env.Healthy (env : Env) : Prop where
  send : ∀ msg, env.send msg = true
  flush : env.flush = true
  replay : env.replay = true
  process : env.process = true
  upstreamFlush : env.upstreamFlush = true
  ack : env.ack = true

/-- A steady environment is healthy. -/
theorem Env.steady_healthy (now : Time) (lease : UpstreamLease) : (Env.steady now lease).Healthy :=
  ⟨fun _ => rfl, rfl, rfl, rfl, rfl, rfl⟩

/-- One thing the main loop does to the outside; a call that can fail carries its success.
`relay` and `discard` say what became of a message read from the upstream. -/
inductive Action where
  | send (msg : BackendMessage) (ok : Bool)
  | relay (msg : BackendMessage) (ok : Bool)
  | discard (msg : BackendMessage)
  | flush (ok : Bool)
  | acquire (conn : ConnId)
  | replay (conn : ConnId) (msg : FrontendMessage) (ok : Bool)
  | forward (conn : ConnId) (msg : FrontendMessage) (ok : Bool)
  | upstreamFlush (ok : Bool)
  | release (conn : ConnId)
  | rejectReadPortWrite (sql : Text)
  | rejectCompatReclassification (sql : Text)
  | downstreamAck (ok : Bool)
  | upstreamAck (ok : Bool)
  deriving DecidableEq, Repr

/-- Clear the per-transaction compat state after a transaction ends. -/
def resetCompatState (s : Session) : Session :=
  { s with
    compatTxState := .idle
    compatTransactionFirstClass := .unknown
    compatLeasedNodeID := []
    compatLeasedRole := none
    awaitingRollbackResult := false }

/-- Keep the upstream for the rest of the session. -/
def switchToSessionMode (s : Session) : Session := { s with poolMode := .session }

/-- Give the upstream back, if one is held. -/
def releaseUpstream (s : Session) : Session × List Action :=
  match s.upstream with
  | none => (s, [])
  | some conn => ({ s with upstream := none }, [.release conn])

/-- Make a routed lease the session's upstream and record its node and role. -/
def setUpstreamLease (s : Session) (lease : UpstreamLease) : Session :=
  { s with
    upstream := some lease.client
    compatLeasedNodeID := lease.nodeID
    compatLeasedRole := some lease.role }

/-- The answer to a lease request for a text, with the state of the post-write window. -/
def requestLease (env : Env) (s : Session) (sql : Text) : Except AcquireError UpstreamLease :=
  env.lease sql (s.postWriteWindow.active env.now) (s.postWriteWindow.remainingMs env.now)

/-- Decode a received message: a simple query overwrites the decoder's slot. -/
def decodeMessage (s : Session) : FrontendMessage → Session
  | .query string => { s with querySlot := string }
  | _ => s

/-- The message a retained pointer denotes now. -/
def Session.deref (s : Session) : QueryRef → FrontendMessage
  | .slot => .query s.querySlot

end Grunyas.Server
