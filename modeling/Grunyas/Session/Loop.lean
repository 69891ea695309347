import Grunyas.Machine.Turn
import Grunyas.Session.Compat

/-!
# The main loop of a session

One turn of the loop serves one of its channels: a message from the upstream, a message from the
client, an error, a request to release the upstream, or the end of the session. Leaving the loop
releases the upstream.
-/

namespace Grunyas.Server

open GoText Grunyas.Classifier Machine

/-- A turn of the session's main loop. -/
abbrev SessionTurn := Machine.Turn Session Action

/-- Wait until the client's read loop has taken the acknowledgement. -/
def ackDownstream (env : Env) : Session → SessionTurn := .attempt (.downstreamAck env.ack) env.ack

/-- Wait until the upstream's read loop has taken the acknowledgement. -/
def ackUpstream (env : Env) : Session → SessionTurn := .attempt (.upstreamAck env.ack) env.ack

/-- Send an error and a `ReadyForQuery` to the client; only a failed flush leaves the loop. -/
def answerWithError (env : Env) (code message : String) (txStatus : UInt8) (s : Session) :
    SessionTurn :=
  ⟨s, sendErrorAndReady env code message txStatus, if env.flush then .running else .returned⟩

/-- The upstream's answer to a replayed `BEGIN` is complete. -/
def stopSwallowing (s : Session) : Session := { s with swallowingBeginResponse := false }

/-- Drop a message of the upstream's answer to a replayed `BEGIN`, up to its `ReadyForQuery`. -/
def swallowBeginResponse (env : Env) (msg : BackendMessage) (s : Session) : SessionTurn :=
  (Turn.log [.discard msg] s).andThen fun s => match msg with
    | .readyForQuery txStatus =>
      if txStatus = statusBlock then ackUpstream env (stopSwallowing s)
      else
        (answerWithError env "25P02" "[grunyas] upstream BEGIN failed; transaction aborted"
          statusIdle (stopSwallowing s)).andThen (ackUpstream env)
    | _ => ackUpstream env s

/-- The upstream messages after which the client connection is flushed. -/
def flushesDownstream : BackendMessage → Bool
  | .readyForQuery _ => true
  | .errorResponse _ _ _ => true
  | .commandComplete _ => true
  | .portalSuspended => true
  | .noData => true
  | .rowDescription => true
  | .closeComplete => true
  | .parseComplete => true
  | .bindComplete => true
  | _ => false

/-- The client is flushed at every `ReadyForQuery`. -/
@[simp] theorem flushesDownstream_readyForQuery (txStatus : UInt8) :
    flushesDownstream (.readyForQuery txStatus) = true := rfl

/-- Track the transaction status on the compat port, in transaction mode only. -/
def trackReadyForQuery (now : Time) (msg : BackendMessage) (s : Session) : Session :=
  match msg with
  | .readyForQuery txStatus =>
    if s.port = .compat ∧ s.poolMode = .transaction then handleCompatReadyForQuery now s txStatus
    else s
  | _ => s

/-- Whether the message ends the use of the upstream. -/
def shouldDetach (s : Session) (msg : BackendMessage) : Bool :=
  s.poolMode == .transaction && msg == .readyForQuery statusIdle

/-- Give the upstream back and go on. -/
def detach (s : Session) : SessionTurn := .log (releaseUpstream s).2 (releaseUpstream s).1

/-- Send an upstream message to the client. -/
def relayUpstream (env : Env) (msg : BackendMessage) (s : Session) : SessionTurn :=
  (Turn.attempt (.relay msg (env.send msg)) (env.send msg) s).andThen fun s =>
    (if flushesDownstream msg then Turn.attempt (.flush env.flush) env.flush s
      else Turn.log [] s).andThen fun s =>
        let s := trackReadyForQuery env.now msg s
        if shouldDetach s msg then detach s else ackUpstream env s

/-- Serve a message from the upstream. -/
def onUpstream (env : Env) (msg : BackendMessage) (s : Session) : SessionTurn :=
  if s.swallowingBeginResponse then swallowBeginResponse env msg s else relayUpstream env msg s

/-- Whether the read port refuses the message. -/
def readPortRefuses (s : Session) (msg : FrontendMessage) : Bool :=
  s.port == .read && (classify ⟨[], msg.sql⟩ ⟨.read, .idle, none⟩).1.kind == .write

/-- Refuse a message on the read port. -/
def rejectOnReadPort (env : Env) (sql : Text) (s : Session) : SessionTurn :=
  (answerWithError env "25006" "[grunyas] write attempted on read port" statusIdle s).andThen fun s =>
    (Turn.log [.rejectReadPortWrite sql] s).andThen (ackDownstream env)

/-- Whether the message is a simple `BEGIN` to be buffered. -/
def buffersBegin (s : Session) : FrontendMessage → Bool
  | .query string => s.port == .compat && isTransactionStart string && s.pendingBegin == none
  | _ => false

/-- Retain a pointer to the received `BEGIN`. -/
def retainBegin (s : Session) : Session := { s with pendingBegin := some .slot }

/-- Forget the buffered `BEGIN`. -/
def dropBegin (s : Session) : Session := { s with pendingBegin := none }

/-- The command completion that answers a buffered `BEGIN`. -/
def beginComplete : BackendMessage := .commandComplete (text "BEGIN")

/-- The readiness that answers a buffered `BEGIN`. -/
def beginReady : BackendMessage := .readyForQuery statusBlock

/-- Retain the `BEGIN` and answer it in the upstream's place. -/
def bufferBegin (env : Env) (s : Session) : SessionTurn :=
  (Turn.attempt (.send beginComplete (env.send beginComplete)) (env.send beginComplete)
    (retainBegin s)).andThen fun s =>
      (Turn.attempt (.send beginReady (env.send beginReady)) (env.send beginReady) s).andThen fun s =>
        (Turn.attempt (.flush env.flush) env.flush s).andThen (ackDownstream env)

/-- Report a failed acquisition: the client leaves the transaction its buffered `BEGIN` promised,
or the session ends. -/
def acquireFailed (env : Env) (err : AcquireError) (s : Session) : SessionTurn :=
  let code := codeFromErr err "53300"
  match s.pendingBegin with
  | some _ =>
    (answerWithError env code ("[grunyas] " ++ err.message) statusIdle (dropBegin s)).andThen
      (ackDownstream env)
  | none =>
    (Turn.log [sendMessage env (.errorResponse "FATAL" code err.message), .flush env.flush] s).andThen
      .leave

/-- Send the buffered `BEGIN`, if any, as the decoder's slot has it now. -/
def replayBegin (env : Env) (conn : ConnId) (s : Session) : SessionTurn :=
  match s.pendingBegin with
  | none => .log [] s
  | some ref =>
    (Turn.attempt (.replay conn (s.deref ref) env.replay) env.replay s).andThen
      fun s => .log [] { s with swallowingBeginResponse := true, pendingBegin := none }

/-- The client messages after which the upstream connection is flushed. -/
def flushesUpstream : FrontendMessage → Bool
  | .query _ => true
  | .sync => true
  | .flush => true
  | .copyDone => true
  | .copyFail _ => true
  | _ => false

/-- The session once the message was sent: it keeps the upstream if the message sets session
state. -/
def afterProcess (msg : FrontendMessage) (s : Session) : Session :=
  if Messaging.processPins msg then switchToSessionMode s else s

/-- Send the message itself. -/
def processMessage (env : Env) (conn : ConnId) (msg : FrontendMessage) (s : Session) : SessionTurn :=
  (Turn.attempt (.forward conn msg env.process) env.process s).andThen fun s =>
    .log [] (afterProcess msg s)

/-- Flush the upstream at a protocol boundary. -/
def flushUpstream (env : Env) (msg : FrontendMessage) (s : Session) : SessionTurn :=
  if flushesUpstream msg then .attempt (.upstreamFlush env.upstreamFlush) env.upstreamFlush s
  else .log [] s

/-- Forward a message on an upstream, after the buffered `BEGIN`. -/
def forwardOn (env : Env) (conn : ConnId) (msg : FrontendMessage) (s : Session) : SessionTurn :=
  (replayBegin env conn s).andThen fun s =>
    (processMessage env conn msg s).andThen fun s =>
      (flushUpstream env msg s).andThen (ackDownstream env)

/-- Forward a message; without an upstream the call panics. -/
def forwardMessage (env : Env) (msg : FrontendMessage) (s : Session) : SessionTurn :=
  match s.upstream with
  | none => ⟨s, [], .panicked⟩
  | some conn => forwardOn env conn msg s

/-- Serve a message once its upstream is prepared. -/
def dispatch (env : Env) (msg : FrontendMessage) (h : Handling) : SessionTurn :=
  (Turn.log h.acts h.sess).andThen fun s => match h.verdict with
    | .failed err => acquireFailed env err s
    | .handled => ackDownstream env s
    | .forward => forwardMessage env msg s

/-- Serve a decoded message from the client. -/
def serveMessage (env : Env) (msg : FrontendMessage) (s : Session) : SessionTurn :=
  if msg = .terminate then .leave s
  else if readPortRefuses s msg then rejectOnReadPort env msg.sql s
  else if buffersBegin s msg then bufferBegin env s
  else dispatch env msg (prepareUpstream env s msg)

/-- Serve a message from the client. -/
def onDownstream (env : Env) (msg : FrontendMessage) (s : Session) : SessionTurn :=
  serveMessage env msg (decodeMessage s msg)

/-- What the main loop's `select` may pick. -/
inductive Event where
  | upstream (env : Env) (msg : BackendMessage)
  | downstream (env : Env) (msg : FrontendMessage)
  | downstreamClosed
  | err
  | release
  | done

/-- Serve one event. An upstream message needs an upstream whose read loop delivers it. -/
def serve (s : Session) : Event → SessionTurn
  | .upstream env msg => if s.upstream.isSome then onUpstream env msg s else .log [] s
  | .downstream env msg => onDownstream env msg s
  | .downstreamClosed => .leave s
  | .err => .leave s
  | .release => detach s
  | .done => .leave s

/-- Leaving the loop runs the deferred release of the upstream. -/
def deferredRelease (t : SessionTurn) : SessionTurn :=
  match t.next with
  | .returned => ⟨(releaseUpstream t.state).1, t.acts ++ (releaseUpstream t.state).2, .returned⟩
  | .running => t
  | .panicked => t

/-- One turn of the main loop. -/
def turn (s : Session) (ev : Event) : SessionTurn := deferredRelease (serve s ev)

/-- The main loop as a machine on events. -/
def loopStep : Watched Session Unit → Event → Watched Session Unit :=
  Watched.step turn (fun _ _ _ => ()) fun _ _ => ()

/-- The main loop at its start. -/
def Session.loop (s : Session) : Watched Session Unit := ⟨s, (), .running⟩

end Grunyas.Server
