import Grunyas.Machine.Blocks
import Grunyas.Server.Types

/-!
# The client of an upstream connection

A `SessionClient` wraps a connection of the pool. Before the connection goes back, `reset` sends a
`Sync`, reads up to the first `ReadyForQuery`, and runs `ROLLBACK` and `DISCARD ALL` as simple
queries. The response to a simple query is taken to end at the first `ReadyForQuery` that follows
a `CommandComplete` or an `ErrorResponse`, whichever request that one answers.

The backend is a parameter: what it replies to a request may depend on all it has received.
-/

namespace Grunyas.Upstream

open GoText Grunyas.Server Machine

/-- A backend's reply to one request: messages other than `ReadyForQuery`, and then one. -/
structure Reply where
  body : List BackendMessage
  status : UInt8
  body_ready : ∀ msg ∈ body, msg.isReady = false

/-- The messages of a reply. -/
def Reply.messages (reply : Reply) : List BackendMessage :=
  reply.body ++ [.readyForQuery reply.status]

/-- Whether a message ends a command. -/
def endsCommand : BackendMessage → Bool
  | .commandComplete _ => true
  | .errorResponse _ _ _ => true
  | _ => false

/-- Whether the reply tells of the end of a command. -/
def Reply.completes (reply : Reply) : Bool := reply.body.any endsCommand

/-- Whether the reply tells of an error. -/
def Reply.failed (reply : Reply) : Bool := reply.body.any BackendMessage.isError

/-- The messages of a sequence of replies. -/
def wire (replies : List Reply) : List BackendMessage := replies.flatMap Reply.messages

/-- What a backend replies to a request, after all it has received before. -/
abbrev Backend := List FrontendMessage → FrontendMessage → Reply

/-- The replies to further messages. -/
def answers (backend : Backend) : List FrontendMessage → List FrontendMessage → List Reply
  | _, [] => []
  | received, msg :: msgs =>
    (if msg.isRequest then [backend received msg] else []) ++
      answers backend (received ++ [msg]) msgs

/-- A connection: the last transaction status read, the messages that are not flushed yet, those
that the backend has received, and its replies that are still to be read. -/
structure Conn where
  txStatus : UInt8
  wbuf : List FrontendMessage
  received : List FrontendMessage
  unread : List BackendMessage
  deriving DecidableEq, Repr

/-- The errors of `reset`. -/
inductive ResetError where
  | drainReceive
  | flush (query : Text)
  | receive (query : Text)
  | failed (query : Text) (severity code message : String)
  deriving DecidableEq, Repr

/-- Whether writing the buffered messages succeeds. -/
abbrev Writes := List FrontendMessage → Bool

/-- Buffer messages for the backend. -/
def Conn.send (c : Conn) (msgs : List FrontendMessage) : Conn := { c with wbuf := c.wbuf ++ msgs }

/-- Write the buffered messages; they leave the buffer also if that fails. -/
def Conn.flush (writes : Writes) (backend : Backend) (c : Conn) : Conn × Bool :=
  if writes c.wbuf then
    ({ c with
        wbuf := []
        received := c.received ++ c.wbuf
        unread := c.unread ++ wire (answers backend c.received c.wbuf) }, true)
  else ({ c with wbuf := [] }, false)

/-- The connection once a message was read, with those that follow it. -/
def Conn.receive (c : Conn) (msg : BackendMessage) (rest : List BackendMessage) : Conn :=
  { c with
    unread := rest
    txStatus := match msg with
      | .readyForQuery txStatus => txStatus
      | _ => c.txStatus }

/-- The loop of `drainToReady`; nothing left to read is a timeout. -/
def drainLoop (c : Conn) : List BackendMessage → Except ResetError Conn
  | [] => .error .drainReceive
  | msg :: rest =>
    if msg.isReady then .ok (c.receive msg rest) else drainLoop (c.receive msg rest) rest

/-- Read up to the next `ReadyForQuery`. -/
def drainToReady (c : Conn) : Except ResetError Conn := drainLoop c c.unread

/-- The loop of `simpleQuery`. -/
def responseLoop (query : Text) (c : Conn) (commandCompleteSeen : Bool) (queryErr : Option ResetError) :
    List BackendMessage → Except ResetError Conn
  | [] => .error (.receive query)
  | msg :: rest =>
    match msg with
    | .readyForQuery _ =>
      if commandCompleteSeen then
        match queryErr with
        | some err => .error err
        | none => .ok (c.receive msg rest)
      else responseLoop query (c.receive msg rest) commandCompleteSeen queryErr rest
    | .commandComplete _ => responseLoop query (c.receive msg rest) true queryErr rest
    | .errorResponse severity code message =>
      responseLoop query (c.receive msg rest) true (some (.failed query severity code message)) rest
    | _ => responseLoop query (c.receive msg rest) commandCompleteSeen queryErr rest

/-- Run a simple query. -/
def simpleQuery (writes : Writes) (backend : Backend) (query : Text) (c : Conn) :
    Except ResetError Conn :=
  let (c, ok) := (c.send [.query query]).flush writes backend
  if ok then responseLoop query c false none c.unread else .error (.flush query)

/-- The query that ends an open transaction. -/
def rollback : Text := text "ROLLBACK"

/-- The query that clears the session. -/
def discard : Text := text "DISCARD ALL"

/-- End the transaction if one is open. -/
def endTransaction (writes : Writes) (backend : Backend) (c : Conn) : Except ResetError Conn :=
  if c.txStatus ≠ statusIdle then simpleQuery writes backend rollback c else .ok c

/-- A client of an upstream connection; in transaction mode it does not clear the session. -/
structure SessionClient where
  conn : Conn
  discardAll : Bool

/-- Clear the connection, which is given back to the pool unless that fails. An error of the first
flush is ignored. -/
def SessionClient.reset (writes : Writes) (backend : Backend) (client : SessionClient) :
    Except ResetError Conn := do
  let c ← drainToReady ((client.conn.send [.sync]).flush writes backend).1
  let c ← endTransaction writes backend c
  if client.discardAll then simpleQuery writes backend discard c else .ok c

end Grunyas.Upstream
