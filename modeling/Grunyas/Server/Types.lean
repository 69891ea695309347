import Grunyas.Go.Strings
import Mathlib.Algebra.Ring.Int.Defs
import Mathlib.Algebra.Ring.Nat

/-!
# Types shared by the server components

The clock, the listen port a proxy serves, the pool modes, the role observed for a node, and the
data that crosses the boundary between a session and the proxy: the lease of an upstream
connection and the error of a failed acquisition. Frontend and backend messages carry the fields
that some component reads or compares; the payloads of the remaining backend messages are dropped.
-/

namespace Grunyas.Server

open GoText (Text)

/-- Nanoseconds since Go's zero time, which is zero itself. -/
abbrev Time := ℤ

/-- A number of milliseconds as a `time.Duration`: its product with a million nanoseconds wraps at
64 bits. -/
def milliseconds (ms : ℤ) : ℤ := (ms * 1000000).bmod (2 ^ 64)

@[simp] theorem milliseconds_zero : milliseconds 0 = 0 := by decide

/-- Where the product fits into a duration it is exact. -/
theorem milliseconds_of_fits {ms : ℤ} (hms : 0 ≤ ms) (hfits : ms * 1000000 < 2 ^ 63) :
    milliseconds ms = ms * 1000000 := by
  have hrange : ((2 ^ 64 : ℕ) : ℤ) = 2 * 2 ^ 63 := rfl
  exact Int.bmod_eq_of_le_mul_two (by omega) (by omega)

/-- The listen port identifier; only the first three are served. -/
inductive Port where
  | write
  | read
  | compat
  | other (name : Text)
  deriving DecidableEq, Repr

/-- The connection pooling mode of a session. -/
inductive PoolMode where
  | session
  | transaction
  deriving DecidableEq, Repr

/-- The role a probe observed for a node. -/
inductive Role where
  | unknown
  | primary
  | replica
  deriving DecidableEq, Repr

/-- The identity of one upstream connection. -/
abbrev ConnId := ℕ

/-- A failed acquisition: the SQLSTATE of a `ProxyError`, absent for any other error. -/
structure AcquireError where
  code : Option String
  message : String
  deriving DecidableEq, Repr

/-- The `CodeFromErr` function. -/
def codeFromErr (err : AcquireError) (defaultCode : String) : String := err.code.getD defaultCode

/-- An upstream connection with its routing metadata. -/
structure UpstreamLease where
  client : ConnId
  nodeID : Text
  role : Role
  deriving DecidableEq, Repr

/-- A message received from the client. -/
inductive FrontendMessage where
  | query (string : Text)
  | parse (name query : Text)
  | bind (destinationPortal preparedStatement : Text)
  | describe (objectType : UInt8) (name : Text)
  | execute (portal : Text) (maxRows : ℕ)
  | close (objectType : UInt8) (name : Text)
  | flush
  | sync
  | copyData (data : Text)
  | copyDone
  | copyFail (message : Text)
  | functionCall (function : ℕ)
  | terminate
  deriving DecidableEq, Repr

/-- The transaction status `'I'`: not in a transaction block. -/
def statusIdle : UInt8 := 0x49

/-- The transaction status `'T'`: in a transaction block. -/
def statusBlock : UInt8 := 0x54

/-- The transaction status `'E'`: in a failed transaction block. -/
def statusFailed : UInt8 := 0x45

/-- A message received from a backend or sent to the client. -/
inductive BackendMessage where
  | readyForQuery (txStatus : UInt8)
  | errorResponse (severity code message : String)
  | commandComplete (commandTag : Text)
  | emptyQueryResponse
  | rowDescription
  | dataRow (values : List Text)
  | noData
  | parameterDescription
  | portalSuspended
  | parseComplete
  | bindComplete
  | closeComplete
  | copyInResponse
  | copyOutResponse
  | copyBothResponse
  | copyData (data : Text)
  | copyDone
  | functionCallResponse (result : Text)
  | noticeResponse (severity code message : String)
  | notificationResponse (channel payload : Text)
  | parameterStatus (name value : Text)
  deriving DecidableEq, Repr

/-- Whether a backend answers the message with a `ReadyForQuery`. -/
def FrontendMessage.isRequest : FrontendMessage → Bool
  | .query _ => true
  | .sync => true
  | _ => false

/-- Whether the message belongs to the stream of a `COPY FROM STDIN`. -/
def FrontendMessage.isCopy : FrontendMessage → Bool
  | .copyData _ => true
  | .copyDone => true
  | .copyFail _ => true
  | _ => false

/-- The SQL text of a message; only `Query` and `Parse` carry one. -/
def FrontendMessage.sql : FrontendMessage → Text
  | .query string => string
  | .parse _ sql => sql
  | _ => []

/-- Whether the message carries SQL text. -/
def FrontendMessage.carriesSQL : FrontendMessage → Bool
  | .query _ => true
  | .parse _ _ => true
  | _ => false

/-- Whether the message is a `ReadyForQuery`. -/
def BackendMessage.isReady : BackendMessage → Bool
  | .readyForQuery _ => true
  | _ => false

/-- Whether the message is an `ErrorResponse`. -/
def BackendMessage.isError : BackendMessage → Bool
  | .errorResponse _ _ _ => true
  | _ => false

end Grunyas.Server
