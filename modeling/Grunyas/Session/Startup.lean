import Grunyas.Session.Outcomes

/-!
# The session before its main loop

`Run` takes the client through the startup exchange and authentication, fixes the pool mode and, in
session mode, acquires the upstream that the session keeps. It returns early when any of this
fails or the session is closed meanwhile. Returning releases what is held. The messages of the
startup exchange itself are not recorded.
-/

namespace Grunyas.Server

open GoText Machine

/-- The configuration of the port a session is served on. -/
structure PortConfig where
  poolMode : Text
  postWriteWindowMs : ℤ
  deriving DecidableEq, Repr

/-- The part of the server's configuration that a session reads. -/
structure ServerConfig where
  poolMode : PoolMode
  port : Option PortConfig
  deriving DecidableEq, Repr

/-- The `PoolModeFromString` function. -/
def poolModeFromString (s : Text) : Option PoolMode :=
  if s = [] then some .session
  else if s = text "session" then some .session
  else if s = text "transaction" then some .transaction
  else none

/-- The pool mode of a session: that of its port if one is configured and valid. -/
def ServerConfig.sessionPoolMode (cfg : ServerConfig) : PoolMode :=
  match cfg.port with
  | some port =>
    if port.poolMode ≠ [] then (poolModeFromString port.poolMode).getD cfg.poolMode else cfg.poolMode
  | none => cfg.poolMode

/-- The length of the post-write window; it has a default of one second. -/
def ServerConfig.postWriteWindowMs (cfg : ServerConfig) : ℤ :=
  match cfg.port with
  | some port => port.postWriteWindowMs
  | none => 1000

/-- What the startup of a session meets: the outcome of the startup exchange, of the authentication,
of the two greetings, whether the session was closed meanwhile, and the outcomes of acquiring an
upstream and of telling the client about an error. -/
structure StartupEnv where
  env : Env
  startup : Bool
  authenticate : Except AcquireError Unit
  authenticationOk : Bool
  handshake : Bool
  closed : Bool

/-- A configured session without an upstream. -/
def Session.initializeSession (port : Port) (cfg : ServerConfig) : Session :=
  { Session.start port .transaction 0 cfg.postWriteWindowMs with poolMode := cfg.sessionPoolMode }

/-- Tell the client about an error and close the session. -/
def closeWithError (env : Env) (severity code message : String) (s : Session) : SessionTurn :=
  (Turn.log [sendMessage env (.errorResponse severity code message), .flush env.flush] s).andThen .leave

/-- Acquire the upstream of a session in session mode. -/
def acquireAtStart (env : Env) (s : Session) : SessionTurn :=
  if s.poolMode = .session then
    let h := acquireUpstream env s
    (Turn.log h.acts h.sess).andThen fun s => match h.verdict with
      | .failed err => closeWithError env "FATAL" (codeFromErr err "53300") err.message s
      | _ => .log [] s
  else .log [] s

/-- Go on exactly if a step of the startup succeeded. -/
def proceedIf (ok : Bool) (s : Session) : SessionTurn := ⟨s, [], nextIf ok⟩

/-- Greet the client and go on to the main loop unless the session was closed. -/
def greet (e : StartupEnv) (s : Session) : SessionTurn :=
  (proceedIf e.authenticationOk s).andThen fun s =>
    (proceedIf e.handshake s).andThen (proceedIf !e.closed)

/-- The startup of a session, up to its main loop. -/
def startUp (e : StartupEnv) (s : Session) : SessionTurn :=
  (proceedIf e.startup s).andThen fun s =>
    match e.authenticate with
    | .error err => closeWithError e.env "FATAL" (codeFromErr err "28P01") err.message s
    | .ok () => (acquireAtStart e.env s).andThen (greet e)

/-- The startup with the deferred release of a session that returns early. -/
def launch (port : Port) (cfg : ServerConfig) (e : StartupEnv) : SessionTurn :=
  deferredRelease (startUp e (.initializeSession port cfg))

/-- Everything that the acquisition at the start can do. -/
theorem acquireAtStart_cases (env : Env) {s : Session} (hnone : s.upstream = none) :
    (s.poolMode = .transaction ∧ acquireAtStart env s = .log [] s) ∨
      (∃ conn, s.poolMode = .session ∧
        acquireAtStart env s = .log [.acquire conn] { s with upstream := some conn }) ∨
      ∃ err, s.poolMode = .session ∧
        acquireAtStart env s = closeWithError env "FATAL" (codeFromErr err "53300") err.message s := by
  unfold acquireAtStart acquireUpstream
  rw [hnone]
  cases hmode : s.poolMode with
  | transaction => exact .inl ⟨rfl, rfl⟩
  | session =>
    right
    cases env.acquire with
    | ok conn => exact .inl ⟨conn, rfl, rfl⟩
    | error err => exact .inr ⟨err, rfl, rfl⟩

/-- Greeting the client goes on or returns. -/
theorem greet_eq (e : StartupEnv) (s : Session) :
    ∃ ok, greet e s = ⟨s, [], nextIf ok⟩ := by
  unfold greet proceedIf
  cases e.authenticationOk with
  | false => exact ⟨false, rfl⟩
  | true =>
    cases e.handshake with
    | false => exact ⟨false, rfl⟩
    | true => exact ⟨!e.closed, rfl⟩

/-- Everything that the startup can do: it returns without an upstream, or it has acquired what the
pool mode asks for and then goes on or returns. -/
inductive StartsUp (s : Session) : SessionTurn → Prop
  | failed : StartsUp s ⟨s, [], .returned⟩
  | refused (env : Env) (code message : String) :
    StartsUp s (closeWithError env "FATAL" code message s)
  | unleased (ok : Bool) (mode : s.poolMode = .transaction) :
    StartsUp s ⟨s, [], nextIf ok⟩
  | leased (conn : ConnId) (ok : Bool) (mode : s.poolMode = .session) :
    StartsUp s ⟨{ s with upstream := some conn }, [.acquire conn], nextIf ok⟩

/-- The list is complete. -/
theorem startUp_startsUp (e : StartupEnv) {s : Session} (hnone : s.upstream = none) :
    StartsUp s (startUp e s) := by
  unfold startUp
  cases e.startup with
  | false => exact .failed
  | true =>
    cases e.authenticate with
    | error err => exact .refused e.env (codeFromErr err "28P01") err.message
    | ok =>
      obtain ⟨hmode, hacquire⟩ | ⟨conn, hmode, hacquire⟩ | ⟨err, hmode, hacquire⟩ :=
        acquireAtStart_cases e.env hnone
      · obtain ⟨ok, hgreet⟩ := greet_eq e s
        have hstart : StartsUp s _ := .unleased ok hmode
        simpa [proceedIf, nextIf, Turn.andThen, hacquire, Turn.log, hgreet] using hstart
      · obtain ⟨ok, hgreet⟩ := greet_eq e { s with upstream := some conn }
        have hstart : StartsUp s _ := .leased conn ok hmode
        simpa [proceedIf, nextIf, Turn.andThen, hacquire, Turn.log, hgreet] using hstart
      · have hstart : StartsUp s _ := .refused e.env (codeFromErr err "53300") err.message
        simpa [proceedIf, nextIf, Turn.andThen, hacquire, closeWithError, Turn.log, Turn.leave] using hstart

end Grunyas.Server
