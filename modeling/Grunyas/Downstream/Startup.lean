import Grunyas.Auth.Authentication
import Grunyas.Machine.Run

/-!
# The startup of a client

`Startup` reads startup packets in a loop: a request for TLS may replace the connection by a TLS
connection on top of it, a request for GSS encryption is always declined, and a startup message ends
the loop with a password challenge or, if the port demands TLS and the connection is not a TLS
connection, with an error to the client. What the client sends and how every operation on the
connection ends are inputs; what the server does is logged in order.

The log of a client that has to use TLS runs through the phases of `Phase`: no challenge before a
completed handshake, and the error right behind a startup message in plaintext
(`startup_keeps`).
-/

namespace Grunyas.Downstream

open GoText Grunyas.Auth Machine

/-- The first messages of a client. -/
inductive StartupPacket where
  | sslRequest
  | gssEncRequest
  | startupMessage (parameters : List (Text × Text))
  | other (typeName : Text)
  deriving DecidableEq, Repr

/-- The messages that the startup sends. -/
inductive StartupReply where
  | errorResponse (severity code message : String)
  | authenticationCleartextPassword
  | authenticationMD5Password (salt : Vector UInt8 4)
  deriving DecidableEq, Repr

/-- The connection to a client, as it was accepted or with TLS on top. -/
inductive Conn where
  | tcp
  | tls
  deriving DecidableEq, Repr

/-- The part of a client that the startup works on; `tlsConfig` tells that there is one. -/
structure Client where
  conn : Conn
  requiredSSL : Bool
  tlsConfig : Bool
  md5Salt : Vector UInt8 4
  deriving DecidableEq, Repr

/-- A client on a connection, with a salt of zeros. -/
def initializeClient (conn : Conn) (tlsConfig requiredSSL : Bool) : Client :=
  ⟨conn, requiredSSL, tlsConfig, Vector.replicate 4 0⟩

/-- Whether the port of a connection demands TLS. -/
def requiredSSL (port : Option Config.PortConfig) : Bool :=
  match port with
  | some port => toLower port.sslMode == text "mandatory"
  | none => false

/-- What one turn of the loop meets: the packet, and the errors of answering it and of the TLS
handshake. -/
structure Round where
  receive : Except Text StartupPacket
  write : Option Text := none
  handshake : Option Text := none

/-- What the end of the startup meets: the salt, the error of flushing, and the answer of the client. -/
structure PasswordEnv where
  random : Except Text (Vector UInt8 4)
  flush : Option Text
  receive : Except Text AuthMessage

/-- What the server does with the connection, with the error it meets. -/
inductive StartupAction where
  | received (packet : StartupPacket)
  | write (reply : UInt8) (err : Option Text)
  | handshake (err : Option Text)
  | send (message : StartupReply)
  | flush (err : Option Text)
  deriving DecidableEq, Repr

/-- A startup: the client behind it, its log, and the user and password or the error. -/
structure StartupRun where
  client : Client
  acts : List StartupAction
  result : Except Text (Text × Text)

/-- A startup behind earlier actions. -/
def StartupRun.behind (acts : List StartupAction) (run : StartupRun) : StartupRun :=
  { run with acts := acts ++ run.acts }

namespace Client

variable (c : Client)

/-- Send a challenge and read the password. Sending only fills a buffer and does not fail. -/
def challenge (message : StartupReply) (user : Text) (env : PasswordEnv) : StartupRun :=
  match env.flush with
  | some err => ⟨c, [.send message, .flush (some err)], .error err⟩
  | none => ⟨c, [.send message, .flush none],
      match env.receive with
      | .error err => .error err
      | .ok (.password password) => .ok (user, password)
      | .ok message => .error (text "expected password message, got " ++ message.typeName)⟩

/-- Ask for the password in plain text. -/
def startupCleartext (user : Text) (env : PasswordEnv) : StartupRun :=
  c.challenge .authenticationCleartextPassword user env

/-- Ask for the hash of the password with a random salt. -/
def startupMD5 (user : Text) (env : PasswordEnv) : StartupRun :=
  match env.random with
  | .error err => ⟨c, [], .error (text "generate MD5 salt: " ++ err)⟩
  | .ok salt => { c with md5Salt := salt }.challenge (.authenticationMD5Password salt) user env

/-- The error of a startup message in plaintext where TLS is required. -/
def sslRequired : StartupReply := .errorResponse "FATAL" "28000" "SSL connection is required"

/-- Refuse a startup message in plaintext. -/
def refusePlaintext (env : PasswordEnv) : StartupRun :=
  match env.flush with
  | some err => ⟨c, [.send sslRequired, .flush (some err)], .error err⟩
  | none => ⟨c, [.send sslRequired, .flush none], .error (text "ssl connection is required")⟩

/-- The end of the loop at a startup message. -/
def onStartupMessage (authMethod : AuthMethod) (env : PasswordEnv)
    (parameters : List (Text × Text)) : StartupRun :=
  if c.requiredSSL = true ∧ c.conn ≠ .tls then c.refusePlaintext env
  else
    let user := (parameters.lookup (text "user")).getD []
    match authMethod with
    | .md5 => c.startupMD5 user env
    | .scramSHA256 => ⟨c, [], .ok (user, [])⟩
    | .plain => c.startupCleartext user env

/-- Answer a request with a no and go on. -/
def decline (write : Option Text) (next : StartupRun) : StartupRun :=
  match write with
  | some err => ⟨c, [.write 0x4E (some err)], .error err⟩
  | none => next.behind [.write 0x4E none]

/-- Answer a request with a yes, take the connection over to TLS and go on. -/
def upgrade (write handshake : Option Text) (next : StartupRun) : StartupRun :=
  match write with
  | some err => ⟨c, [.write 0x53 (some err)], .error err⟩
  | none =>
    match handshake with
    | some err =>
      ⟨c, [.write 0x53 none, .handshake (some err)], .error (text "tls handshake failed: " ++ err)⟩
    | none => next.behind [.write 0x53 none, .handshake none]

/-- The `Startup` loop over the packets of the client, of which the last is followed by an error of the
connection. -/
def startup (authMethod : AuthMethod) (env : PasswordEnv) (closed : Text) :
    Client → List Round → StartupRun
  | c, [] => ⟨c, [], .error closed⟩
  | c, round :: rounds =>
    match round.receive with
    | .error err => ⟨c, [], .error err⟩
    | .ok packet => StartupRun.behind [.received packet] <|
      match packet with
      | .sslRequest =>
        if c.tlsConfig then
          c.upgrade round.write round.handshake
            (startup authMethod env closed { c with conn := .tls } rounds)
        else c.decline round.write (startup authMethod env closed c rounds)
      | .gssEncRequest => c.decline round.write (startup authMethod env closed c rounds)
      | .startupMessage parameters => c.onStartupMessage authMethod env parameters
      | .other typeName => ⟨c, [], .error (text "unexpected message type: " ++ typeName)⟩

end Client

/-! ### The phases of a startup that requires TLS -/

/-- How far a startup that requires TLS has come. -/
inductive Phase where
  | plain
  | owed
  | refused
  | secured
  deriving DecidableEq, Repr

/-- The phase behind an action. -/
def Phase.next : Phase → StartupAction → Phase
  | .plain, .received (.startupMessage _) => .owed
  | .plain, .handshake none => .secured
  | .owed, _ => .refused
  | phase, _ => phase

/-- What is allowed in a phase: no challenge in plaintext, the error where it is owed, and nothing but
flushing it then. -/
def Phase.Allows : Phase → StartupAction → Prop
  | .plain, .send _ => False
  | .plain, _ => True
  | .owed, action => action = .send Client.sslRequired
  | .refused, action => ∃ err, action = .flush err
  | .secured, _ => True

/-- A startup keeps to the phases from the given one on: everything it does is allowed, no error is
owed in the end, and it succeeds in the secured phase only. -/
structure Keeps (phase : Phase) (run : StartupRun) : Prop where
  allowed : Throughout Phase.next Phase.Allows phase run.acts
  settled : Machine.run Phase.next phase run.acts ≠ .owed
  success : ∀ login, run.result = .ok login → Machine.run Phase.next phase run.acts = .secured

/-- The secured phase is not left. -/
theorem run_secured (acts : List StartupAction) : Machine.run Phase.next .secured acts = .secured := by
  induction acts with
  | nil => rfl
  | cons action acts ih => exact ih

/-- Once the connection is secured everything is allowed. -/
theorem keeps_secured (run : StartupRun) : Keeps .secured run where
  allowed := by
    generalize run.acts = acts
    induction acts with
    | nil => trivial
    | cons action acts ih => exact ⟨trivial, ih⟩
  settled := by
    rw [run_secured]
    decide
  success _ _ := run_secured run.acts

/-- A startup behind allowed actions. -/
theorem Keeps.behind {phase : Phase} {run : StartupRun} (acts : List StartupAction)
    (hacts : Throughout Phase.next Phase.Allows phase acts)
    (h : Keeps (Machine.run Phase.next phase acts) run) : Keeps phase (run.behind acts) where
  allowed := (throughout_append acts run.acts).mpr ⟨hacts, h.allowed⟩
  settled := (run_append phase acts run.acts).symm ▸ h.settled
  success login hlogin := (run_append phase acts run.acts).trans (h.success login hlogin)

/-- A startup that fails without an error owed to the client. -/
theorem keeps_of_error {phase : Phase} {c : Client} {acts : List StartupAction} {err : Text}
    (last : Phase) (hacts : Throughout Phase.next Phase.Allows phase acts)
    (hlast : Machine.run Phase.next phase acts = last) (hsettled : last ≠ .owed) :
    Keeps phase ⟨c, acts, .error err⟩ :=
  ⟨hacts, hlast ▸ hsettled, fun _ h => by cases h⟩

/-- Declining a request keeps to the phases if going on does. -/
theorem keeps_decline (c : Client) (write : Option Text) {next : StartupRun} (h : Keeps .plain next) :
    Keeps .plain (c.decline write next) := by
  cases write with
  | some err => exact keeps_of_error .plain ⟨trivial, trivial⟩ rfl (by decide)
  | none => exact Keeps.behind [.write 0x4E none] ⟨trivial, trivial⟩ h

/-- Upgrading the connection keeps to the phases, whatever comes next. -/
theorem keeps_upgrade (c : Client) (write handshake : Option Text) (next : StartupRun) :
    Keeps .plain (c.upgrade write handshake next) := by
  cases write with
  | some err => exact keeps_of_error .plain ⟨trivial, trivial⟩ rfl (by decide)
  | none =>
    cases handshake with
    | some err => exact keeps_of_error .plain ⟨trivial, trivial, trivial⟩ rfl (by decide)
    | none =>
      exact Keeps.behind [.write 0x53 none, .handshake none] ⟨trivial, trivial, trivial⟩
        (keeps_secured next)

/-- Refusing a startup message pays the error that is owed. -/
theorem keeps_refusePlaintext (c : Client) (env : PasswordEnv) : Keeps .owed (c.refusePlaintext env) := by
  unfold Client.refusePlaintext
  cases env.flush with
  | some err => exact keeps_of_error .refused ⟨rfl, ⟨some err, rfl⟩, trivial⟩ rfl (by decide)
  | none => exact keeps_of_error .refused ⟨rfl, ⟨none, rfl⟩, trivial⟩ rfl (by decide)

/-- Every startup of a client on a plain connection that has to use TLS keeps to the phases. -/
theorem startup_keeps {c : Client} (hrequired : c.requiredSSL = true) (hplain : c.conn = .tcp)
    (authMethod : AuthMethod) (env : PasswordEnv) (closed : Text) (rounds : List Round) :
    Keeps .plain (Client.startup authMethod env closed c rounds) := by
  induction rounds with
  | nil => exact keeps_of_error .plain trivial rfl (by decide)
  | cons round rounds ih =>
    rw [Client.startup]
    cases round.receive with
    | error err => exact keeps_of_error .plain trivial rfl (by decide)
    | ok packet =>
      apply Keeps.behind [.received packet] (by cases packet <;> exact ⟨trivial, trivial⟩)
      cases packet with
      | sslRequest =>
        dsimp only
        split_ifs
        · exact keeps_upgrade c _ _ _
        · exact keeps_decline c _ ih
      | gssEncRequest => exact keeps_decline c _ ih
      | startupMessage parameters =>
        dsimp only
        rw [Client.onStartupMessage, if_pos ⟨hrequired, by rw [hplain]; decide⟩]
        exact keeps_refusePlaintext c env
      | other typeName => exact keeps_of_error .plain trivial rfl (by decide)

/-- Only a completed handshake secures a connection. -/
theorem eq_of_next_eq_secured {phase : Phase} {action : StartupAction} (hphase : phase ≠ .secured)
    (h : phase.next action = .secured) : action = .handshake none := by
  unfold Phase.next at h
  split at h
  · cases h
  · rfl
  · cases h
  · exact absurd h hphase

/-- The secured phase is reached by a completed handshake only. -/
theorem mem_of_run_eq_secured {phase : Phase} {acts : List StartupAction} (hphase : phase ≠ .secured)
    (h : Machine.run Phase.next phase acts = .secured) : .handshake none ∈ acts := by
  induction acts generalizing phase with
  | nil => exact absurd h hphase
  | cons action acts ih =>
    by_cases hnext : phase.next action = .secured
    · rw [eq_of_next_eq_secured hphase hnext]
      exact List.mem_cons_self
    · exact List.mem_cons_of_mem _ (ih hnext h)

/-- A refused client stays refused. -/
theorem run_refused (acts : List StartupAction) : Machine.run Phase.next .refused acts = .refused := by
  induction acts with
  | nil => rfl
  | cons action acts ih => exact ih

/-- The messages that ask for a password. -/
def StartupReply.AsksForPassword : StartupReply → Prop
  | .errorResponse _ _ _ => False
  | .authenticationCleartextPassword => True
  | .authenticationMD5Password _ => True

namespace Keeps

variable {run : StartupRun} {before after : List StartupAction}

/-- What stands in the log was allowed where it stands. -/
theorem allows (h : Keeps .plain run) {action : StartupAction} (hacts : run.acts = before ++ action :: after) :
    (Machine.run Phase.next .plain before).Allows action := by
  have hallowed := h.allowed
  rw [hacts, throughout_append] at hallowed
  exact hallowed.2.1

/-- A password is asked for behind a completed handshake only. -/
theorem mem_of_asks (h : Keeps .plain run) {message : StartupReply}
    (hacts : run.acts = before ++ .send message :: after) (hasks : message.AsksForPassword) :
    .handshake none ∈ before := by
  apply mem_of_run_eq_secured (by decide : Phase.plain ≠ .secured)
  have hallows := h.allows hacts
  cases hphase : Machine.run Phase.next .plain before with
  | secured => rfl
  | plain =>
    rw [hphase] at hallows
    exact hallows.elim
  | owed =>
    rw [hphase] at hallows
    cases hallows
    exact hasks.elim
  | refused =>
    rw [hphase] at hallows
    obtain ⟨err, herr⟩ := hallows
    cases herr

/-- A startup message in plaintext is followed by the error, and the startup fails. -/
theorem refused_of_plaintext (h : Keeps .plain run) {parameters : List (Text × Text)}
    (hacts : run.acts = before ++ .received (.startupMessage parameters) :: after)
    (hplain : .handshake none ∉ before) :
    (∃ rest, after = .send Client.sslRequired :: rest) ∧ ∃ err, run.result = .error err := by
  have hallows := h.allows hacts
  have hphase : Machine.run Phase.next .plain before = .plain := by
    cases hphase : Machine.run Phase.next .plain before with
    | plain => rfl
    | secured => exact absurd (mem_of_run_eq_secured (by decide) hphase) hplain
    | owed =>
      rw [hphase] at hallows
      cases hallows
    | refused =>
      rw [hphase] at hallows
      obtain ⟨err, herr⟩ := hallows
      cases herr
  have hlast : Machine.run Phase.next .plain run.acts = Machine.run Phase.next .owed after := by
    rw [hacts, run_append, hphase]
    rfl
  have hrest := h.allowed
  rw [hacts, throughout_append, hphase] at hrest
  cases after with
  | nil => exact absurd hlast h.settled
  | cons action rest =>
    have hsend : action = .send Client.sslRequired := hrest.2.2.1
    refine ⟨⟨rest, by rw [hsend]⟩, ?_⟩
    cases hresult : run.result with
    | error err => exact ⟨err, rfl⟩
    | ok login =>
      have hsecured := h.success login hresult
      rw [hlast, run_cons, hsend] at hsecured
      cases (run_refused rest).symm.trans hsecured

end Keeps

/-- With TLS required and a client on a plain connection, for whatever packets the client sends and
however every operation ends: the startup succeeds, or a password is asked for, only behind a completed
handshake; without one the startup fails, and a startup message in plaintext is answered with the error
first. -/
theorem startup_requires_tls (c : Client) (hrequired : c.requiredSSL = true) (hplain : c.conn = .tcp)
    (authMethod : AuthMethod) (env : PasswordEnv) (closed : Text) (rounds : List Round) :
    (∀ login, (Client.startup authMethod env closed c rounds).result = .ok login →
      .handshake none ∈ (Client.startup authMethod env closed c rounds).acts) ∧
    (∀ before message after,
      (Client.startup authMethod env closed c rounds).acts = before ++ .send message :: after →
        message.AsksForPassword → .handshake none ∈ before) ∧
    (.handshake none ∉ (Client.startup authMethod env closed c rounds).acts →
      ∃ err, (Client.startup authMethod env closed c rounds).result = .error err) ∧
    ∀ before parameters after,
      (Client.startup authMethod env closed c rounds).acts =
          before ++ .received (.startupMessage parameters) :: after →
        .handshake none ∉ before →
        (∃ rest, after = .send Client.sslRequired :: rest) ∧
          ∃ err, (Client.startup authMethod env closed c rounds).result = .error err := by
  have hkeeps := startup_keeps hrequired hplain authMethod env closed rounds
  generalize Client.startup authMethod env closed c rounds = run at hkeeps
  have hsuccess : ∀ login, run.result = .ok login → .handshake none ∈ run.acts := by
    intro login hlogin
    exact mem_of_run_eq_secured (by decide) (hkeeps.success login hlogin)
  refine ⟨hsuccess, ?_, ?_, ?_⟩
  · intro before message after hacts hasks
    exact hkeeps.mem_of_asks hacts hasks
  · intro hnone
    cases hresult : run.result with
    | error err => exact ⟨err, rfl⟩
    | ok login => exact absurd (hsuccess login hresult) hnone
  · intro before parameters after hacts hbefore
    exact hkeeps.refused_of_plaintext hacts hbefore

/-- A port that demands TLS, in capitals. -/
def mandatoryPort : Config.PortConfig := { listenAddr := text ":5711", sslMode := text "MANDATORY" }

/-- The startup of a client of such a port under the md5 method, with an answer to the challenge. -/
def mandatoryStartup (packets : List StartupPacket) : StartupRun :=
  Client.startup .md5 ⟨.ok (Vector.replicate 4 7), none, .ok (.password (text "md5x"))⟩ (text "EOF")
    (initializeClient .tcp true (requiredSSL (some mandatoryPort)))
    (packets.map fun packet => ⟨.ok packet, none, none⟩)

/-- A startup message of the user `app`. -/
def appStartup : StartupPacket := .startupMessage [(text "user", text "app")]

/-- A client that asks for encryption with GSS and then starts up in plaintext fails; one that then asks
for TLS succeeds, behind a handshake. -/
theorem startup_requires_tls_mandatory :
    (∃ err, (mandatoryStartup [.gssEncRequest, appStartup]).result = .error err) ∧
    (mandatoryStartup [.gssEncRequest, .sslRequest, appStartup]).result = .ok (text "app", text "md5x") ∧
    .handshake none ∈ (mandatoryStartup [.gssEncRequest, .sslRequest, appStartup]).acts := by
  have hrequired : (initializeClient .tcp true (requiredSSL (some mandatoryPort))).requiredSSL = true := by
    decide
  have hlogin : (mandatoryStartup [.gssEncRequest, .sslRequest, appStartup]).result =
      .ok (text "app", text "md5x") := by
    decide
  refine ⟨(startup_requires_tls _ hrequired rfl .md5 _ _ _).2.2.1 ?_, hlogin,
    (startup_requires_tls _ hrequired rfl .md5 _ _ _).1 _ hlogin⟩
  decide

end Grunyas.Downstream
