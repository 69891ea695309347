import Grunyas.Config.Config
import Grunyas.Go.Base64

/-!
# The authentication of clients

A client names its user in the startup message. Under the plain and md5 methods the user is compared
with the configured one. Under SCRAM the server side of the conversation takes the name from the
client's first SCRAM message instead, and the user of the startup message is not looked at.
`startup_user_bound_iff` says for which clients the methods agree.

The SCRAM library is a parameter: `ScramServer` states what is assumed of it. The hash of the md5 method
and the derivation of the stored SCRAM credentials are parameters as well.
-/

namespace Grunyas.Auth

open GoText Grunyas.Config

/-- The methods that the server knows. -/
inductive AuthMethod where
  | plain
  | md5
  | scramSHA256
  deriving DecidableEq, Repr

/-- The credentials of the configuration. -/
structure Credential where
  username : Text
  password : Text
  method : Text
  deriving DecidableEq, Repr

/-- The credentials with those that the SCRAM server stores, if SCRAM is configured. -/
structure Authenticator (Stored : Type*) where
  cred : Credential
  scramCred : Option Stored

/-- Prepare the credentials of a configuration. -/
def initializeAuth {Stored : Type*} (scramStored : Credential → Except Text Stored) (cfg : AuthConfig) :
    Except Text (Authenticator Stored) :=
  let cred : Credential := ⟨cfg.username, cfg.password, toLower cfg.method⟩
  if cred.method = text "scram-sha-256" then
    match scramStored cred with
    | .error err => .error (text "prepare scram credentials: " ++ err)
    | .ok stored => .ok ⟨cred, some stored⟩
  else .ok ⟨cred, none⟩

/-- The error of a failed authentication; a code only if it is a `ProxyError`. -/
structure AuthError where
  code : Option String
  message : Text
  deriving DecidableEq, Repr

/-- A message that a client may send while it is authenticated. -/
inductive AuthMessage where
  | password (password : Text)
  | saslInitialResponse (mechanism data : Text)
  | saslResponse (data : Text)
  | other (typeName : Text)
  deriving DecidableEq, Repr

/-- The Go type of a message. -/
def AuthMessage.typeName : AuthMessage → Text
  | .password _ => text "*pgproto3.PasswordMessage"
  | .saslInitialResponse _ _ => text "*pgproto3.SASLInitialResponse"
  | .saslResponse _ => text "*pgproto3.SASLResponse"
  | .other typeName => typeName

/-- What the SASL exchange with a client meets: the errors of sending and flushing, and what is
received. -/
structure Exchange where
  sendSASL : Option Text := none
  flushSASL : Option Text := none
  initial : Except Text AuthMessage
  sendContinue : Option Text := none
  flushContinue : Option Text := none
  response : Except Text AuthMessage
  sendFinal : Option Text := none
  flushFinal : Option Text := none

/-- A client: the user of its startup message, the password or hash that it sent, the salt that it was
given, the nonce of the server, and its SASL exchange. -/
structure Client where
  user : Text
  password : Text
  md5Salt : Text
  nonce : Text
  exchange : Exchange

/-- A SCRAM server. A conversation that looks up credentials by the name of the first message accepts
exactly if it finds some and the proof of the last message matches them. The text of `ErrUnknownUser` is
the library's. -/
structure ScramServer (Stored : Type*) where
  errUnknownUser : Text
  name : Text → Option Text
  proves : Stored → Text → Text → Text → Bool
  firstStep : (Text → Except Text Stored) → Text → Text → Except Text Text
  finalStep : (Text → Except Text Stored) → Text → Text → Text → Except Text Text
  accepts_iff : ∀ lookup nonce first final,
    ((∃ reply, firstStep lookup nonce first = .ok reply) ∧
        ∃ reply, finalStep lookup nonce first final = .ok reply) ↔
      ∃ user stored, name first = some user ∧ lookup user = .ok stored ∧
        proves stored nonce first final = true

/-- Put the name of a step before an error. -/
def atStep {α : Type} (step : String) : Except Text α → Except Text α
  | .error err => .error (text step ++ text ": " ++ err)
  | .ok a => .ok a

/-- A step that only may fail. -/
def ioStep (step : String) (err : Option Text) : Except Text Unit :=
  match err with
  | some err => .error (text step ++ text ": " ++ err)
  | none => .ok ()

/-- The data of a first SASL message. -/
def initialData : AuthMessage → Except Text Text
  | .saslInitialResponse _ data => .ok data
  | other => .error (text "expected SASLInitialResponse, got " ++ other.typeName)

/-- The data of a last SASL message. -/
def responseData : AuthMessage → Except Text Text
  | .saslResponse data => .ok data
  | other => .error (text "expected SASLResponse, got " ++ other.typeName)

/-- The `SASLExchange` of a client with the two steps of a conversation. -/
def saslExchange (firstStep : Text → Except Text Text) (finalStep : Text → Text → Except Text Text)
    (x : Exchange) : Except Text Unit := do
  ioStep "send AuthenticationSASL" x.sendSASL
  ioStep "flush AuthenticationSASL" x.flushSASL
  let first ← initialData (← atStep "receive SASLInitialResponse" x.initial)
  let _ ← atStep "SCRAM step 1" (firstStep first)
  ioStep "send AuthenticationSASLContinue" x.sendContinue
  ioStep "flush AuthenticationSASLContinue" x.flushContinue
  let final ← responseData (← atStep "receive SASLResponse" x.response)
  let _ ← atStep "SCRAM step 2" (finalStep first final)
  ioStep "send AuthenticationSASLFinal" x.sendFinal
  ioStep "flush AuthenticationSASLFinal" x.flushFinal

/-- The hash that PostgreSQL's md5 method sends. -/
def computeMD5Password (md5Hex : Text → Text) (user password salt : Text) : Text :=
  text "md5" ++ md5Hex (md5Hex (password ++ user) ++ salt)

/-- Nothing that is sent fails. -/
def Exchange.Works (x : Exchange) : Prop :=
  x.sendSASL = none ∧ x.flushSASL = none ∧ x.sendContinue = none ∧ x.flushContinue = none ∧
    x.sendFinal = none ∧ x.flushFinal = none

/-- The client sends these data in its two SASL messages. -/
def Exchange.Sends (x : Exchange) (first final : Text) : Prop :=
  (∃ mechanism, x.initial = .ok (.saslInitialResponse mechanism first)) ∧
    x.response = .ok (.saslResponse final)

/-- A sequence succeeds exactly if its parts do. -/
theorem bind_eq_ok {α β : Type} {x : Except Text α} {f : α → Except Text β} {b : β} :
    (x >>= f) = .ok b ↔ ∃ a, x = .ok a ∧ f a = .ok b := by
  cases x with
  | error err => simp [bind, Except.bind]
  | ok a => simp [bind, Except.bind]

/-- The kind of an error does not matter for success. -/
theorem mapError_eq_ok {α ε ε' : Type} {x : Except ε α} {f : ε → ε'} {a : α} :
    x.mapError f = .ok a ↔ x = .ok a := by
  cases x <;> simp [Except.mapError]

/-- A step that only may fail succeeds if there is no error. -/
theorem ioStep_eq_ok {step : String} {err : Option Text} {u : Unit} :
    ioStep step err = .ok u ↔ err = none := by
  cases err <;> simp [ioStep]

/-- A named step succeeds if the step does. -/
theorem atStep_eq_ok {α : Type} {step : String} {x : Except Text α} {a : α} :
    atStep step x = .ok a ↔ x = .ok a := by
  cases x <;> simp [atStep]

/-- The data of a first SASL message are those of such a message. -/
theorem initialData_eq_ok {message : AuthMessage} {data : Text} :
    initialData message = .ok data ↔ ∃ mechanism, message = .saslInitialResponse mechanism data := by
  cases message <;> simp [initialData]

/-- The data of a last SASL message are those of such a message. -/
theorem responseData_eq_ok {message : AuthMessage} {data : Text} :
    responseData message = .ok data ↔ message = .saslResponse data := by
  cases message <;> simp [responseData]

/-- The exchange succeeds exactly if nothing that is sent fails, the client sends the two messages, and
both steps of the conversation succeed. -/
theorem saslExchange_eq_ok {firstStep : Text → Except Text Text}
    {finalStep : Text → Text → Except Text Text} {x : Exchange} :
    saslExchange firstStep finalStep x = .ok () ↔
      x.Works ∧ ∃ first final, x.Sends first final ∧ (∃ reply, firstStep first = .ok reply) ∧
        ∃ reply, finalStep first final = .ok reply := by
  simp only [saslExchange, bind_eq_ok, ioStep_eq_ok, atStep_eq_ok, initialData_eq_ok,
    responseData_eq_ok, Exchange.Works, Exchange.Sends]
  constructor
  · intro h
    obtain ⟨-, hsend, -, hflush, _, hinitial, first, ⟨mechanism, rfl⟩, reply, hreply, -, hcontinue, -,
      hcontinueFlush, _, hresponse, final, rfl, last, hlast, -, hfinal, hfinalFlush⟩ := h
    exact ⟨⟨hsend, hflush, hcontinue, hcontinueFlush, hfinal, hfinalFlush⟩, first, final,
      ⟨⟨mechanism, hinitial⟩, hresponse⟩, ⟨reply, hreply⟩, last, hlast⟩
  · intro h
    obtain ⟨⟨hsend, hflush, hcontinue, hcontinueFlush, hfinal, hfinalFlush⟩, first, final,
      ⟨⟨mechanism, hinitial⟩, hresponse⟩, ⟨reply, hreply⟩, last, hlast⟩ := h
    exact ⟨(), hsend, (), hflush, _, hinitial, first, ⟨mechanism, rfl⟩, reply, hreply, (), hcontinue, (),
      hcontinueFlush, _, hresponse, final, rfl, last, hlast, (), hfinal, hfinalFlush⟩

namespace Authenticator

variable {Stored : Type*}

/-- The method of the server; it is plain unless another one is named. -/
def method (a : Authenticator Stored) : AuthMethod :=
  if a.cred.method = text "md5" then .md5
  else if a.cred.method = text "scram-sha-256" then .scramSHA256
  else .plain

/-- The error of an unknown user. -/
def unknownRole (user : Text) : AuthError :=
  ⟨some "28P01", text "role \"" ++ user ++ text "\" does not exist"⟩

/-- The check of a user and what is expected of the password. -/
def checkUser (a : Authenticator Stored) (user password expected : Text) : Except AuthError Unit :=
  if user ≠ a.cred.username then .error (unknownRole user)
  else if password ≠ expected then .error ⟨some "28P01", text "invalid password"⟩
  else .ok ()

/-- The credential callback of the SCRAM server. -/
def scramLookup (a : Authenticator Stored) (lib : ScramServer Stored) (stored : Stored)
    (username : Text) : Except Text Stored :=
  if username ≠ a.cred.username then .error lib.errUnknownUser else .ok stored

/-- The authentication of a client by the session. -/
def authenticate (a : Authenticator Stored) (lib : ScramServer Stored) (md5Hex : Text → Text)
    (c : Client) : Except AuthError Unit :=
  match a.method with
  | .md5 => a.checkUser c.user c.password (computeMD5Password md5Hex c.user a.cred.password c.md5Salt)
  | .scramSHA256 =>
    match a.scramCred with
    | none => .error ⟨some "28P01", text "SCRAM not configured"⟩
    | some stored =>
      (saslExchange (lib.firstStep (a.scramLookup lib stored) c.nonce)
        (lib.finalStep (a.scramLookup lib stored) c.nonce) c.exchange).mapError (AuthError.mk none)
  | .plain => a.checkUser c.user c.password a.cred.password

/-- Under SCRAM the client names the configured user in its first SCRAM message and proves to know the
password. -/
def Proven (a : Authenticator Stored) (lib : ScramServer Stored) (c : Client) : Prop :=
  a.method = .scramSHA256 ∧ c.exchange.Works ∧ ∃ stored first final, a.scramCred = some stored ∧
    c.exchange.Sends first final ∧ lib.name first = some a.cred.username ∧
    lib.proves stored c.nonce first final = true

/-- Two clients under SCRAM differ only in the names and the proofs of their SCRAM messages, and their
proofs are equally valid. -/
structure DifferInName (a : Authenticator Stored) (lib : ScramServer Stored) (stored : Stored)
    (c d : Client) (nameC nameD : Text) (valid : Bool) : Prop where
  method : a.method = .scramSHA256
  configured : a.scramCred = some stored
  user : c.user = d.user
  works : c.exchange.Works ↔ d.exchange.Works
  first : ∃ first final, c.exchange.Sends first final ∧ lib.name first = some nameC ∧
    lib.proves stored c.nonce first final = valid
  second : ∃ first final, d.exchange.Sends first final ∧ lib.name first = some nameD ∧
    lib.proves stored d.nonce first final = valid

variable {a : Authenticator Stored} {lib : ScramServer Stored} {md5Hex : Text → Text} {c d : Client}

/-- The check of a user succeeds for the configured user only. -/
theorem user_of_checkUser {user password expected : Text}
    (h : a.checkUser user password expected = .ok ()) : user = a.cred.username := by
  unfold checkUser at h
  split_ifs at h with huser hpassword
  exact not_not.mp huser

/-- The methods other than SCRAM accept the configured user only. -/
theorem user_of_authenticate (hmethod : a.method ≠ .scramSHA256)
    (h : a.authenticate lib md5Hex c = .ok ()) : c.user = a.cred.username := by
  unfold authenticate at h
  cases hm : a.method with
  | scramSHA256 => exact absurd hm hmethod
  | plain =>
    rw [hm] at h
    exact user_of_checkUser h
  | md5 =>
    rw [hm] at h
    exact user_of_checkUser h

/-- The callback finds credentials for the configured user only. -/
theorem scramLookup_eq_ok {stored found : Stored} {username : Text} :
    a.scramLookup lib stored username = .ok found ↔ username = a.cred.username ∧ found = stored := by
  unfold scramLookup
  split_ifs with h
  · simp [h]
  · simp [not_not.mp h, eq_comm]

/-- Under SCRAM a client is accepted exactly if it names the configured user and proves to know the
password. -/
theorem authenticate_scram (hmethod : a.method = .scramSHA256) :
    a.authenticate lib md5Hex c = .ok () ↔ a.Proven lib c := by
  unfold authenticate Proven
  rw [hmethod]
  cases a.scramCred with
  | none => simp
  | some stored =>
    dsimp only
    rw [mapError_eq_ok, saslExchange_eq_ok]
    simp only [lib.accepts_iff, scramLookup_eq_ok]
    constructor
    · intro h
      obtain ⟨hworks, first, final, hsends, _, _, hname, ⟨rfl, rfl⟩, hproves⟩ := h
      exact ⟨trivial, hworks, _, first, final, rfl, hsends, hname, hproves⟩
    · intro h
      obtain ⟨-, hworks, _, first, final, hstored, hsends, hname, hproves⟩ := h
      obtain rfl := Option.some.inj hstored
      exact ⟨hworks, first, final, hsends, _, _, hname, ⟨rfl, rfl⟩, hproves⟩

/-- What a client sends is determined. -/
theorem sends_unique {x : Exchange} {first final first' final' : Text} (h : x.Sends first final)
    (h' : x.Sends first' final') : first = first' ∧ final = final' := by
  obtain ⟨⟨_, hinitial⟩, hresponse⟩ := h
  obtain ⟨⟨_, hinitial'⟩, hresponse'⟩ := h'
  rw [hinitial] at hinitial'
  rw [hresponse] at hresponse'
  cases hinitial'
  cases hresponse'
  exact ⟨rfl, rfl⟩

/-- With known messages a client is proven exactly if they name the user and the proof is valid. -/
theorem proven_iff {stored : Stored} {name first final : Text} (hmethod : a.method = .scramSHA256)
    (hstored : a.scramCred = some stored) (hsends : c.exchange.Sends first final)
    (hname : lib.name first = some name) :
    a.Proven lib c ↔
      c.exchange.Works ∧ name = a.cred.username ∧ lib.proves stored c.nonce first final = true := by
  constructor
  · intro h
    obtain ⟨-, hworks, _, _, _, hstored', hsends', hname', hproves⟩ := h
    obtain rfl := Option.some.inj (hstored.symm.trans hstored')
    obtain ⟨rfl, rfl⟩ := sends_unique hsends hsends'
    exact ⟨hworks, Option.some.inj (hname.symm.trans hname'), hproves⟩
  · intro h
    obtain ⟨hworks, rfl, hproves⟩ := h
    exact ⟨hmethod, hworks, stored, first, final, hstored, hsends, hname, hproves⟩

/-- For every configuration, every SCRAM library that keeps its promise and every client: a client is
accepted only as the configured user exactly if it does not prove to be this user under SCRAM while it
named another one at startup; and two clients under SCRAM that differ only in the names of their SCRAM
messages and are equally valid fare the same exactly if, where nothing else fails, both or none of the
names are the configured one. -/
theorem startup_user_bound_iff (a : Authenticator Stored) (lib : ScramServer Stored)
    (md5Hex : Text → Text) (c : Client) :
    ((a.authenticate lib md5Hex c = .ok () → c.user = a.cred.username) ↔
      (a.Proven lib c → c.user = a.cred.username)) ∧
    ∀ (d : Client) (stored : Stored) (nameC nameD : Text) (valid : Bool),
      DifferInName a lib stored c d nameC nameD valid →
        ((a.authenticate lib md5Hex c = .ok () ↔ a.authenticate lib md5Hex d = .ok ()) ↔
          (c.exchange.Works → valid = true →
            (nameC = a.cred.username ↔ nameD = a.cred.username))) := by
  constructor
  · by_cases hmethod : a.method = .scramSHA256
    · rw [authenticate_scram hmethod]
    · exact iff_of_true (user_of_authenticate hmethod) fun h => absurd h.1 hmethod
  · intro d stored nameC nameD valid h
    obtain ⟨first, final, hsends, hname, hvalid⟩ := h.first
    obtain ⟨first', final', hsends', hname', hvalid'⟩ := h.second
    rw [authenticate_scram h.method, authenticate_scram h.method,
      proven_iff h.method h.configured hsends hname, proven_iff h.method h.configured hsends' hname',
      hvalid, hvalid', ← h.works]
    tauto

end Authenticator

/-- What the server takes from a client's first message. -/
structure ClientFirst where
  username : Text
  nonce : Text

/-- The value of an attribute of a SCRAM message. -/
def parseField (field : Text) (key : String) : Except Text Text :=
  if hasPrefix field (text key ++ text "=") then .ok (field.drop 2)
  else .error (text "error parsing '" ++ field ++ text "' for field '" ++ text key ++ text "'")

/-- The first message of a client that binds no channel: `n,,n=app,r=...`. -/
def parseClientFirst (message : Text) : Except Text ClientFirst :=
  match splitByte 0x2C message with
  | flag :: _ :: user :: nonce :: _ =>
    if flag = text "n" ∨ flag = text "y" then do
      let username ← parseField user "n"
      return ⟨username, ← parseField nonce "r"⟩
    else .error (text "error parsing '" ++ flag ++ text "' for gs2 flag")
  | _ => .error (text "not enough fields in first server message")

/-- The check of a client's last message, `c=biws,r=...,p=...`, by a server that binds no channel and takes
the password as the proof of itself. -/
def verifyPassword (stored nonce : Text) (first : ClientFirst) (message : Text) : Except Text Text :=
  match splitByte 0x2C message with
  | [binding, received, proof] => do
    let _ ← parseField binding "c"
    if (← parseField received "r") ≠ first.nonce ++ nonce then
      .error (text "nonce received did not match nonce sent")
    else if (← parseField proof "p") ≠ encodeToString stored then .error (text "challenge proof invalid")
    else .ok (text "v=" ++ encodeToString stored)
  | _ => .error (text "not enough fields in first server message")

/-- The conversation of a SCRAM server that checks passwords. -/
def passwordServer : ScramServer Text where
  errUnknownUser := text "e=unknown-user"
  name first := (parseClientFirst first).toOption.map ClientFirst.username
  proves stored nonce first final :=
    (parseClientFirst first).toOption.any fun msg => (verifyPassword stored nonce msg final).toBool
  firstStep lookup nonce first := do
    let msg ← parseClientFirst first
    let _ ← lookup msg.username
    return text "r=" ++ msg.nonce ++ nonce ++ text ",s=,i=4096"
  finalStep lookup nonce first final := do
    let msg ← parseClientFirst first
    verifyPassword (← lookup msg.username) nonce msg final
  accepts_iff lookup nonce first final := by
    cases hparse : parseClientFirst first with
    | error err => simp [Except.toOption, bind, Except.bind]
    | ok msg =>
      cases hlookup : lookup msg.username with
      | error err => simp [hlookup, Except.toOption, bind, Except.bind]
      | ok stored =>
        cases hverify : verifyPassword stored nonce msg final <;>
          simp [hlookup, hverify, Except.toOption, Except.toBool, bind, Except.bind, pure, Except.pure]

namespace Authenticator

/-- A server for the user `app` under SCRAM. -/
def appServer : Authenticator Text :=
  ⟨⟨text "app", text "secret", text "scram-sha-256"⟩, some (text "secret")⟩

/-- A client that starts up as one user, names another one in its SCRAM message and knows the
password. -/
def scramClient (user name : Text) : Client where
  user := user
  password := []
  md5Salt := []
  nonce := text "wxyz"
  exchange :=
    { initial := .ok (.saslInitialResponse (text "SCRAM-SHA-256")
        (text "n,,n=" ++ name ++ text ",r=abcd"))
      response := .ok (.saslResponse (text "c=biws,r=abcdwxyz,p=c2VjcmV0")) }

/-- Two clients that know the password and differ in the name of their SCRAM message. -/
theorem differInName_scramClient : DifferInName appServer passwordServer (text "secret")
    (scramClient (text "app") (text "x")) (scramClient (text "app") (text "y")) (text "x") (text "y")
    true where
  method := by decide
  configured := rfl
  user := rfl
  works := Iff.rfl
  first := ⟨_, _, ⟨⟨_, rfl⟩, rfl⟩, by decide, by decide⟩
  second := ⟨_, _, ⟨⟨_, rfl⟩, rfl⟩, by decide, by decide⟩

/-- Two clients with foreign names in their SCRAM messages fare the same. -/
theorem startup_user_bound_foreign :
    appServer.authenticate passwordServer id (scramClient (text "app") (text "x")) = .ok () ↔
      appServer.authenticate passwordServer id (scramClient (text "app") (text "y")) = .ok () := by
  refine ((startup_user_bound_iff appServer passwordServer id _).2 _ _ _ _ _
    differInName_scramClient).mpr ?_
  intro _ _
  decide

/-- The client that starts up as `admin` and names `app` in its SCRAM message is accepted. The client
that starts up as `app` and leaves the name of its SCRAM message empty is not, although it would be
with the name. -/
theorem startup_user_not_bound :
    initializeAuth (fun cred => .ok cred.password)
        ⟨text "scram-sha-256", text "app", text "secret"⟩ = .ok appServer ∧
      appServer.authenticate passwordServer id (scramClient (text "admin") (text "app")) = .ok () ∧
      (scramClient (text "admin") (text "app")).user ≠ appServer.cred.username ∧
      appServer.authenticate passwordServer id (scramClient (text "app") []) =
        .error ⟨none, text "SCRAM step 1: " ++ passwordServer.errUnknownUser⟩ ∧
      appServer.authenticate passwordServer id (scramClient (text "app") (text "app")) = .ok () := by
  refine ⟨rfl, ?_⟩
  decide

end Authenticator

end Grunyas.Auth
