import Grunyas.Admin.Redaction
import Grunyas.Decisions.Bus

/-!
# Who is served by the admin server

The router of the admin server, the middleware in front of its handlers, and the handler of the decision
stream. A route of the main listener is open, or it stands behind the check of a bearer token; the
metrics listener checks the token for everything or for nothing. The server keeps only the hashes of the
configured tokens, with their roles, and compares the hash of what a request presents.

Everything that the main listener serves goes through the middleware that counts requests, whose writer
records the status and does not flush. The handler of the decision stream asks for a writer that flushes,
so no request gets the stream (`decisions_not_streamed`).
-/

namespace Grunyas.Admin

open GoText GoMap GoJson Grunyas.Config Grunyas.Decisions

/-- The routes, with what the router takes from the path. -/
inductive Route where
  | healthz
  | metrics
  | state
  | nodes
  | node (id : Text)
  | pools
  | config
  | policies
  | policy (name : Text)
  | decisions
  deriving DecidableEq, Repr

/-- The main listener and the one for metrics. -/
inductive Listener where
  | main
  | metrics
  deriving DecidableEq, Repr

/-- A request: the listener it came to, the route of its path and method, if there is one, and its
`Authorization` header, which is empty if it is missing. -/
structure Request where
  listener : Listener
  route : Option Route
  authorization : Text
  deriving DecidableEq, Repr

/-- The routes that a listener has. -/
def Listener.mounts : Listener → Route → Bool
  | .main, _ => true
  | .metrics, route => route == .metrics || route == .healthz

/-- The routes that stand behind the check of a token. -/
def Listener.guards (cfg : AdminConfig) : Listener → Route → Bool
  | .main, .healthz => false
  | .main, .metrics => cfg.metrics.authRequired
  | .main, _ => true
  | .metrics, _ => cfg.metrics.authRequired

/-- One pass of the loop that fills the roles; an empty token is ignored. -/
def addRole (hash : Text → Text) (roles : Finmap fun _ : Text => Text)
    (entry : Sigma fun _ : Text => Text) : Finmap fun _ : Text => Text :=
  if entry.1 = [] then roles else roles.insert (hash entry.1) entry.2

/-- The roles of the configured tokens by the hash of the token: the map that `New` makes. -/
def tokenRoles (hash : Text → Text) (a : AdminTokenConfig) (order : Range a.tokenMap) :
    Finmap fun _ : Text => Text :=
  order.entries.foldl (addRole hash) ∅

/-- A byte with its upper case folded. -/
def foldByte (b : UInt8) : UInt8 := if 0x41 ≤ b ∧ b ≤ 0x5A then b + 0x20 else b

/-- The header starts with the scheme. This is `strings.EqualFold`, since no letter of the scheme has a
form outside ASCII. -/
def startsBearer (header : Text) : Bool := (header.take 7).map foldByte == text "bearer "

/-- The `extractBearerToken` function. -/
def extractBearerToken (header : Text) : Text :=
  if header.length < 7 ∨ startsBearer header = false then [] else trimSpace (header.drop 7)

/-- The writers: that of the HTTP server, and the `statusRecorder` around another one. -/
inductive ResponseWriter where
  | response
  | statusRecorder (inner : ResponseWriter)
  deriving DecidableEq, Repr

/-- The writer is a `Flusher`. That of the server is one; a `statusRecorder` embeds the interface
`ResponseWriter` and so has its methods only, whatever the writer inside it can do. -/
def ResponseWriter.isFlusher : ResponseWriter → Bool
  | .response => true
  | .statusRecorder _ => false

/-- The writer that `requestMetricsMiddleware` hands on. -/
def requestMetricsMiddleware (w : ResponseWriter) : ResponseWriter := .statusRecorder w

/-- The writer that the handlers of a listener get. -/
def Listener.writer : Listener → ResponseWriter
  | .main => requestMetricsMiddleware .response
  | .metrics => .response

/-- What becomes of a request: the middleware answers it, there is no route, or a handler gets it with a
writer. -/
inductive Dispatch where
  | refused (answer : Response)
  | notFound
  | handler (route : Route) (w : ResponseWriter)

/-- The `authMiddleware` function. -/
def authMiddleware (hash : Text → Text) (roles : Finmap fun _ : Text => Text) (header : Text)
    (next : Dispatch) : Dispatch :=
  let token := extractBearerToken header
  if token = [] then
    .refused (jsonError 401 (text "unauthorized") (text "missing authorization header"))
  else match roles.lookup (hash token) with
    | none => .refused (jsonError 401 (text "unauthorized") (text "invalid token"))
    | some role =>
      if role ≠ text "admin" then
        .refused (jsonError 403 (text "forbidden") (text "insufficient permissions"))
      else next

/-- The two routers of `Run`. The metrics listener checks the token before it looks for a route. -/
def dispatchRequest (cfg : AdminConfig) (hash : Text → Text) (roles : Finmap fun _ : Text => Text)
    (req : Request) : Dispatch :=
  match req.route.filter req.listener.mounts with
  | none =>
    if req.listener = .metrics ∧ cfg.metrics.authRequired = true then
      authMiddleware hash roles req.authorization .notFound
    else .notFound
  | some route =>
    let next := Dispatch.handler route req.listener.writer
    if req.listener.guards cfg route then authMiddleware hash roles req.authorization next else next

/-- The request presents a token: the scheme, and the token between white space. -/
def Presents (header token : Text) : Prop :=
  7 ≤ header.length ∧ startsBearer header = true ∧ trimSpace (header.drop 7) = token

/-- The request presents a configured token that is not empty and has the role of an admin. -/
def Authorized (a : AdminTokenConfig) (header : Text) : Prop :=
  ∃ token, token ≠ [] ∧ a.tokenMap.lookup token = some (text "admin") ∧ Presents header token

variable {hash : Text → Text} {a : AdminTokenConfig} {header token : Text}

/-- A token that is not empty is extracted exactly if it is presented. -/
theorem extractBearerToken_eq (htoken : token ≠ []) :
    extractBearerToken header = token ↔ Presents header token := by
  unfold extractBearerToken Presents
  split_ifs with hshort
  · refine iff_of_false (fun hnil => htoken hnil.symm) ?_
    intro hpresents
    rcases hshort with hshort | hshort
    · exact absurd hpresents.1 (Nat.not_le.mpr hshort)
    · simp [hshort] at hpresents
  · rw [not_or, Nat.not_lt, Bool.not_eq_false] at hshort
    exact ⟨fun htrim => ⟨hshort.1, hshort.2, htrim⟩, fun hpresents => hpresents.2.2⟩

/-- The token is accepted: the server has its hash, with the role of an admin. -/
def Granted (hash : Text → Text) (roles : Finmap fun _ : Text => Text) (header : Text) : Prop :=
  extractBearerToken header ≠ [] ∧
    roles.lookup (hash (extractBearerToken header)) = some (text "admin")

/-- The middleware lets a request through to a handler exactly if the token is accepted. -/
theorem authMiddleware_eq_handler {roles : Finmap fun _ : Text => Text} {next : Dispatch} {route : Route}
    {w : ResponseWriter} :
    authMiddleware hash roles header next = .handler route w ↔
      next = .handler route w ∧ Granted hash roles header := by
  unfold authMiddleware Granted
  dsimp only
  by_cases hempty : extractBearerToken header = []
  · simp [hempty]
  · rw [if_neg hempty]
    cases hrole : roles.lookup (hash (extractBearerToken header)) with
    | none => simp
    | some role =>
      by_cases hadmin : role = text "admin"
      · simp [hadmin, hempty]
      · simp [hadmin]

/-- A pass for another hash does not touch a role. -/
theorem lookup_addRole_of_ne {roles : Finmap fun _ : Text => Text} {entry : Sigma fun _ : Text => Text}
    {key : Text} (hne : entry.1 ≠ [] → hash entry.1 ≠ key) :
    (addRole hash roles entry).lookup key = roles.lookup key := by
  unfold addRole
  split_ifs with hempty
  · rfl
  · exact Finmap.lookup_insert_of_ne _ (hne hempty).symm

/-- The loop adds the hashes of the tokens that are not empty. -/
theorem mem_foldl_addRole {key : Text} (entries : List (Sigma fun _ : Text => Text))
    (roles : Finmap fun _ : Text => Text) :
    key ∈ entries.foldl (addRole hash) roles ↔
      key ∈ roles ∨ ∃ entry ∈ entries, entry.1 ≠ [] ∧ hash entry.1 = key := by
  induction entries generalizing roles with
  | nil => simp
  | cons entry rest ih =>
    rw [List.foldl_cons, ih]
    by_cases hempty : entry.1 = []
    · simp [addRole, hempty]
    · simp [addRole, hempty, or_assoc, or_left_comm, eq_comm]

/-- The role under the hash of a token is that of the token, if no other configured token has this
hash. -/
theorem lookup_tokenRoles (order : Range a.tokenMap) (htoken : token ≠ [])
    (hfree : ∀ other ∈ a.tokenMap.keys, hash other = hash token → other = token) :
    (tokenRoles hash a order).lookup (hash token) = a.tokenMap.lookup token := by
  have hsame (entry : Sigma fun _ : Text => Text) (hentry : entry ∈ order.entries)
      (hhash : hash entry.1 = hash token) : entry.1 = token := by
    have hlookup := order.mem_entries.mp hentry
    exact hfree entry.1 (Finmap.mem_keys.mpr (Finmap.mem_of_lookup_eq_some hlookup)) hhash
  cases hrole : a.tokenMap.lookup token with
  | none =>
    refine Finmap.lookup_eq_none.mpr fun hmem => ?_
    obtain hempty | ⟨entry, hentry, -, hhash⟩ := (mem_foldl_addRole _ _).mp hmem
    · exact Finmap.notMem_empty hempty
    · rw [← hsame entry hentry hhash, order.mem_entries.mp hentry] at hrole
      cases hrole
  | some role =>
    -- the pass for the token itself is the only one with its hash
    refine foldl_focus (fun _ => True) (fun roles : Finmap fun _ : Text => Text => roles.lookup (hash token))
      (fun _ => some role)
      (order.mem_entries.mpr hrole) order.nodup (fun _ _ _ _ => trivial) ?_ ?_ trivial
    · intro roles entry hentry hother
      refine lookup_addRole_of_ne fun _ hhash => hother ?_
      exact order.eq_of_key_eq hentry (order.mem_entries.mpr hrole) (hsame entry hentry hhash)
    · intro roles _
      rw [addRole, if_neg htoken, Finmap.lookup_insert]

/-- If hashes do not collide, the server accepts what the configuration authorizes. -/
theorem granted_iff_authorized (order : Range a.tokenMap)
    (hfree : Set.InjOn hash (insert (extractBearerToken header) ↑a.tokenMap.keys)) :
    Granted hash (tokenRoles hash a order) header ↔ Authorized a header := by
  have hlookup (hempty : extractBearerToken header ≠ []) :=
    lookup_tokenRoles order hempty fun other hother hhash =>
      hfree (Set.mem_insert_of_mem _ hother) (Set.mem_insert _ _) hhash
  constructor
  · intro h
    obtain ⟨hempty, hgranted⟩ := h
    rw [hlookup hempty] at hgranted
    exact ⟨_, hempty, hgranted, (extractBearerToken_eq hempty).mp rfl⟩
  · intro h
    obtain ⟨token, htoken, hrole, hpresents⟩ := h
    obtain rfl := (extractBearerToken_eq htoken).mpr hpresents
    exact ⟨htoken, (hlookup htoken).trans hrole⟩

/-- A handler gets a request exactly if it has the route of the handler, the listener has it, and the
token is accepted where it is checked. -/
theorem dispatchRequest_eq_handler {cfg : AdminConfig} {roles : Finmap fun _ : Text => Text}
    {req : Request} {route : Route} {w : ResponseWriter} :
    dispatchRequest cfg hash roles req = .handler route w ↔
      req.route = some route ∧ req.listener.mounts route = true ∧ req.listener.writer = w ∧
        (req.listener.guards cfg route = true → Granted hash roles req.authorization) := by
  unfold dispatchRequest
  cases hroute : req.route.filter req.listener.mounts with
  | none =>
    have hnone : ¬(req.route = some route ∧ req.listener.mounts route = true) :=
      fun hfound => by simp [hfound.1, hfound.2] at hroute
    -- the metrics listener may still check the token, but then there is no handler behind the check
    refine iff_of_false ?_ fun hreached => hnone ⟨hreached.1, hreached.2.1⟩
    dsimp only
    split_ifs
    · rw [authMiddleware_eq_handler]
      exact fun hnext => nomatch hnext.1
    · exact nofun
  | some found =>
    obtain ⟨hfound, hmounts⟩ := Option.filter_eq_some_iff.mp hroute
    dsimp only
    split_ifs with hguards
    · rw [authMiddleware_eq_handler]
      constructor
      · intro h
        obtain ⟨hnext, hgranted⟩ := h
        obtain ⟨rfl, rfl⟩ := Dispatch.handler.inj hnext
        exact ⟨hfound, hmounts, rfl, fun _ => hgranted⟩
      · intro h
        obtain ⟨hsame, -, rfl, hgranted⟩ := h
        obtain rfl := Option.some.inj (hfound.symm.trans hsame)
        exact ⟨rfl, hgranted hguards⟩
    · constructor
      · intro hnext
        obtain ⟨rfl, rfl⟩ := Dispatch.handler.inj hnext
        exact ⟨hfound, hmounts, rfl, fun hguarded => absurd hguarded hguards⟩
      · intro h
        obtain ⟨hsame, -, rfl, -⟩ := h
        obtain rfl := Option.some.inj (hfound.symm.trans hsame)
        rfl

/-- A handler is reached exactly on a route of the listener that is open or for which the request
presents a configured token of an admin, as long as the token presented and the configured ones have
different hashes. A token with another role, or with none, opens nothing. -/
theorem handler_reached_iff (s : ServerConfig) (order : Range s.adminTokens.tokenMap) (req : Request)
    (route : Route)
    (hfree : Set.InjOn hash (insert (extractBearerToken req.authorization) ↑s.adminTokens.tokenMap.keys)) :
    (∃ w, dispatchRequest s.admin hash (tokenRoles hash s.adminTokens order) req =
        .handler route w) ↔
      req.route = some route ∧ req.listener.mounts route = true ∧
        (req.listener.guards s.admin route = true → Authorized s.adminTokens req.authorization) := by
  simp only [dispatchRequest_eq_handler, granted_iff_authorized order hfree]
  constructor
  · intro h
    obtain ⟨w, hroute, hmounts, -, hguards⟩ := h
    exact ⟨hroute, hmounts, hguards⟩
  · intro h
    obtain ⟨hroute, hmounts, hguards⟩ := h
    exact ⟨req.listener.writer, hroute, hmounts, rfl, hguards⟩

/-- A server with one token of an admin. -/
def oneTokenServer : ServerConfig :=
  { defaultConfig.server with adminTokens := ⟨some (Finmap.singleton (text "s3cret") (text "admin"))⟩ }

/-- The token, with the scheme in lower case and white space around it. -/
def stateRequest : Request := ⟨.main, some .state, text "bearer  s3cret "⟩

/-- It is answered by a server that keeps the token reversed as its hash. -/
theorem handler_reached_state :
    text "s3cret" ≠ (text "s3cret").reverse ∧
      ∃ w, dispatchRequest oneTokenServer.admin List.reverse
        (tokenRoles List.reverse oneTokenServer.adminTokens ⟨[⟨text "s3cret", text "admin"⟩], rfl⟩)
        stateRequest = .handler .state w :=
  ⟨by decide, (handler_reached_iff oneTokenServer _ stateRequest .state
    List.reverse_injective.injOn).mpr
      ⟨rfl, rfl, fun _ => ⟨text "s3cret", by decide, by decide, by decide, by decide, by decide⟩⟩⟩

/-- An answer: a response, that there is no such route, what the handler of a route writes, or the stream
of a subscription; the handler may also panic. -/
inductive Answer where
  | reply (response : Response)
  | notFound
  | served (route : Route)
  | stream (ref : ℕ)
  | panicked

variable {Value : Type}

/-- The `handleDecisionsSSE` function up to the loop that writes the stream, with the bus that it leaves
behind. It subscribes while no call of `Publish` holds the lock. -/
def handleDecisionsSSE (cfg : DecisionsConfig) (bus : Option (Bus Value)) (w : ResponseWriter) :
    Option (Bus Value) × Answer :=
  match bus with
  | none => (none, .reply (jsonError 503 (text "unavailable") (text "decisions bus not configured")))
  | some b =>
    if w.isFlusher = false then
      (some b, .reply
        (jsonError 500 (text "internal_error") (text "response writer does not support flushing")))
    else if b.closed ∨ b.maxSubs ≤ b.subscribers.keys.card then
      (some b.subscribe, .reply ⟨503, struct [("error", ofText (text "max_subscribers")),
        ("limit", ofInt cfg.maxSubscribers)]⟩)
    else if b.bufSize < 0 then (some b.subscribe, .panicked)
    else (some b.subscribe, .stream b.subs.length)

/-- The server answers a request. -/
def serveRequest (s : ServerConfig) (hash : Text → Text) (roles : Finmap fun _ : Text => Text)
    (bus : Option (Bus Value)) (req : Request) : Option (Bus Value) × Answer :=
  match dispatchRequest s.admin hash roles req with
  | .refused response => (bus, .reply response)
  | .notFound => (bus, .notFound)
  | .handler .decisions w => handleDecisionsSSE s.decisions bus w
  | .handler route _ => (bus, .served route)

/-- What happens around the bus: others move on it, and the admin server gets requests. -/
inductive AdminEvent (Value : Type) where
  | other (move : BusMove Value)
  | request (req : Request)

/-- The move of others, if it is one. -/
def AdminEvent.move? : AdminEvent Value → Option (BusMove Value)
  | .other move => some move
  | .request _ => none

/-- The bus after a run, and the answers of the admin server. -/
def serveAll (s : ServerConfig) (hash : Text → Text) (roles : Finmap fun _ : Text => Text) :
    Option (Bus Value) → List (AdminEvent Value) → Option (Bus Value) × List Answer
  | bus, [] => (bus, [])
  | bus, .other move :: rest => serveAll s hash roles (bus.map (·.step move)) rest
  | bus, .request req :: rest =>
    let served := serveRequest s hash roles bus req
    let after := serveAll s hash roles served.1 rest
    (after.1, served.2 :: after.2)

/-- The handler of the decision stream gets the writer that records the status: the metrics listener does
not have its route. -/
theorem writer_of_decisions {cfg : AdminConfig} {roles : Finmap fun _ : Text => Text} {req : Request}
    {w : ResponseWriter} (hreached : dispatchRequest cfg hash roles req = .handler .decisions w) :
    w.isFlusher = false := by
  obtain ⟨-, hmounts, rfl, -⟩ := dispatchRequest_eq_handler.mp hreached
  cases hlistener : req.listener with
  | main => rfl
  | metrics => simp [hlistener, Listener.mounts] at hmounts

/-- Without a writer that flushes, the handler answers before it subscribes. -/
theorem handleDecisionsSSE_spec (cfg : DecisionsConfig) (bus : Option (Bus Value)) {w : ResponseWriter}
    (hw : w.isFlusher = false) :
    (handleDecisionsSSE cfg bus w).1 = bus ∧ ∀ ref, (handleDecisionsSSE cfg bus w).2 ≠ .stream ref := by
  cases bus with
  | none => exact ⟨rfl, fun _ => nofun⟩
  | some b =>
    simp only [handleDecisionsSSE, if_pos hw]
    exact ⟨trivial, fun _ => nofun⟩

/-- A request leaves the bus alone and is not answered with a stream. -/
theorem serveRequest_spec (s : ServerConfig) (hash : Text → Text) (roles : Finmap fun _ : Text => Text)
    (bus : Option (Bus Value)) (req : Request) :
    (serveRequest s hash roles bus req).1 = bus ∧
      ∀ ref, (serveRequest s hash roles bus req).2 ≠ .stream ref := by
  unfold serveRequest
  split
  · exact ⟨rfl, fun _ => nofun⟩
  · exact ⟨rfl, fun _ => nofun⟩
  · next hreached => exact handleDecisionsSSE_spec s.decisions bus (writer_of_decisions hreached)
  · exact ⟨rfl, fun _ => nofun⟩

/-- However requests come between the moves of others, the bus is as if none had come, so that the admin
server has no subscription, and no request is answered with the stream of decisions. -/
theorem decisions_not_streamed (s : ServerConfig) (hash : Text → Text)
    (roles : Finmap fun _ : Text => Text) (events : List (AdminEvent Value)) (bus : Option (Bus Value)) :
    (serveAll s hash roles bus events).1 =
        bus.map (fun b => (events.filterMap AdminEvent.move?).foldl Bus.step b) ∧
      ∀ ref, Answer.stream ref ∉ (serveAll s hash roles bus events).2 := by
  induction events generalizing bus with
  | nil =>
    refine ⟨?_, fun _ => List.not_mem_nil⟩
    cases bus <;> rfl
  | cons event rest ih =>
    cases event with
    | other move =>
      obtain ⟨hbus, hanswers⟩ := ih (bus.map (·.step move))
      refine ⟨hbus.trans ?_, hanswers⟩
      rw [Option.map_map]
      rfl
    | request req =>
      obtain ⟨hsame, hanswer⟩ := serveRequest_spec s hash roles bus req
      obtain ⟨hbus, hanswers⟩ := ih (serveRequest s hash roles bus req).1
      refine ⟨hbus.trans (by rw [hsame]; rfl), fun ref hmem => ?_⟩
      rcases List.mem_cons.mp hmem with hhead | htail
      · exact hanswer ref hhead.symm
      · exact hanswers ref htail

end Grunyas.Admin
