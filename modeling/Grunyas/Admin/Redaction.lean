import Grunyas.Config.Config

/-!
# The configuration that the admin server shows

`handleConfig` marshals the configuration, decodes it into maps and walks through them: passwords are
masked, and of the tokens of the admin server only their number is left. `redaction_hides_secrets` says
that two configurations that differ in these secrets only are shown in the same way.
-/

namespace Grunyas.Admin

open GoText GoMap GoJson Grunyas.Config

/-- A marshalled struct. -/
def struct (fields : List (String × Json)) : Json := .object (fields.map fun field => (text field.1, field.2))

/-- A marshalled metrics endpoint. -/
def metricsJson (m : AdminMetricsConfig) : Json :=
  struct [("listen_addr", ofText m.listenAddr), ("auth_required", .bool m.authRequired),
    ("tls_enabled", .bool m.tlsEnabled)]

/-- A marshalled admin server. -/
def adminJson (a : AdminConfig) : Json :=
  struct [("listen_addr", ofText a.listenAddr), ("tls_enabled", .bool a.tlsEnabled),
    ("tls_cert_file", ofText a.tlsCertFile), ("tls_key_file", ofText a.tlsKeyFile),
    ("metrics", metricsJson a.metrics)]

/-- A marshalled port. -/
def portJson (p : PortConfig) : Json :=
  struct [("listen_addr", ofText p.listenAddr), ("pool_mode", ofText p.poolMode),
    ("ssl_mode", ofText p.sslMode), ("ssl_cert", ofText p.sslCert), ("ssl_key", ofText p.sslKey),
    ("post_write_window_ms", ofInt p.postWriteWindowMs), ("auto_upgrade", .bool p.autoUpgrade)]

/-- A marshalled map, which may be nil, with the entries visited in some order. -/
def mapJson {V : Type*} (encode : V → Json) (m : Option (Finmap fun _ : Text => V))
    (order : Range (m.getD ∅)) : Json :=
  if m.isNone then .null
  else objectOf ((sortedEntries order).map fun entry => (entry.1, encode entry.2))

/-- A marshalled list, which may be nil. -/
def listJson {V : Type*} (encode : V → Json) : Option (List V) → Json
  | none => .null
  | some items => .array (items.map encode)

/-- The marshalled tokens. -/
def tokensJson (a : AdminTokenConfig) (order : Range a.tokenMap) : Json :=
  struct [("tokens", mapJson (fun role => struct [("role", ofText role)]) a.tokens order)]

/-- A marshalled server, given its marshalled ports and tokens. -/
def serverJson (s : ServerConfig) (ports tokens : Json) : Json :=
  struct ([("admin", adminJson s.admin), ("max_sessions", ofInt s.maxSessions),
    ("client_idle_timeout", ofInt s.clientIdleTimeout),
    ("keep_alive_timeout", ofInt s.keepAliveTimeout),
    ("keep_alive_interval", ofInt s.keepAliveInterval), ("keep_alive_count", ofInt s.keepAliveCount),
    ("startup_probe_timeout_seconds", ofInt s.startupProbeTimeoutSeconds), ("ports", ports),
    ("pprof_addr", ofText s.pprofAddr), ("admin_tokens", tokens),
    ("decisions", struct [("max_subscribers", ofInt s.decisions.maxSubscribers),
      ("per_subscriber_buffer", ofInt s.decisions.perSubscriberBuffer)])] ++
    -- the legacy address is left out if it is empty
    if s.adminAddr = [] then [] else [("admin_addr", ofText s.adminAddr)])

/-- A marshalled connection of a node. -/
def connectionJson (n : NodeConnectionConfig) : Json :=
  struct [("user", ofText n.user), ("password", ofText n.password), ("database", ofText n.database),
    ("connect_timeout_seconds", ofInt n.connectTimeoutSeconds), ("ssl_mode", ofText n.sslMode)]

/-- A marshalled pool of a node. -/
def poolJson (p : NodePoolConfig) : Json :=
  struct [("min_conns", ofInt p.minConns), ("max_conns", ofInt p.maxConns),
    ("max_conn_lifetime", ofInt p.maxConnLifetime), ("max_conn_idle_time", ofInt p.maxConnIdleTime),
    ("health_check_period", ofInt p.healthCheckPeriod),
    ("acquire_timeout_seconds", ofInt p.acquireTimeoutSeconds)]

/-- A marshalled node. -/
def nodeJson (n : NodeConfig) : Json :=
  struct [("id", ofText n.id), ("host", ofText n.host), ("port", ofInt n.port),
    ("declared_role", ofText n.declaredRole), ("connection", connectionJson n.connection),
    ("pool", poolJson n.pool)]

/-- The marshalled probes. -/
def probeJson (p : ProbeConfig) : Json :=
  struct [("interval_ms", ofInt p.intervalMs),
    ("liveness_failure_count", ofInt p.livenessFailureCount),
    ("liveness_max_age_ms", ofInt p.livenessMaxAgeMs), ("role_max_age_ms", ofInt p.roleMaxAgeMs),
    ("lag_max_age_ms", ofInt p.lagMaxAgeMs)]

/-- The marshalled logs. -/
def loggingJson (l : LoggingConfig) : Json :=
  struct [("level", ofText l.level), ("development", .bool l.development)]

/-- The marshalled telemetry. -/
def telemetryJson (t : TelemetryConfig) : Json :=
  struct [("otlp_endpoint", ofText t.otlpEndpoint), ("insecure", .bool t.insecure),
    ("service_name", ofText t.serviceName)]

/-- The marshalled credentials. -/
def authJson (a : AuthConfig) : Json :=
  struct [("method", ofText a.method), ("username", ofText a.username), ("password", ofText a.password)]

/-- A marshalled parameter. -/
def parameterJson : ParameterValue → Option Json
  | .float64 v => some (.number v)
  | .int v => some (ofInt v)
  | .int64 v => some (ofInt v)
  | .string v => some (ofText v)
  | .bool v => some (.bool v)
  | .notFinite => none
  | .other json => json

/-- A marshalled policy; one without parameters has a nil map. -/
def policyJson (pol : PolicyConfig) : Option Json := do
  let sorted := pol.parameters.mergeSort fun a b => decide (a.1 ≤ b.1)
  let parameters ← sorted.mapM fun p => (parameterJson p.2).map fun json => (p.1, json)
  return struct [("name", ofText pol.name), ("template", ofText pol.template), ("scope", ofText pol.scope),
    ("parameters", if parameters = [] then .null else objectOf parameters),
    ("timing", struct [("dwell_ms", ofInt pol.dwellMs), ("release_ms", ofInt pol.releaseMs)])]

/-- The marshalled policies. -/
def policiesJson : Option (List PolicyConfig) → Option Json
  | none => some .null
  | some policies => (policies.mapM policyJson).map .array

/-- The configuration, marshalled and decoded. A parameter may have no JSON form. -/
def configJson (c : Config) (forPorts : Range c.server.portMap)
    (forTokens : Range c.server.adminTokens.tokenMap) : Option Json := do
  let policies ← policiesJson c.policies
  return struct [
    ("server", serverJson c.server (mapJson portJson c.server.ports forPorts)
      (tokensJson c.server.adminTokens forTokens)),
    ("nodes", listJson nodeJson c.nodes), ("probe", probeJson c.probe),
    ("logging", loggingJson c.logging), ("telemetry", telemetryJson c.telemetry),
    ("auth", authJson c.auth), ("policies", policies)]

/-- What takes the place of a field: a password that is not empty is masked, and the tokens of the admin
server are replaced by their number. -/
def redactField (tokenCount : ℕ) (name : Text) (value : Json) : Option Json :=
  if name = text "password" then
    match value with
    | .string s => some (.string (if s ≠ [] then text "***" else s))
    | other => some other
  else if name = text "admin_tokens" then
    match value with
    | .object fields => some (.object
        (setField (text "token_count") (.number tokenCount)
          (fields.filter fun field => field.1 != text "tokens")))
    | other => some other
  else none

/-- The `walkRedact` function. -/
def walkRedact (tokenCount : ℕ) (value : Json) : Json := value.rewrite (redactField tokenCount)

/-- The hashes of the tokens that the admin server accepts; an empty token is ignored. -/
def tokenHashes (hash : Text → Text) (a : AdminTokenConfig) : Finset Text :=
  (a.tokenMap.keys.filter fun token => token ≠ []).image hash

/-- An answer of the admin server. -/
structure Response where
  status : ℕ
  body : Json

/-- The answer that tells about an error. -/
def jsonError (status : ℕ) (code message : Text) : Response :=
  ⟨status, struct [("error", ofText code), ("message", ofText message)]⟩

/-- The `/config` handler. -/
def handleConfig (hash : Text → Text) (c : Config) (forPorts : Range c.server.portMap)
    (forTokens : Range c.server.adminTokens.tokenMap) : Response :=
  match configJson c forPorts forTokens with
  | none => jsonError 500 (text "internal_error") (text "failed to marshal config")
  | some json => ⟨200, walkRedact (tokenHashes hash c.server.adminTokens).card json⟩

/-- A node without its password. -/
def withoutPassword (n : NodeConfig) : NodeConfig :=
  { n with connection := { n.connection with password := [] } }

/-- A configuration without its secrets. -/
def withoutSecrets (c : Config) : Config :=
  { c with
    server := { c.server with adminTokens := {} }
    nodes := c.nodes.map (List.map withoutPassword)
    auth := { c.auth with password := [] } }

/-- Two passwords are equal or both set. -/
def SameOrSet (first second : Text) : Prop := first = second ∨ (first ≠ [] ∧ second ≠ [])

/-- The tokens that are not empty. -/
def realTokens (a : AdminTokenConfig) : Finset Text := a.tokenMap.keys.filter fun token => token ≠ []

/-- Two configurations are equal except for the values of passwords that are set, and for the tokens of
the admin server, of which they have the same number. -/
structure SameButSecrets (c d : Config) : Prop where
  rest : withoutSecrets c = withoutSecrets d
  auth : SameOrSet c.auth.password d.auth.password
  nodes : List.Forall₂ (fun a b => SameOrSet a.connection.password b.connection.password)
    (c.nodes.getD []) (d.nodes.getD [])
  tokens : (realTokens c.server.adminTokens).card = (realTokens d.server.adminTokens).card

variable {tokenCount : ℕ}

/-- What becomes of a field. -/
def redactedField (tokenCount : ℕ) (field : String × Json) : Text × Json :=
  (text field.1, (redactField tokenCount (text field.1) field.2).getD (walkRedact tokenCount field.2))

/-- Walking through a struct. -/
theorem walkRedact_struct (fields : List (String × Json)) :
    walkRedact tokenCount (struct fields) = .object (fields.map (redactedField tokenCount)) := by
  unfold walkRedact struct
  rw [Json.rewrite]
  congr 1
  induction fields with
  | nil => rfl
  | cons field rest ih =>
    rw [List.map_cons, rewriteFields, ih]
    rfl

/-- Walking through an array. -/
theorem walkRedact_array (items : List Json) :
    walkRedact tokenCount (.array items) = .array (items.map (walkRedact tokenCount)) := by
  unfold walkRedact
  rw [Json.rewrite, rewriteItems_eq_map]

/-- A field that is not replaced is walked through. -/
theorem redactedField_of_walk (name : String) {first second : Json}
    (hname : text name ≠ text "password" ∧ text name ≠ text "admin_tokens")
    (h : walkRedact tokenCount first = walkRedact tokenCount second) :
    redactedField tokenCount (name, first) = redactedField tokenCount (name, second) := by
  simp only [redactedField, redactField, if_neg hname.1, if_neg hname.2, Option.getD_none, h]

/-- Passwords that are equal or both set look the same. -/
theorem redactedField_password {first second : Text} (h : SameOrSet first second) :
    redactedField tokenCount ("password", ofText first) =
      redactedField tokenCount ("password", ofText second) := by
  rcases h with rfl | ⟨hfirst, hsecond⟩
  · rfl
  · simp [redactedField, redactField, ofText, validText_ne_nil hfirst, validText_ne_nil hsecond]

/-- Of the tokens their number is left. -/
theorem redactedField_tokens (a : AdminTokenConfig) (order : Range a.tokenMap) :
    redactedField tokenCount ("admin_tokens", tokensJson a order) =
      (text "admin_tokens", .object [(text "token_count", .number tokenCount)]) := rfl

/-- Credentials that differ in a set password look the same. -/
theorem walkRedact_auth {a b : AuthConfig}
    (hrest : { a with password := [] } = { b with password := [] })
    (h : SameOrSet a.password b.password) :
    walkRedact tokenCount (authJson a) = walkRedact tokenCount (authJson b) := by
  obtain ⟨method, username, first⟩ := a
  obtain ⟨_, _, second⟩ := b
  simp only [AuthConfig.mk.injEq] at hrest
  obtain ⟨rfl, rfl, -⟩ := hrest
  rw [authJson, authJson, walkRedact_struct, walkRedact_struct]
  simp only [List.map_cons, redactedField_password h]

/-- Nodes that differ in a set password look the same. -/
theorem walkRedact_node {a b : NodeConfig} (hrest : withoutPassword a = withoutPassword b)
    (h : SameOrSet a.connection.password b.connection.password) :
    walkRedact tokenCount (nodeJson a) = walkRedact tokenCount (nodeJson b) := by
  obtain ⟨id, host, port, declaredRole, ⟨user, first, database, timeout, sslMode⟩, pool⟩ := a
  obtain ⟨_, _, _, _, ⟨_, second, _, _, _⟩, _⟩ := b
  simp only [withoutPassword, NodeConfig.mk.injEq, NodeConnectionConfig.mk.injEq] at hrest
  obtain ⟨rfl, rfl, rfl, rfl, ⟨rfl, -, rfl, rfl, rfl⟩, rfl⟩ := hrest
  have hconnection : walkRedact tokenCount (connectionJson ⟨user, first, database, timeout, sslMode⟩) =
      walkRedact tokenCount (connectionJson ⟨user, second, database, timeout, sslMode⟩) := by
    rw [connectionJson, connectionJson, walkRedact_struct, walkRedact_struct]
    simp only [List.map_cons, redactedField_password h]
  rw [nodeJson, nodeJson, walkRedact_struct, walkRedact_struct]
  simp only [List.map_cons, redactedField_of_walk "connection" (by decide) hconnection]

/-- Lists of nodes that differ in set passwords look the same. -/
theorem walkRedact_nodes {first second : Option (List NodeConfig)}
    (hrest : first.map (List.map withoutPassword) = second.map (List.map withoutPassword))
    (h : List.Forall₂ (fun a b => SameOrSet a.connection.password b.connection.password)
      (first.getD []) (second.getD [])) :
    walkRedact tokenCount (listJson nodeJson first) = walkRedact tokenCount (listJson nodeJson second) := by
  cases first with
  | none =>
    cases second with
    | none => rfl
    | some items => cases hrest
  | some nodes =>
    cases second with
    | none => cases hrest
    | some others =>
      replace hrest : nodes.map withoutPassword = others.map withoutPassword := Option.some.inj hrest
      rw [listJson, listJson, walkRedact_array, walkRedact_array, List.map_map, List.map_map]
      congr 1
      replace h : List.Forall₂ _ nodes others := h
      induction h with
      | nil => rfl
      | cons hnode hnodes ih =>
        rw [List.map_cons, List.map_cons, List.cons.injEq] at hrest
        rw [List.map_cons, List.map_cons, ih hrest.2]
        exact congrArg (· :: _) (walkRedact_node hrest.1 hnode)

/-- A map is marshalled in the same way in whatever order it is visited. -/
theorem mapJson_eq {V : Type*} (encode : V → Json) {first second : Option (Finmap fun _ : Text => V)}
    (h : first = second) (forFirst : Range (first.getD ∅)) (forSecond : Range (second.getD ∅)) :
    mapJson encode first forFirst = mapJson encode second forSecond := by
  subst h
  rw [mapJson, mapJson, sortedEntries_eq forFirst forSecond]

/-- Servers that differ in their tokens look the same. -/
theorem walkRedact_server {s t : ServerConfig}
    (hrest : { s with adminTokens := {} } = { t with adminTokens := {} }) (ports : Json)
    (forS : Range s.adminTokens.tokenMap) (forT : Range t.adminTokens.tokenMap) :
    walkRedact tokenCount (serverJson s ports (tokensJson s.adminTokens forS)) =
      walkRedact tokenCount (serverJson t ports (tokensJson t.adminTokens forT)) := by
  cases s
  cases t
  simp only [ServerConfig.mk.injEq] at hrest
  obtain ⟨rfl, rfl, rfl, rfl, rfl, rfl, rfl, rfl, rfl, -, rfl, rfl, -⟩ := hrest
  rw [serverJson, serverJson, walkRedact_struct, walkRedact_struct]
  simp only [List.map_append, List.map_cons, redactedField_tokens]

/-- Tokens whose hashes do not collide are counted. -/
theorem card_tokenHashes {hash : Text → Text} {a : AdminTokenConfig}
    (h : Set.InjOn hash (realTokens a)) : (tokenHashes hash a).card = (realTokens a).card :=
  Finset.card_image_of_injOn h

/-- Configurations that differ in their secrets look the same. -/
theorem walkRedact_config (tokenCount : ℕ) {c d : Config} (h : SameButSecrets c d)
    (portsC : Range c.server.portMap) (tokensC : Range c.server.adminTokens.tokenMap)
    (portsD : Range d.server.portMap) (tokensD : Range d.server.adminTokens.tokenMap) :
    (configJson c portsC tokensC).map (walkRedact tokenCount) =
      (configJson d portsD tokensD).map (walkRedact tokenCount) := by
  have hprobe : c.probe = d.probe := (congrArg Config.probe h.rest :)
  have hlogging : c.logging = d.logging := (congrArg Config.logging h.rest :)
  have htelemetry : c.telemetry = d.telemetry := (congrArg Config.telemetry h.rest :)
  have hpolicies : c.policies = d.policies := (congrArg Config.policies h.rest :)
  have hserver := congrArg Config.server h.rest
  have hports : mapJson portJson c.server.ports portsC = mapJson portJson d.server.ports portsD :=
    mapJson_eq portJson (congrArg ServerConfig.ports hserver :) portsC portsD
  unfold configJson
  rw [hpolicies]
  cases policiesJson d.policies with
  | none => rfl
  | some policies =>
    refine congrArg some ?_
    rw [walkRedact_struct, walkRedact_struct]
    simp only [List.map_cons, hprobe, hlogging, htelemetry, hports,
      redactedField_of_walk "server" (by decide) (walkRedact_server hserver _ tokensC tokensD),
      redactedField_of_walk "nodes" (by decide)
        (walkRedact_nodes (congrArg Config.nodes h.rest) h.nodes),
      redactedField_of_walk "auth" (by decide) (walkRedact_auth (congrArg Config.auth h.rest) h.auth)]

/-- For every two configurations, with any numbers of nodes, ports, tokens and policies, that are equal
except for the values of passwords that are set and for the tokens of the admin server, of which they
have the same number, and whose hashes do not collide: `/config` gives the same answer for both, in
whatever orders their maps are visited. -/
theorem redaction_hides_secrets {c d : Config} (h : SameButSecrets c d) (hash : Text → Text)
    (hashC : Set.InjOn hash (realTokens c.server.adminTokens))
    (hashD : Set.InjOn hash (realTokens d.server.adminTokens))
    (portsC : Range c.server.portMap) (tokensC : Range c.server.adminTokens.tokenMap)
    (portsD : Range d.server.portMap) (tokensD : Range d.server.adminTokens.tokenMap) :
    handleConfig hash c portsC tokensC = handleConfig hash d portsD tokensD := by
  have hcount : (tokenHashes hash c.server.adminTokens).card =
      (tokenHashes hash d.server.adminTokens).card := by
    rw [card_tokenHashes hashC, card_tokenHashes hashD, h.tokens]
  have hjson := walkRedact_config (tokenHashes hash d.server.adminTokens).card h portsC tokensC
    portsD tokensD
  unfold handleConfig
  rw [hcount]
  cases hc : configJson c portsC tokensC with
  | none =>
    rw [hc, Option.map_none, eq_comm, Option.map_eq_none_iff] at hjson
    rw [hjson]
  | some json =>
    rw [hc, Option.map_some, eq_comm, Option.map_eq_some_iff] at hjson
    obtain ⟨other, hother, hsame⟩ := hjson
    rw [hother]
    exact congrArg (Response.mk 200) hsame.symm

/-- The defaults with a password for the clients and the node, and with a token. -/
def secretConfig (password token : Text) : Config :=
  { defaultConfig with
    server := { defaultConfig.server with
      adminTokens := ⟨some (Finmap.singleton token (text "admin"))⟩ }
    nodes := defaultConfig.nodes.map (List.map fun node =>
      { node with connection := { node.connection with password := password } })
    auth := { defaultConfig.auth with password := password } }

/-- Two configurations with different passwords and tokens are shown in the same way. -/
theorem redaction_hides_one_token :
    SameButSecrets (secretConfig (text "a") (text "t1")) (secretConfig (text "bb") (text "t2")) ∧
      handleConfig id (secretConfig (text "a") (text "t1")) ⟨[⟨text "write", defaultWritePort⟩], rfl⟩
          ⟨[⟨text "t1", text "admin"⟩], rfl⟩ =
        handleConfig id (secretConfig (text "bb") (text "t2")) ⟨[⟨text "write", defaultWritePort⟩], rfl⟩
          ⟨[⟨text "t2", text "admin"⟩], rfl⟩ := by
  have hsame : SameButSecrets (secretConfig (text "a") (text "t1")) (secretConfig (text "bb") (text "t2")) :=
    { rest := rfl
      auth := .inr (by decide)
      nodes := .cons (.inr (by decide)) .nil
      tokens := by decide }
  exact ⟨hsame, redaction_hides_secrets hsame id (Set.injOn_id _) (Set.injOn_id _) _ _ _ _⟩

end Grunyas.Admin
