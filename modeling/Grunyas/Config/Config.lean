import Grunyas.Config.Policies
import Grunyas.Go.Net
import Grunyas.Session.Startup

/-!
# The configuration

The whole configuration with its defaults, `Normalize`, which derives the fields of the first release
from the write port, and `Validate`, which collects the errors of every section. The pool mode of the
first release is derived from the write port alone; a session falls back to it. `Config.ports_of_valid`
says what `Validate` asks of the ports, and `defaultConfig_valid` that the defaults pass.

The levels that the logging library knows and Go's quoting of a string in an error message are
parameters.
-/

set_option linter.dupNamespace false

namespace Grunyas.Config

open GoText GoMap GoNet

/-- The metrics endpoint. -/
structure AdminMetricsConfig where
  listenAddr : Text := []
  authRequired : Bool := false
  tlsEnabled : Bool := false
  deriving DecidableEq

/-- The admin server. -/
structure AdminConfig where
  listenAddr : Text := text "127.0.0.1:5712"
  tlsEnabled : Bool := false
  tlsCertFile : Text := []
  tlsKeyFile : Text := []
  metrics : AdminMetricsConfig := {}
  deriving DecidableEq

/-- One listen port. -/
structure PortConfig where
  listenAddr : Text
  poolMode : Text := []
  sslMode : Text := []
  sslCert : Text := []
  sslKey : Text := []
  postWriteWindowMs : ℤ := 0
  autoUpgrade : Bool := false
  deriving DecidableEq

/-- The bearer tokens of the admin server with their roles; the map may be nil. -/
structure AdminTokenConfig where
  tokens : Option (Finmap fun _ : Text => Text) := none

/-- The stream of decisions. -/
structure DecisionsConfig where
  maxSubscribers : ℤ := 0
  perSubscriberBuffer : ℤ := 0
  deriving DecidableEq

/-- The server. The map of the ports may be nil. The fields from `derivedListenAddr` on are derived; a
pool mode that is not derived is none. -/
structure ServerConfig where
  admin : AdminConfig := {}
  maxSessions : ℤ
  clientIdleTimeout : ℤ
  keepAliveTimeout : ℤ
  keepAliveInterval : ℤ
  keepAliveCount : ℤ
  startupProbeTimeoutSeconds : ℤ
  ports : Option (Finmap fun _ : Text => PortConfig)
  pprofAddr : Text := []
  adminTokens : AdminTokenConfig := {}
  decisions : DecisionsConfig := {}
  adminAddr : Text := []
  derivedListenAddr : Text := []
  derivedPoolMode : Option Server.PoolMode := none
  derivedSSLMode : Text := []
  derivedSSLCert : Text := []
  derivedSSLKey : Text := []

/-- The connection of a node. -/
structure NodeConnectionConfig where
  user : Text
  password : Text
  database : Text
  connectTimeoutSeconds : ℤ
  sslMode : Text
  deriving DecidableEq

/-- The pool of a node. -/
structure NodePoolConfig where
  minConns : ℤ
  maxConns : ℤ
  maxConnLifetime : ℤ
  maxConnIdleTime : ℤ
  healthCheckPeriod : ℤ
  acquireTimeoutSeconds : ℤ := 0
  deriving DecidableEq

/-- One node of the cluster. -/
structure NodeConfig where
  id : Text
  host : Text
  port : ℤ
  declaredRole : Text
  connection : NodeConnectionConfig
  pool : NodePoolConfig
  deriving DecidableEq

/-- The probes. -/
structure ProbeConfig where
  intervalMs : ℤ := 1000
  livenessFailureCount : ℤ := 3
  livenessMaxAgeMs : ℤ := 5000
  roleMaxAgeMs : ℤ := 5000
  lagMaxAgeMs : ℤ := 2000
  deriving DecidableEq

/-- The logs. -/
structure LoggingConfig where
  level : Text
  development : Bool
  deriving DecidableEq

/-- The telemetry. -/
structure TelemetryConfig where
  otlpEndpoint : Text := []
  insecure : Bool := false
  serviceName : Text
  deriving DecidableEq

/-- The credentials of the clients. -/
structure AuthConfig where
  method : Text
  username : Text
  password : Text
  deriving DecidableEq

/-- The configuration; the lists may be nil. -/
structure Config where
  server : ServerConfig
  nodes : Option (List NodeConfig)
  probe : ProbeConfig := {}
  logging : LoggingConfig
  telemetry : TelemetryConfig
  auth : AuthConfig
  policies : Option (List PolicyConfig) := none

/-- The ports as a map that can be read. -/
def ServerConfig.portMap (s : ServerConfig) : Finmap fun _ : Text => PortConfig := s.ports.getD ∅

/-- The tokens as a map that can be read. -/
def AdminTokenConfig.tokenMap (a : AdminTokenConfig) : Finmap fun _ : Text => Text := a.tokens.getD ∅

/-- The write port. -/
def ServerConfig.getWritePort (s : ServerConfig) : Option PortConfig := s.portMap.lookup (text "write")

/-- The pool mode of the write port; it defaults to session mode. -/
def ServerConfig.getWritePoolMode (s : ServerConfig) : Server.PoolMode :=
  (s.getWritePort.bind fun port => Server.poolModeFromString port.poolMode).getD .session

/-- Populate the derived fields and the defaults that the decoder leaves at zero. -/
def Config.normalize (c : Config) : Config :=
  let s := match c.server.getWritePort with
    | some write => { c.server with
        derivedListenAddr := write.listenAddr
        derivedSSLMode := write.sslMode
        derivedSSLCert := write.sslCert
        derivedSSLKey := write.sslKey
        derivedPoolMode := some c.server.getWritePoolMode }
    | none => c.server
  let d := s.decisions
  let listenAddr :=
    if s.admin.listenAddr = [] ∧ s.adminAddr ≠ [] then s.adminAddr
    else if s.admin.listenAddr = [] then ({} : AdminConfig).listenAddr
    else s.admin.listenAddr
  { c with server := { s with
      decisions := ⟨if d.maxSubscribers = 0 then 64 else d.maxSubscribers,
        if d.perSubscriberBuffer = 0 then 256 else d.perSubscriberBuffer⟩
      admin := { s.admin with listenAddr := listenAddr } } }

/-- The write port that is served where no file says otherwise. -/
def defaultWritePort : PortConfig where
  listenAddr := text "127.0.0.1:5711"
  poolMode := text "session"
  sslMode := text "never"

/-- The configuration that is used where no file says otherwise, before `Normalize`. -/
def defaultConfig : Config where
  server := {
    adminAddr := text "127.0.0.1:5712"
    maxSessions := 1000
    clientIdleTimeout := 300
    keepAliveTimeout := 15
    keepAliveInterval := 15
    keepAliveCount := 9
    startupProbeTimeoutSeconds := 10
    ports := some (Finmap.singleton (text "write") defaultWritePort) }
  nodes := some [{
    id := text "primary-1"
    host := text "localhost"
    port := 5432
    declaredRole := text "primary"
    connection := ⟨text "postgres", text "postgres", text "postgres", 5, text "disable"⟩
    pool := { minConns := 2, maxConns := 10, maxConnLifetime := 3600, maxConnIdleTime := 1800,
              healthCheckPeriod := 60 } }]
  logging := ⟨text "info", true⟩
  telemetry := { serviceName := text "grunyas" }
  auth := ⟨text "md5", text "postgres", text "postgres"⟩

/-- An error if a check fails. -/
def failIf (fails : Prop) [Decidable fails] (message : Text) : List Text :=
  if fails then [message] else []

/-- The error of a field that must not be negative. -/
def nonNegative (field : Text) (value : ℤ) : List Text :=
  failIf (value < 0) (field ++ text " must be >= 0")

/-- The error of a string that must not be empty. -/
def required (field value : Text) : List Text := failIf (value = []) (field ++ text " is required")

/-- The error of an address. -/
def validateHostPort (field value : Text) : List Text :=
  if value = [] then [field ++ text " is required"]
  else match splitHostPort value with
    | .error err => [field ++ text " must be formatted as host:port: " ++ err]
    | .ok _ => []

/-- What the validation takes from libraries: the error of a level of the logs, and the quoted form of a
string. -/
structure Library where
  levelError : Text → Option Text
  quote : Text → Text

/-- The errors of the logs, the telemetry and the credentials. -/
def Config.generalErrors (lib : Library) (c : Config) : List Text :=
  (match lib.levelError c.logging.level with
    | some err => [text "logging.level: " ++ err]
    | none => []) ++
  (if c.telemetry.otlpEndpoint = [] then []
    else match splitHostPort c.telemetry.otlpEndpoint with
      | .error err => [text "telemetry.otlp_endpoint must be host:port: " ++ err]
      | .ok _ => []) ++
  failIf ([text "plain", text "md5", text "scram-sha-256"].contains (toLower c.auth.method) = false)
    (text "auth.method must be one of: plain, md5, scram-sha-256") ++
  required (text "auth.username") c.auth.username ++
  required (text "auth.password") c.auth.password

/-- The errors of the admin server and of the numbers of the server. -/
def ServerConfig.errors (s : ServerConfig) : List Text :=
  validateHostPort (text "server.admin.listen_addr") s.admin.listenAddr ++
  (if s.admin.tlsEnabled then
    failIf (s.admin.tlsCertFile = [])
      (text "server.admin.tls_cert_file is required when tls_enabled is true") ++
    failIf (s.admin.tlsKeyFile = [])
      (text "server.admin.tls_key_file is required when tls_enabled is true") else []) ++
  nonNegative (text "server.max_sessions") s.maxSessions ++
  nonNegative (text "server.client_idle_timeout") s.clientIdleTimeout ++
  nonNegative (text "server.keep_alive_timeout") s.keepAliveTimeout ++
  nonNegative (text "server.keep_alive_interval") s.keepAliveInterval ++
  nonNegative (text "server.keep_alive_count") s.keepAliveCount ++
  nonNegative (text "server.startup_probe_timeout_seconds") s.startupProbeTimeoutSeconds

/-- The errors of one port. -/
def PortConfig.errors (lib : Library) (portID : Text) (port : PortConfig) : List Text :=
  let field (name : String) : Text := text "server.ports." ++ portID ++ text name
  validateHostPort (field ".listen_addr") port.listenAddr ++
  failIf (Server.poolModeFromString port.poolMode = none)
    (field ".pool_mode must be one of: session, transaction (got " ++ lib.quote port.poolMode ++
      text ")") ++
  (let mode := toLower port.sslMode
    if mode = [] ∨ mode = text "never" then []
    else if mode = text "optional" ∨ mode = text "mandatory" then
      failIf (port.sslCert = [])
        (field ".ssl_cert is required when ssl_mode is optional or mandatory") ++
      failIf (port.sslKey = [])
        (field ".ssl_key is required when ssl_mode is optional or mandatory")
    else [field ".ssl_mode must be one of: never, optional, mandatory"])

/-- The errors of the ports, visited in some order. -/
def ServerConfig.portErrors (lib : Library) (s : ServerConfig) (order : Range s.portMap) : List Text :=
  failIf (order.entries = []) (text "server.ports is required") ++
  failIf (s.portMap.lookup (text "write") = none) (text "server.ports.write is required") ++
  order.entries.flatMap fun entry => entry.2.errors lib entry.1

/-- A rune that an identifier of a node may have. -/
def isNodeRune (r : ℕ) : Bool := (0x61 ≤ r && r ≤ 0x7A) || (0x30 ≤ r && r ≤ 0x39) || r == 0x2D

/-- The `host:port` text of a node. -/
def NodeConfig.hostPort (node : NodeConfig) : Text := node.host ++ text ":" ++ formatInt node.port

/-- The errors of one node, given the identifiers and addresses of those before it. -/
def NodeConfig.errors (seenIDs seenHostPorts : List Text) (i : ℕ) (node : NodeConfig) : List Text :=
  let field (name : String) : Text := text "nodes[" ++ formatInt i ++ text "]" ++ text name
  (if node.id = [] then [field ".id is required"]
    else if seenIDs.contains node.id then [field ".id '" ++ node.id ++ text "' is duplicate"]
    else failIf ((runes node.id).all isNodeRune = false)
      (field ".id must be lowercase URL-safe (a-z0-9-)")) ++
  required (field ".host") node.host ++
  failIf (node.port ≤ 0 ∨ 65535 < node.port) (field ".port must be in the range 1-65535") ++
  failIf (seenHostPorts.contains node.hostPort = true)
    (field " host:port tuple '" ++ node.hostPort ++ text "' is duplicate") ++
  failIf (toLower node.declaredRole ≠ text "primary" ∧ toLower node.declaredRole ≠ text "replica")
    (field ".declared_role must be 'primary' or 'replica', got '" ++ node.declaredRole ++ text "'") ++
  required (field ".connection.user") node.connection.user ++
  required (field ".connection.database") node.connection.database ++
  nonNegative (field ".connection.connect_timeout_seconds") node.connection.connectTimeoutSeconds ++
  failIf (node.connection.sslMode ≠ [] ∧ node.connection.sslMode ≠ text "disable")
    (field ".connection.ssl_mode must be 'disable' in M1") ++
  nonNegative (field ".pool.min_conns") node.pool.minConns ++
  failIf (node.pool.maxConns ≤ 0) (field ".pool.max_conns must be > 0") ++
  failIf (node.pool.maxConns < node.pool.minConns)
    (field ".pool.min_conns must be <= pool.max_conns") ++
  nonNegative (field ".pool.max_conn_lifetime") node.pool.maxConnLifetime ++
  nonNegative (field ".pool.max_conn_idle_time") node.pool.maxConnIdleTime ++
  nonNegative (field ".pool.health_check_period") node.pool.healthCheckPeriod

/-- The errors of the nodes from some place on. -/
def nodeErrorsFrom (seenIDs seenHostPorts : List Text) (i : ℕ) : List NodeConfig → List Text
  | [] => []
  | node :: rest =>
    node.errors seenIDs seenHostPorts i ++
      nodeErrorsFrom (if node.id = [] then seenIDs else node.id :: seenIDs)
        (node.hostPort :: seenHostPorts) (i + 1) rest

/-- The errors of the nodes. -/
def nodeErrors (nodes : List NodeConfig) : List Text :=
  let primaryCount := nodes.countP fun node => toLower node.declaredRole == text "primary"
  failIf (nodes = []) (text "nodes must contain at least one entry") ++
  nodeErrorsFrom [] [] 0 nodes ++
  failIf (primaryCount ≠ 1)
    (text "exactly one node with declared_role='primary' required, got " ++ formatInt primaryCount)

/-- The errors of the probes. -/
def ProbeConfig.errors (p : ProbeConfig) : List Text :=
  failIf (p.intervalMs < 100) (text "probe.interval_ms must be >= 100") ++
  nonNegative (text "probe.liveness_failure_count") p.livenessFailureCount ++
  nonNegative (text "probe.liveness_max_age_ms") p.livenessMaxAgeMs ++
  nonNegative (text "probe.role_max_age_ms") p.roleMaxAgeMs

/-- The errors of a token and its role. -/
def tokenErrors (lib : Library) (token role : Text) : List Text :=
  failIf (token = []) (text "server.admin_tokens.tokens: token must not be empty") ++
  failIf (role ≠ [] ∧ role ≠ text "admin")
    (text "server.admin_tokens.tokens: role must be \"admin\", got " ++ lib.quote role)

/-- The error of the compat port, which cannot be served in session mode. -/
def ServerConfig.compatErrors (s : ServerConfig) : List Text :=
  match s.portMap.lookup (text "compat") with
  | some compat => failIf (toLower compat.poolMode = text "session")
      (text "server.ports.compat.pool_mode cannot be 'session'")
  | none => []

/-- The errors of a configuration, with the ports and the tokens visited in some orders. -/
def Config.errors (lib : Library) (c : Config) (forPorts : Range c.server.portMap)
    (forTokens : Range c.server.adminTokens.tokenMap) : List Text :=
  c.generalErrors lib ++ c.server.errors ++ c.server.portErrors lib forPorts ++
  nodeErrors (c.nodes.getD []) ++ c.probe.errors ++
  (forTokens.entries.flatMap fun entry => tokenErrors lib entry.1 entry.2) ++
  policyErrors c.probe.intervalMs (c.policies.getD []) ++ c.server.compatErrors

/-- The `Validate` function. -/
def Config.validate (lib : Library) (c : Config) (forPorts : Range c.server.portMap)
    (forTokens : Range c.server.adminTokens.tokenMap) : Option Text :=
  let errs := c.errors lib forPorts forTokens
  if errs = [] then none
  else some (text "config validation failed: " ++ (text "; ").intercalate errs)

/-- A check without an error passes. -/
@[simp] theorem failIf_eq_nil {fails : Prop} [Decidable fails] {message : Text} :
    failIf fails message = [] ↔ ¬fails := by
  unfold failIf
  split_ifs with h <;> simp [h]

section Valid

variable {lib : Library} {c : Config} {forPorts : Range c.server.portMap}
  {forTokens : Range c.server.adminTokens.tokenMap}

/-- Validation succeeds if nothing was collected. -/
theorem Config.validate_eq_none :
    c.validate lib forPorts forTokens = none ↔ c.errors lib forPorts forTokens = [] := by
  unfold Config.validate
  dsimp only
  split_ifs with h <;> simp [h]

/-- In a valid configuration there is a write port, every port has a pool mode, and that of the compat
port is not written as session mode. -/
theorem Config.ports_of_valid (h : c.validate lib forPorts forTokens = none) :
    (∃ write, c.server.getWritePort = some write) ∧
      (∀ portID port, c.server.portMap.lookup portID = some port →
        ∃ mode, Server.poolModeFromString port.poolMode = some mode) ∧
      ∀ compat, c.server.portMap.lookup (text "compat") = some compat →
        toLower compat.poolMode ≠ text "session" := by
  rw [Config.validate_eq_none] at h
  simp only [Config.errors, List.append_eq_nil_iff] at h
  obtain ⟨⟨⟨⟨⟨⟨-, hports⟩, -⟩, -⟩, -⟩, -⟩, hcompat⟩ := h
  simp only [ServerConfig.portErrors, List.append_eq_nil_iff, failIf_eq_nil] at hports
  obtain ⟨⟨-, hwrite⟩, hvisited⟩ := hports
  refine ⟨Option.ne_none_iff_exists'.mp hwrite, ?_, ?_⟩
  · intro portID port hlookup
    have hport := List.flatMap_eq_nil_iff.mp hvisited _ (forPorts.mem_entries.mpr hlookup)
    simp only [PortConfig.errors, List.append_eq_nil_iff, failIf_eq_nil] at hport
    exact Option.ne_none_iff_exists'.mp hport.1.2
  · intro compat hlookup
    rw [ServerConfig.compatErrors, hlookup] at hcompat
    simpa using hcompat

end Valid

/-- The defaults pass the validation. -/
theorem defaultConfig_valid {lib : Library} (hlevel : lib.levelError (text "info") = none)
    (forPorts : Range defaultConfig.normalize.server.portMap)
    (forTokens : Range defaultConfig.normalize.server.adminTokens.tokenMap) :
    defaultConfig.normalize.validate lib forPorts forTokens = none := by
  have hports : forPorts.entries = [⟨text "write", defaultWritePort⟩] :=
    Multiset.coe_eq_singleton.mp forPorts.coe_entries
  have htokens : forTokens.entries = [] := (Multiset.coe_eq_zero _).mp forTokens.coe_entries
  have hgeneral : defaultConfig.normalize.generalErrors lib = [] := by
    have hlevel' : lib.levelError defaultConfig.normalize.logging.level = none := hlevel
    rw [Config.generalErrors, hlevel']
    decide
  have hwrite : defaultWritePort.errors lib (text "write") = [] := by
    have haddr : splitHostPort (text "127.0.0.1:5711") = .ok (text "127.0.0.1", text "5711") :=
      @splitHostPort_plain (text "127.0.0.1") (text "5711") (by decide) (by decide)
    have hgiven : text "127.0.0.1:5711" ≠ [] := by decide
    have hmode : Server.poolModeFromString (text "session") = some .session := by decide
    have hssl : toLower (text "never") = text "never" := by decide
    simp [PortConfig.errors, defaultWritePort, validateHostPort, haddr, hgiven, hmode, hssl]
  rw [Config.validate_eq_none, Config.errors, hgeneral, ServerConfig.portErrors, hports, htokens,
    List.flatMap_singleton, hwrite, List.flatMap_nil]
  decide

end Grunyas.Config
