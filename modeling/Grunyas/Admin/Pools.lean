import Grunyas.Config.Config
import Grunyas.Proxy.Acquire

/-!
# The pool mode of a port

The pool mode of a port is written in its configuration, and an empty text stands for session mode.
Five places read it: the validation, the session, which falls back to the mode of the write port, the
request for a lease, and the list of the pools that the admin server shows. `pool_modes_agree_iff`
says for which ports they agree.
-/

namespace Grunyas.Cluster

open GoMap Grunyas.Server

/-- The `Replicas` snapshot: the nodes recorded as replicas that are not permanently down. -/
def Topology.replicas (t : Topology) (now : Time) (order : Range t.nodes) : List NodeView :=
  (order.entries.filter fun entry =>
    !entry.2.permanentlyDown && entry.2.observedRole == .replica).map fun entry =>
      t.nodeView now entry.1 entry.2

end Grunyas.Cluster

namespace Grunyas.Admin

open GoText GoMap Grunyas.Server Grunyas.Cluster Grunyas.Config

/-- The numbers of connections of a pool. -/
structure PoolStats where
  totalConns : ℤ
  acquiredConns : ℤ
  idleConns : ℤ
  maxConns : ℤ
  deriving DecidableEq

/-- The pool of a node as a port uses it. -/
structure PoolView where
  port : Text
  nodeID : NodeID
  mode : Text
  stats : PoolStats
  minConns : ℤ
  deriving DecidableEq

/-- What a request to the admin server meets: the clock, the orders in which the maps are visited, and
the numbers of every pool. -/
structure PoolsEnv (c : Config) (t : Topology) where
  now : Time
  forPorts : Range c.server.portMap
  forPrimary : Range t.nodes
  forReplicas : Range t.nodes
  stats : PoolID → PoolStats

/-- The nodes that a port uses; those of the compat port are not listed. -/
def candidateNodes {c : Config} {t : Topology} (env : PoolsEnv c t) (portID : Text) : List NodeView :=
  if portID = text "write" then (t.primary env.now env.forPrimary).toList
  else if portID = text "read" then t.replicas env.now env.forReplicas
  else []

/-- The smallest number of connections that is configured for a node. -/
def minConns (c : Config) (id : NodeID) : ℤ :=
  (((c.nodes.getD []).find? fun node => node.id == id).map fun node => node.pool.minConns).getD 0

/-- The mode that is shown for a port. -/
def shownMode (port : Config.PortConfig) : Text :=
  if port.poolMode = [] then text "session" else port.poolMode

/-- The pools of one port. -/
def portViews (c : Config) (t : Topology) (env : PoolsEnv c t) (portID : Text)
    (port : Config.PortConfig) : List PoolView :=
  (candidateNodes env portID).filterMap fun nv =>
    match t.poolFor nv.id with
    | .error _ => none
    | .ok pool => some ⟨portID, nv.id, shownMode port, env.stats pool, minConns c nv.id⟩

/-- The pools that the admin server shows, by port and node. -/
def poolViews (c : Config) (t : Topology) (env : PoolsEnv c t) : List PoolView :=
  (env.forPorts.entries.flatMap fun entry => portViews c t env entry.1 entry.2).mergeSort fun a b =>
    if a.port = b.port then decide (a.nodeID ≤ b.nodeID) else decide (a.port ≤ b.port)

/-- The part of the configuration that the session and the proxy of a port read. An underived mode is
not session mode. -/
def forPort (s : Config.ServerConfig) (portID : Text) : Server.ServerConfig where
  poolMode := s.derivedPoolMode.getD .transaction
  port := (s.portMap.lookup portID).map fun port => ⟨port.poolMode, port.postWriteWindowMs⟩

/-- The identifier of a port. -/
def portOf (portID : Text) : Port :=
  if portID = text "write" then .write
  else if portID = text "read" then .read
  else if portID = text "compat" then .compat
  else .other portID

/-- All that reads the pool mode of a port takes it for the mode that its configuration denotes. -/
def RunsAsConfigured (c : Config) (portID : Text) (port : Config.PortConfig) : Prop :=
  ∃ mode, poolModeFromString port.poolMode = some mode ∧
    (Session.initializeSession (portOf portID) (forPort c.server portID)).poolMode = mode ∧
    poolModeFromString (Proxy.poolMode (forPort c.server portID)) = some mode ∧
    (∀ (t : Topology) (env : PoolsEnv c t), ∀ view ∈ poolViews c t env, view.port = portID →
      poolModeFromString view.mode = some mode) ∧
    (portID = text "compat" → mode ≠ .session)

/-- The pools that are shown for a port have the mode of its configuration. -/
theorem mode_of_mem_poolViews {c : Config} {t : Topology} {env : PoolsEnv c t} {view : PoolView}
    (hview : view ∈ poolViews c t env) :
    ∃ port, c.server.portMap.lookup view.port = some port ∧ view.mode = shownMode port := by
  rw [poolViews, List.mem_mergeSort, List.mem_flatMap] at hview
  obtain ⟨⟨portID, port⟩, hentry, hview⟩ := hview
  obtain ⟨nv, -, hnode⟩ := List.mem_filterMap.mp hview
  have hlookup := env.forPorts.mem_entries.mp hentry
  dsimp only at hnode
  split at hnode
  · cases hnode
  · cases hnode
    exact ⟨port, hlookup, rfl⟩

/-- What is shown denotes what is configured. -/
theorem poolModeFromString_shownMode (port : Config.PortConfig) :
    poolModeFromString (shownMode port) = poolModeFromString port.poolMode := by
  unfold shownMode
  split_ifs with hempty
  · rw [hempty]
    decide
  · rfl

/-- The pool mode of a text. -/
theorem poolModeFromString_eq_some {s : Text} {mode : PoolMode}
    (h : poolModeFromString s = some mode) :
    (s = [] ∧ mode = .session) ∨ (s = text "session" ∧ mode = .session) ∨
      (s = text "transaction" ∧ mode = .transaction) := by
  unfold poolModeFromString at h
  split_ifs at h with hempty hsession htransaction
  · exact .inl ⟨hempty, (Option.some.inj h).symm⟩
  · exact .inr (.inl ⟨hsession, (Option.some.inj h).symm⟩)
  · exact .inr (.inr ⟨htransaction, (Option.some.inj h).symm⟩)

/-- The ports are not changed by `Normalize`. -/
theorem portMap_normalize (c : Config) : c.normalize.server.portMap = c.server.portMap := by
  unfold Config.normalize
  dsimp only
  split <;> rfl

/-- A normalized configuration with a write port has its pool mode as the derived one. -/
theorem derivedPoolMode_normalize {c : Config} {write : Config.PortConfig}
    (hwrite : c.normalize.server.getWritePort = some write) :
    c.normalize.server.derivedPoolMode = some ((poolModeFromString write.poolMode).getD .session) := by
  have hbefore : c.server.getWritePort = some write := by
    rw [← hwrite, ServerConfig.getWritePort, ServerConfig.getWritePort, portMap_normalize]
  simp [Config.normalize, hbefore, ServerConfig.getWritePoolMode]

/-- Of the places that read the pool mode only the session and the rule for the compat port can
disagree with the configuration. -/
theorem runsAsConfigured_iff {c : Config} {portID : Text} {port : Config.PortConfig} {mode : PoolMode}
    (hport : c.server.portMap.lookup portID = some port)
    (hmode : poolModeFromString port.poolMode = some mode) :
    RunsAsConfigured c portID port ↔
      (if port.poolMode = [] then c.server.derivedPoolMode.getD .transaction else mode) = mode ∧
        (portID = text "compat" → mode ≠ .session) := by
  have hsession : (Session.initializeSession (portOf portID) (forPort c.server portID)).poolMode =
      if port.poolMode = [] then c.server.derivedPoolMode.getD .transaction else mode := by
    simp only [Session.initializeSession, ServerConfig.sessionPoolMode, forPort, hport, Option.map_some,
      hmode, Option.getD_some, ite_not]
  have hrequest : poolModeFromString (Proxy.poolMode (forPort c.server portID)) = some mode := by
    simpa only [Proxy.poolMode, forPort, hport, Option.map_some] using hmode
  have hviews (t : Topology) (env : PoolsEnv c t) (view : PoolView) (hview : view ∈ poolViews c t env)
      (hid : view.port = portID) : poolModeFromString view.mode = some mode := by
    obtain ⟨shown, hshown, hviewMode⟩ := mode_of_mem_poolViews hview
    rw [hid, hport] at hshown
    obtain rfl := Option.some.inj hshown
    rw [hviewMode, poolModeFromString_shownMode, hmode]
  constructor
  · intro hruns
    obtain ⟨other, hother, hsessionMode, -, -, hcompat⟩ := hruns
    obtain rfl := Option.some.inj (hother.symm.trans hmode)
    exact ⟨hsession.symm.trans hsessionMode, hcompat⟩
  · intro h
    exact ⟨mode, hmode, hsession.trans h.1, hrequest, hviews, h.2⟩

/-- For every normalized and valid configuration and every port of it: the session, the requests for
leases and the list of the pools all take the pool mode of the port for the one that its configuration
denotes, and this is not session mode on the compat port, exactly if the mode is written out, or the
port is not the compat port and the write port is not in transaction mode. -/
theorem pool_modes_agree_iff (lib : Library) (c : Config) {forPorts : Range c.normalize.server.portMap}
    {forTokens : Range c.normalize.server.adminTokens.tokenMap}
    (hvalid : c.normalize.validate lib forPorts forTokens = none) {portID : Text}
    {port : Config.PortConfig} (hport : c.normalize.server.portMap.lookup portID = some port) :
    RunsAsConfigured c.normalize portID port ↔
      (port.poolMode = [] → portID ≠ text "compat" ∧
        ∀ write, c.normalize.server.getWritePort = some write → write.poolMode ≠ text "transaction") := by
  obtain ⟨⟨write, hwrite⟩, hmodes, hcompat⟩ := Config.ports_of_valid hvalid
  obtain ⟨mode, hmode⟩ := hmodes portID port hport
  obtain ⟨writeMode, hwriteMode⟩ := hmodes _ write hwrite
  rw [runsAsConfigured_iff hport hmode, derivedPoolMode_normalize hwrite, hwriteMode, Option.getD_some,
    Option.getD_some]
  rcases poolModeFromString_eq_some hmode with ⟨hempty, rfl⟩ | ⟨hsession, rfl⟩ | ⟨htransaction, rfl⟩
  · -- an empty mode is that of the write port for the session
    have hwriteIff : writeMode = .session ↔ write.poolMode ≠ text "transaction" := by
      rcases poolModeFromString_eq_some hwriteMode with ⟨h, rfl⟩ | ⟨h, rfl⟩ | ⟨h, rfl⟩ <;>
        rw [h] <;> decide
    simp only [hempty, if_true, ne_eq, not_true_eq_false, imp_false, true_imp_iff, hwriteIff, hwrite,
      Option.some.injEq, forall_eq', and_comm]
  · -- the validation refuses it on the compat port
    have hne : portID ≠ text "compat" := by
      intro hid
      subst hid
      refine hcompat port hport ?_
      rw [hsession]
      decide
    have hwritten : text "session" ≠ [] := by decide
    simp [hsession, hne, hwritten]
  · have hwritten : text "transaction" ≠ [] := by decide
    simp [htransaction, hwritten]

/-- A logging library that knows every level, with quoting left out. -/
def plainLibrary : Library := ⟨fun _ => none, id⟩

/-- The defaults run as they are configured. -/
theorem pool_modes_agree_default :
    defaultConfig.normalize.validate plainLibrary ⟨[⟨text "write", defaultWritePort⟩], rfl⟩ ⟨[], rfl⟩ =
        none ∧
      RunsAsConfigured defaultConfig.normalize (text "write") defaultWritePort := by
  have hvalid := @defaultConfig_valid plainLibrary rfl ⟨[⟨text "write", defaultWritePort⟩], rfl⟩
    ⟨[], rfl⟩
  refine ⟨hvalid, (pool_modes_agree_iff plainLibrary defaultConfig hvalid (by decide)).mpr ?_⟩
  intro hempty
  exact absurd hempty (by decide)

/-- The ports of a configuration with a write port in transaction mode and two ports whose modes are
not written out. -/
def threePorts : List (Sigma fun _ : Text => Config.PortConfig) :=
  [⟨text "write", { defaultWritePort with poolMode := text "transaction" }⟩,
    ⟨text "read", { listenAddr := text "127.0.0.1:5713" }⟩,
    ⟨text "compat", { listenAddr := text "127.0.0.1:5714" }⟩]

/-- The defaults with these ports. -/
def threePortsConfig : Config :=
  { defaultConfig with server := { defaultConfig.server with ports := some threePorts.toFinmap } }

/-- The configuration is valid. The mode of its read port denotes session mode, but sessions on it start
in transaction mode; and the mode of the compat port denotes session mode. -/
theorem empty_pool_mode_misread :
    threePortsConfig.normalize.validate plainLibrary ⟨threePorts, rfl⟩ ⟨[], rfl⟩ = none ∧
      (threePortsConfig.normalize.server.portMap.lookup (text "read")).map
        (fun port => poolModeFromString port.poolMode) = some (some .session) ∧
      (Session.initializeSession .read
        (forPort threePortsConfig.normalize.server (text "read"))).poolMode = .transaction ∧
      (threePortsConfig.normalize.server.portMap.lookup (text "compat")).map
        (fun port => poolModeFromString port.poolMode) = some (some .session) := by
  refine ⟨?_, ?_, ?_, ?_⟩ <;> decide

end Grunyas.Admin
