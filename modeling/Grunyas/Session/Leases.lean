import Grunyas.Session.Startup

/-!
# Leases are neither leaked nor doubled

Every connection that a session acquires is the one it holds next, and it is given back before
another one is acquired and when the session returns. A connection is given back by a successful
`Release`, or by the `Kill` that follows a failed one.
-/

namespace Grunyas.Server

open Machine

/-- A call that changes who has a connection. -/
inductive PoolCall where
  | acquired (conn : ConnId)
  | released (conn : ConnId) (ok : Bool)
  | killed (conn : ConnId) (ok : Bool)
  deriving DecidableEq, Repr

/-- The calls that give a connection back: a failed release is followed by a kill. -/
def giveBack (releases kills : Bool) (conn : ConnId) : List PoolCall :=
  if releases then [.released conn true] else [.released conn false, .killed conn kills]

/-- The connection that a call acquired. -/
def PoolCall.acquires : PoolCall → Option ConnId
  | .acquired conn => some conn
  | _ => none

/-- The connection that a call gave back. -/
def PoolCall.returns : PoolCall → Option ConnId
  | .released conn true => some conn
  | .killed conn _ => some conn
  | _ => none

/-- The ledger of pool calls, with the outcomes that a release in the present turn meets. -/
structure PoolLog where
  releases : Bool
  kills : Bool
  calls : List PoolCall
  deriving DecidableEq, Repr

/-- The connections acquired so far, in order. -/
def PoolLog.acquired (l : PoolLog) : List ConnId := l.calls.filterMap PoolCall.acquires

/-- The connections given back so far, in order. -/
def PoolLog.returned (l : PoolLog) : List ConnId := l.calls.filterMap PoolCall.returns

/-- The ledger after an action of the session. -/
def PoolLog.record (l : PoolLog) : Action → PoolLog
  | .acquire conn => { l with calls := l.calls ++ [.acquired conn] }
  | .release conn => { l with calls := l.calls ++ giveBack l.releases l.kills conn }
  | _ => l

/-- An event with the outcomes that a release in its turn meets. -/
structure Leased where
  event : Event
  releases : Bool
  kills : Bool

/-- The main loop with the ledger of pool calls. -/
def leaseStep : Watched Session PoolLog → Leased → Watched Session PoolLog :=
  Watched.step (fun s i => turn s i.event)
    (fun l _ i => { l with releases := i.releases, kills := i.kills }) PoolLog.record

/-- The session when its startup is over; the outcomes are those of a release during startup. -/
def launched (port : Port) (cfg : ServerConfig) (e : StartupEnv) (releases kills : Bool) :
    Watched Session PoolLog :=
  ⟨(launch port cfg e).state, (launch port cfg e).acts.foldl PoolLog.record ⟨releases, kills, []⟩,
    (launch port cfg e).next⟩

/-- The connection that an action acquires. -/
def acquiredBy : Action → Option ConnId
  | .acquire conn => some conn
  | _ => none

/-- The connection that an action gives back. -/
def releasedBy : Action → Option ConnId
  | .release conn => some conn
  | _ => none

/-- A turn gives back what is held before it acquires, and holds what it acquired last. -/
def TurnBalanced (s : Session) (t : SessionTurn) : Prop :=
  s.upstream.toList ++ t.acts.filterMap acquiredBy =
    t.acts.filterMap releasedBy ++ t.state.upstream.toList

/-- What is acquired was given back, in the same order, or is held; a session that has left its loop
holds nothing. -/
def LeasesBalanced (w : Watched Session PoolLog) : Prop :=
  w.ledger.acquired = w.ledger.returned ++ w.state.upstream.toList ∧
    (w.next ≠ .running → w.state.upstream = none)

/-- Giving a connection back is one return and no acquisition. -/
theorem filterMap_giveBack (releases kills : Bool) (conn : ConnId) :
    (giveBack releases kills conn).filterMap PoolCall.acquires = [] ∧
      (giveBack releases kills conn).filterMap PoolCall.returns = [conn] := by
  cases releases <;> exact ⟨rfl, rfl⟩

/-- The ledger follows an action. -/
theorem PoolLog.record_eq (l : PoolLog) (act : Action) :
    (l.record act).acquired = l.acquired ++ (acquiredBy act).toList ∧
      (l.record act).returned = l.returned ++ (releasedBy act).toList := by
  unfold PoolLog.acquired PoolLog.returned
  cases act with
  | acquire conn =>
    exact ⟨List.filterMap_append, List.filterMap_append⟩
  | release conn =>
    obtain ⟨hnone, hone⟩ := filterMap_giveBack l.releases l.kills conn
    simp only [PoolLog.record, List.filterMap_append, hnone, hone]
    exact ⟨rfl, rfl⟩
  | _ => exact ⟨(List.append_nil _).symm, (List.append_nil _).symm⟩

/-- The ledger follows the actions of a turn. -/
theorem foldl_poolLog (acts : List Action) (l : PoolLog) :
    (acts.foldl PoolLog.record l).acquired = l.acquired ++ acts.filterMap acquiredBy ∧
      (acts.foldl PoolLog.record l).returned = l.returned ++ acts.filterMap releasedBy := by
  induction acts generalizing l with
  | nil => simp
  | cons act acts ih =>
    obtain ⟨hacquired, hreturned⟩ := ih (l.record act)
    rw [List.foldl_cons, hacquired, hreturned, (l.record_eq act).1, (l.record_eq act).2]
    constructor
    · cases h : acquiredBy act <;> simp [h]
    · cases h : releasedBy act <;> simp [h]

/-- Actions that neither acquire nor release leave a turn balanced if it keeps the upstream. -/
theorem TurnBalanced.of_kept {s : Session} {t : SessionTurn} (hup : t.state.upstream = s.upstream)
    (hacquired : t.acts.filterMap acquiredBy = []) (hreleased : t.acts.filterMap releasedBy = []) :
    TurnBalanced s t := by
  rw [TurnBalanced, hacquired, hreleased, hup, List.append_nil, List.nil_append]

/-- Preparing the upstream acquires one only where there is none, and releases none. -/
theorem Prepares.leases {env : Env} {s : Session} {msg : FrontendMessage} {h : Handling}
    (hprep : Prepares env s msg h) :
    s.upstream.toList ++ h.acts.filterMap acquiredBy = h.sess.upstream.toList ∧
      h.acts.filterMap releasedBy = [] := by
  cases hprep with
  | acquired conn _ hnone => simp [hnone, acquiredBy, releasedBy]
  | otherLeased lease _ _ _ hnone => simp [hnone, acquiredBy, releasedBy, setUpstreamLease]
  | leased stmt lease _ _ _ hnone =>
    simp [hnone, acquiredBy, releasedBy, (beginTransaction_frame _ _ _ _).2]
  | continued stmt => simp [(continueTransaction_frame _ _ _).2, cacheClass]
  | reclassified stmt =>
    cases msg with
    | query string => exact ⟨List.append_nil _, rfl⟩
    | parse name sql => exact ⟨List.append_nil _, rfl⟩
    | _ => exact ⟨List.append_nil _, rfl⟩
  | _ => exact ⟨List.append_nil _, rfl⟩

/-- Forwarding neither acquires nor releases, and keeps the upstream. -/
theorem Forwards.leases {env : Env} {msg : FrontendMessage} {s : Session} {conn : ConnId}
    {t : SessionTurn} (hfwd : Forwards env msg s conn t) :
    t.acts.filterMap acquiredBy = [] ∧ t.acts.filterMap releasedBy = [] ∧
      t.state.upstream = s.upstream := by
  obtain ⟨mode, pending, swallowing, hstate⟩ := hfwd.state_eq
  refine ⟨List.filterMap_eq_nil_iff.mpr ?_, List.filterMap_eq_nil_iff.mpr ?_, by rw [hstate]⟩
  · intro act hact
    obtain ⟨m, ok, rfl⟩ | ⟨ok, rfl⟩ | ⟨ok, rfl⟩ | ⟨ok, rfl⟩ := hfwd.mem_acts hact <;> rfl
  · intro act hact
    obtain ⟨m, ok, rfl⟩ | ⟨ok, rfl⟩ | ⟨ok, rfl⟩ | ⟨ok, rfl⟩ := hfwd.mem_acts hact <;> rfl

/-- Serving a client message is balanced; only a session without an upstream panics. -/
theorem Serves.balanced {env : Env} {msg : FrontendMessage} {s : Session} {t : SessionTurn}
    (hserve : Serves env msg s t) :
    TurnBalanced s t ∧ (t.next = .panicked → t.state.upstream = none) := by
  have hprepared {h : Handling} (hprep : Prepares env s msg h) {u : SessionTurn}
      (hup : u.state.upstream = h.sess.upstream) (hacquired : u.acts.filterMap acquiredBy = [])
      (hreleased : u.acts.filterMap releasedBy = []) :
      TurnBalanced s ⟨u.state, h.acts ++ u.acts, u.next⟩ := by
    obtain ⟨hleased, hnone⟩ := hprep.leases
    simp only [TurnBalanced, List.filterMap_append, hacquired, hreleased, hnone, List.append_nil,
      List.nil_append, hup, hleased]
  cases hserve with
  | bufferFailed acts _ hcut =>
    refine ⟨?_, fun hp => by cases hp⟩
    cases hcut <;> exact .of_kept rfl rfl rfl
  | revokedUnflushed h err ref hprep =>
    exact ⟨hprepared hprep (u := ⟨dropBegin h.sess, _, .returned⟩) rfl rfl rfl, fun hp => by cases hp⟩
  | revoked h err ref hprep =>
    exact ⟨hprepared hprep (u := ⟨dropBegin h.sess, _, _⟩) rfl rfl rfl,
      fun hp => absurd hp (nextIf_ne_panicked _)⟩
  | closed h err hprep =>
    exact ⟨hprepared hprep (u := ⟨h.sess, _, .returned⟩) rfl rfl rfl, fun hp => by cases hp⟩
  | handled h hprep =>
    exact ⟨hprepared hprep (u := ⟨h.sess, _, _⟩) rfl rfl rfl,
      fun hp => absurd hp (nextIf_ne_panicked _)⟩
  | panicked h hprep _ hnone =>
    have hbalanced := hprepared hprep (u := ⟨h.sess, [], .panicked⟩) rfl rfl rfl
    rw [List.append_nil] at hbalanced
    exact ⟨hbalanced, fun _ => hnone⟩
  | forwarded h conn u hprep _ _ hfwd =>
    obtain ⟨hacquired, hreleased, hup⟩ := hfwd.leases
    exact ⟨hprepared hprep hup hacquired hreleased, fun hp => absurd hp hfwd.not_panicked⟩
  | terminated => exact ⟨.of_kept rfl rfl rfl, fun hp => by cases hp⟩
  | refusedUnflushed => exact ⟨.of_kept rfl rfl rfl, fun hp => by cases hp⟩
  | refused => exact ⟨.of_kept rfl rfl rfl, fun hp => absurd hp (nextIf_ne_panicked _)⟩
  | buffered => exact ⟨.of_kept rfl rfl rfl, fun hp => absurd hp (nextIf_ne_panicked _)⟩

/-- Releasing the upstream gives back exactly what is held. -/
theorem releaseUpstream_leases (s : Session) :
    (releaseUpstream s).2.filterMap acquiredBy = [] ∧
      (releaseUpstream s).2.filterMap releasedBy = s.upstream.toList := by
  unfold releaseUpstream
  cases s.upstream <;> exact ⟨rfl, rfl⟩

/-- Relaying an upstream message gives back the upstream or keeps it. -/
theorem Relays.balanced {env : Env} {msg : BackendMessage} {s : Session} {t : SessionTurn}
    (hrelay : Relays env msg s t) : TurnBalanced s t := by
  have hup := (trackReadyForQuery_frame env.now msg s).2
  have hflushed : (flushedDownstream msg).filterMap acquiredBy = [] ∧
      (flushedDownstream msg).filterMap releasedBy = [] := by
    unfold flushedDownstream
    split_ifs <;> exact ⟨rfl, rfl⟩
  cases hrelay with
  | sendFailed => exact .of_kept rfl rfl rfl
  | flushFailed => exact .of_kept rfl rfl rfl
  | detached =>
    obtain ⟨hacquired, hreleased⟩ := releaseUpstream_leases (trackReadyForQuery env.now msg s)
    rw [hup] at hreleased
    change s.upstream.toList ++ (releaseUpstream _).2.filterMap acquiredBy =
      (releaseUpstream _).2.filterMap releasedBy ++ (releaseUpstream _).1.upstream.toList
    rw [hacquired, hreleased, releaseUpstream_eq]
    rfl
  | kept =>
    apply TurnBalanced.of_kept hup
    · rw [List.filterMap_cons_none rfl, List.filterMap_append, hflushed.1]
      rfl
    · rw [List.filterMap_cons_none rfl, List.filterMap_append, hflushed.2]
      rfl

/-- Serving an event is balanced; only a session without an upstream panics. -/
theorem serve_balanced (s : Session) (ev : Event) :
    TurnBalanced s (serve s ev) ∧
      ((serve s ev).next = .panicked → (serve s ev).state.upstream = none) := by
  cases ev with
  | upstream env msg =>
    refine ⟨?_, fun hp => absurd hp (serve_upstream_not_panicked s env msg)⟩
    obtain ⟨-, hserve⟩ | ⟨-, -, hdrop⟩ | ⟨-, -, hrelay⟩ := serve_upstream_cases s env msg
    · rw [hserve]
      exact .of_kept rfl rfl rfl
    · generalize serve s (.upstream env msg) = t at hdrop ⊢
      cases hdrop <;> exact .of_kept rfl rfl rfl
    · exact hrelay.balanced
  | downstream env msg =>
    obtain ⟨slot, hdecode⟩ := decodeMessage_eq s msg
    have hserve := (serve_serves s env msg).balanced
    rw [hdecode] at hserve
    exact hserve
  | release =>
    obtain ⟨hacquired, hreleased⟩ := releaseUpstream_leases s
    refine ⟨?_, fun hp => by cases hp⟩
    change s.upstream.toList ++ (releaseUpstream s).2.filterMap acquiredBy =
      (releaseUpstream s).2.filterMap releasedBy ++ (releaseUpstream s).1.upstream.toList
    rw [hacquired, hreleased, releaseUpstream_eq]
    rfl
  | _ => exact ⟨.of_kept rfl rfl rfl, fun hp => by cases hp⟩

/-- Leaving with the deferred release is balanced and leaves nothing held. -/
theorem deferredRelease_balanced {s : Session} {t : SessionTurn} (hbalanced : TurnBalanced s t)
    (hpanic : t.next = .panicked → t.state.upstream = none) :
    TurnBalanced s (deferredRelease t) ∧
      ((deferredRelease t).next ≠ .running → (deferredRelease t).state.upstream = none) := by
  unfold deferredRelease
  cases hnext : t.next with
  | running => exact ⟨hbalanced, fun h => absurd hnext h⟩
  | panicked => exact ⟨hbalanced, fun _ => hpanic hnext⟩
  | returned =>
    obtain ⟨hacquired, hreleased⟩ := releaseUpstream_leases t.state
    refine ⟨?_, fun _ => by rw [releaseUpstream_eq]⟩
    simp only [TurnBalanced] at hbalanced
    simp only [TurnBalanced, List.filterMap_append, hacquired, hreleased, List.append_nil,
      releaseUpstream_eq, Option.toList_none, hbalanced]

/-- A balanced turn keeps the balance of the ledger. -/
theorem LeasesBalanced.turn {s : Session} {t : SessionTurn} {l : PoolLog}
    (hl : l.acquired = l.returned ++ s.upstream.toList) (hbalanced : TurnBalanced s t)
    (hleft : t.next ≠ .running → t.state.upstream = none) :
    LeasesBalanced ⟨t.state, t.acts.foldl PoolLog.record l, t.next⟩ := by
  refine ⟨?_, hleft⟩
  obtain ⟨hacquired, hreturned⟩ := foldl_poolLog t.acts l
  calc (t.acts.foldl PoolLog.record l).acquired
      = l.returned ++ (s.upstream.toList ++ t.acts.filterMap acquiredBy) := by
        rw [hacquired, hl, List.append_assoc]
    _ = l.returned ++ (t.acts.filterMap releasedBy ++ t.state.upstream.toList) := by rw [hbalanced]
    _ = (t.acts.foldl PoolLog.record l).returned ++ t.state.upstream.toList := by
        rw [hreturned, List.append_assoc]

/-- Every step keeps the balance. -/
theorem leasesBalanced_step (w : Watched Session PoolLog) (i : Leased) (hw : LeasesBalanced w) :
    LeasesBalanced (leaseStep w i) := by
  apply Watched.step_keeps LeasesBalanced hw
  intro _
  obtain ⟨hbalanced, hpanic⟩ := serve_balanced w.state i.event
  obtain ⟨hturn, hleft⟩ := deferredRelease_balanced hbalanced hpanic
  exact LeasesBalanced.turn (l := ⟨i.releases, i.kills, w.ledger.calls⟩) hw.1 hturn hleft

/-- The startup is balanced. -/
theorem launched_balanced (port : Port) (cfg : ServerConfig) (e : StartupEnv)
    (releases kills : Bool) : LeasesBalanced (launched port cfg e releases kills) := by
  have hstart := startUp_startsUp e (s := .initializeSession port cfg) rfl
  have hbalanced : TurnBalanced (.initializeSession port cfg) (startUp e (.initializeSession port cfg)) ∧
      (startUp e (.initializeSession port cfg)).next ≠ .panicked := by
    generalize startUp e (.initializeSession port cfg) = t at hstart ⊢
    cases hstart with
    | failed => exact ⟨.of_kept rfl rfl rfl, by simp⟩
    | refused => exact ⟨.of_kept rfl rfl rfl, by simp [closeWithError, Turn.log_andThen, Turn.leave]⟩
    | unleased ok => exact ⟨.of_kept rfl rfl rfl, nextIf_ne_panicked ok⟩
    | leased conn ok => exact ⟨rfl, nextIf_ne_panicked ok⟩
  obtain ⟨hturn, hleft⟩ :=
    deferredRelease_balanced hbalanced.1 fun hp => absurd hp hbalanced.2
  exact LeasesBalanced.turn rfl hturn hleft

/-- In every run of a session from its start, on any port and in any pool mode and with any failures,
the connections acquired are, in order, those given back and the one that is held; a session that
has returned holds none, and has given back each connection it acquired exactly once. -/
theorem leases_balanced (port : Port) (cfg : ServerConfig) (e : StartupEnv) (releases kills : Bool)
    (inputs : List Leased) :
    let w := run leaseStep (launched port cfg e releases kills) inputs
    w.ledger.acquired = w.ledger.returned ++ w.state.upstream.toList ∧
      (w.next ≠ .running → w.state.upstream = none ∧ w.ledger.acquired = w.ledger.returned) := by
  intro w
  have hw : LeasesBalanced w :=
    run_invariant (fun w i hw _ => leasesBalanced_step w i hw)
      (launched_balanced port cfg e releases kills) (throughout_of_forall fun _ _ => trivial)
  refine ⟨hw.1, fun hleft => ?_⟩
  have hnone := hw.2 hleft
  refine ⟨hnone, ?_⟩
  rw [hw.1, hnone]
  exact List.append_nil _

end Grunyas.Server
