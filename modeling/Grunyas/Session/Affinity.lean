import Grunyas.Session.Outcomes

/-!
# Which connection a message goes to

Messages that belong together go to one upstream connection: those between two `ReadyForQuery`
messages that end the use of the upstream, and all from the one that pinned the session on. The
ledger numbers the periods between such messages and records, for every message that was sent, its
connection and its period.
-/

namespace Grunyas.Server

open GoText Machine

/-- A message sent to an upstream: the connection, the period in which it was sent, and whether it
pinned the session. -/
structure SentOn where
  conn : ConnId
  period : ℕ
  pins : Bool
  deriving DecidableEq, Repr

/-- The ledger of sent messages, with the number of the present period. -/
structure Custody where
  period : ℕ
  sent : List SentOn
  deriving DecidableEq, Repr

/-- What an action sends to an upstream. A buffered `BEGIN` that is replayed pins nothing. -/
def sentOn (period : ℕ) : Action → Option SentOn
  | .forward conn msg ok => some ⟨conn, period, ok && Messaging.processPins msg⟩
  | .replay conn _ _ => some ⟨conn, period, false⟩
  | _ => none

/-- The ledger after an action of the session. -/
def Custody.record (l : Custody) (act : Action) : Custody :=
  { l with sent := l.sent ++ (sentOn l.period act).toList }

/-- Whether the main loop takes an idle `ReadyForQuery` that is not swallowed, in transaction mode. -/
def endsPeriod (s : Session) : Event → Bool
  | .upstream _ msg => s.upstream.isSome && !s.swallowingBeginResponse && shouldDetach s msg
  | _ => false

/-- The ledger after an event was taken. -/
def Custody.note (l : Custody) (s : Session) (ev : Event) : Custody :=
  { l with period := l.period + (endsPeriod s ev).toNat }

/-- The main loop with the ledger of sent messages. -/
def custodyStep : Watched Session Custody → Event → Watched Session Custody :=
  Watched.step turn Custody.note Custody.record

/-- The main loop at its start. -/
def Session.custody (s : Session) : Watched Session Custody := ⟨s, ⟨0, []⟩, .running⟩

/-- Two messages that have to go to one connection do. -/
def Together (first later : SentOn) : Prop :=
  first.period = later.period ∨ first.pins = true → later.conn = first.conn

/-- What was sent in the present period or pinned the session was sent on the upstream that is
held; a pinned session is in session mode. -/
structure Held (s : Session) (l : Custody) : Prop where
  period_le : ∀ r ∈ l.sent, r.period ≤ l.period
  held : ∀ r ∈ l.sent, r.period = l.period ∨ r.pins = true → s.upstream = some r.conn
  pinned : ∀ r ∈ l.sent, r.pins = true → s.poolMode = .session

/-- The messages that an action list sends, in order. -/
theorem foldl_custody_record (acts : List Action) (l : Custody) :
    acts.foldl Custody.record l = { l with sent := l.sent ++ acts.filterMap (sentOn l.period) } := by
  induction acts generalizing l with
  | nil => simp
  | cons act acts ih =>
    rw [List.foldl_cons, ih]
    cases h : sentOn l.period act <;> simp [Custody.record, h]

/-- Preparing the upstream sends nothing; a message that is not to be forwarded finds the upstream
as it was. -/
theorem Prepares.custody {env : Env} {s : Session} {msg : FrontendMessage} {h : Handling}
    (hprep : Prepares env s msg h) (period : ℕ) :
    h.acts.filterMap (sentOn period) = [] ∧
      (h.verdict ≠ .forward → h.sess.upstream = s.upstream) ∧
      (s.upstream ≠ none → h.sess.upstream = s.upstream) := by
  cases hprep with
  | acquired conn _ hnone => exact ⟨rfl, by simp, by simp [hnone]⟩
  | otherLeased lease _ _ _ hnone => exact ⟨rfl, by simp, by simp [hnone]⟩
  | leased stmt lease _ _ _ hnone => exact ⟨rfl, by simp, by simp [hnone]⟩
  | continued stmt =>
    have hkept := (continueTransaction_frame (cacheClass s stmt) (compatKind s stmt) stmt.sql).2
    exact ⟨rfl, fun _ => hkept, fun _ => hkept⟩
  | reclassified =>
    refine ⟨?_, fun _ => rfl, fun _ => rfl⟩
    cases msg <;> rfl
  | _ => exact ⟨rfl, fun _ => rfl, fun _ => rfl⟩

/-- A message that pins puts the session into session mode. -/
theorem afterProcess_pins {msg : FrontendMessage} (hpins : Messaging.processPins msg = true)
    (s : Session) : (afterProcess msg s).poolMode = .session := by
  unfold afterProcess switchToSessionMode
  rw [if_pos hpins]

/-- Forwarding sends on its connection only; a message that pins puts the session into session
mode. -/
theorem Forwards.custody {env : Env} {msg : FrontendMessage} {s : Session} {conn : ConnId}
    {t : SessionTurn} (hfwd : Forwards env msg s conn t) (period : ℕ) :
    ∀ r ∈ t.acts.filterMap (sentOn period),
      r.conn = conn ∧ r.period = period ∧ (r.pins = true → t.state.poolMode = .session) := by
  have hreplayed : ∀ r ∈ (replayed conn s).filterMap (sentOn period), r = ⟨conn, period, false⟩ := by
    unfold replayed
    cases s.pendingBegin <;> simp [sentOn]
  have hflushed : (flushed msg).filterMap (sentOn period) = [] := by
    unfold flushed
    split_ifs <;> rfl
  intro r hr
  cases hfwd with
  | replayFailed =>
    obtain rfl : r = ⟨conn, period, false⟩ := by simpa [sentOn] using hr
    exact ⟨rfl, rfl, by simp⟩
  | processFailed =>
    obtain hr | rfl : r ∈ (replayed conn s).filterMap (sentOn period) ∨ r = ⟨conn, period, false⟩ := by
      simpa [sentOn] using hr
    · rw [hreplayed r hr]
      exact ⟨rfl, rfl, by simp⟩
    · exact ⟨rfl, rfl, by simp⟩
  | flushFailed =>
    obtain hr | rfl : r ∈ (replayed conn s).filterMap (sentOn period) ∨
        r = ⟨conn, period, Messaging.processPins msg⟩ := by
      simpa [sentOn] using hr
    · rw [hreplayed r hr]
      exact ⟨rfl, rfl, by simp⟩
    · exact ⟨rfl, rfl, fun hpins => afterProcess_pins hpins _⟩
  | sent =>
    obtain hr | rfl : r ∈ (replayed conn s).filterMap (sentOn period) ∨
        r = ⟨conn, period, Messaging.processPins msg⟩ := by
      simpa [sentOn, hflushed] using hr
    · rw [hreplayed r hr]
      exact ⟨rfl, rfl, by simp⟩
    · exact ⟨rfl, rfl, fun hpins => afterProcess_pins hpins _⟩

/-- What serving an event does to the custody of the connection: it sends nothing and keeps the
upstream, or it sends on one connection, which it holds from then on. -/
def KeepsCustody (s : Session) (t : SessionTurn) (period : ℕ) : Prop :=
  (t.acts.filterMap (sentOn period) = [] ∧ t.state.upstream = s.upstream) ∨
    ∃ conn, (s.upstream = none ∨ s.upstream = some conn) ∧ t.state.upstream = some conn ∧
      ∀ r ∈ t.acts.filterMap (sentOn period),
        r.conn = conn ∧ r.period = period ∧ (r.pins = true → t.state.poolMode = .session)

/-- Serving a client message keeps custody. -/
theorem Serves.keepsCustody {env : Env} {msg : FrontendMessage} {s : Session} {t : SessionTurn}
    (hserve : Serves env msg s t) (period : ℕ) : KeepsCustody s t period := by
  have hquiet {h : Handling} (hprep : Prepares env s msg h) (hverdict : h.verdict ≠ .forward)
      {acts : List Action} (hacts : acts.filterMap (sentOn period) = []) :
      (h.acts ++ acts).filterMap (sentOn period) = [] ∧ h.sess.upstream = s.upstream := by
    obtain ⟨hsent, hup, -⟩ := hprep.custody period
    exact ⟨by simp [hsent, hacts], hup hverdict⟩
  cases hserve with
  | terminated => exact .inl ⟨rfl, rfl⟩
  | refusedUnflushed => exact .inl ⟨rfl, rfl⟩
  | refused => exact .inl ⟨rfl, rfl⟩
  | bufferFailed acts _ hcut =>
    left
    cases hcut <;> exact ⟨rfl, rfl⟩
  | buffered => exact .inl ⟨rfl, rfl⟩
  | revokedUnflushed h err ref hprep hfailed => exact .inl (hquiet hprep (by simp [hfailed]) rfl)
  | revoked h err ref hprep hfailed => exact .inl (hquiet hprep (by simp [hfailed]) rfl)
  | closed h err hprep hfailed => exact .inl (hquiet hprep (by simp [hfailed]) rfl)
  | handled h hprep hhandled => exact .inl (hquiet hprep (by simp [hhandled]) rfl)
  | panicked h hprep _ hnone =>
    obtain ⟨hsent, -, hup⟩ := hprep.custody period
    refine .inl ⟨hsent, ?_⟩
    by_contra hne
    exact hne (hup fun hs => hne (hnone.trans hs.symm))
  | forwarded h conn u hprep _ hheld hfwd =>
    obtain ⟨hsent, -, hup⟩ := hprep.custody period
    obtain ⟨mode, pending, swallowing, hstate⟩ := hfwd.state_eq
    refine .inr ⟨conn, ?_, ?_, ?_⟩
    · by_cases hs : s.upstream = none
      · exact .inl hs
      · exact .inr ((hup hs).symm.trans hheld)
    · rw [hstate]
      exact hheld
    · intro r hr
      rw [List.filterMap_append, hsent, List.nil_append] at hr
      exact hfwd.custody period r hr

/-- Serving an upstream message that does not end the period keeps custody; one that does gives the
upstream back. -/
theorem serve_upstream_custody (s : Session) (env : Env) (msg : BackendMessage) (period : ℕ) :
    (serve s (.upstream env msg)).acts.filterMap (sentOn period) = [] ∧
      (endsPeriod s (.upstream env msg) = false →
        (serve s (.upstream env msg)).state.upstream = s.upstream) := by
  have hreleased (s : Session) : (releaseUpstream s).2.filterMap (sentOn period) = [] := by
    unfold releaseUpstream
    cases s.upstream <;> rfl
  have hflushed : (flushedDownstream msg).filterMap (sentOn period) = [] := by
    unfold flushedDownstream
    split_ifs <;> rfl
  obtain ⟨hup, hserve⟩ | ⟨hup, hswallow, hdrop⟩ | ⟨hup, hswallow, hrelay⟩ :=
    serve_upstream_cases s env msg
  · rw [hserve]
    exact ⟨rfl, fun _ => rfl⟩
  · generalize serve s (.upstream env msg) = t at hdrop ⊢
    cases hdrop <;> exact ⟨rfl, fun _ => rfl⟩
  · generalize serve s (.upstream env msg) = t at hrelay ⊢
    cases hrelay with
    | sendFailed => exact ⟨rfl, fun _ => rfl⟩
    | flushFailed => exact ⟨rfl, fun _ => rfl⟩
    | detached hready hmode =>
      refine ⟨hreleased _, fun hends => ?_⟩
      simp [endsPeriod, hup, hswallow, shouldDetach, hready, hmode] at hends
    | kept =>
      refine ⟨?_, fun _ => (trackReadyForQuery_frame env.now msg s).2⟩
      rw [List.filterMap_cons_none rfl, List.filterMap_append, hflushed]
      rfl

/-- The deferred release sends nothing. -/
theorem turn_sentOn (s : Session) (ev : Event) (period : ℕ) :
    (turn s ev).acts.filterMap (sentOn period) = (serve s ev).acts.filterMap (sentOn period) := by
  obtain h | ⟨conn, h⟩ := turn_acts s ev
  · rw [h]
  · rw [h, List.filterMap_append]
    exact List.append_nil _

/-- Serving an event other than a release keeps custody, unless it ends the period and sends
nothing. -/
theorem serve_custody (s : Session) {ev : Event} (hopen : ev ≠ .release) (period : ℕ) :
    (endsPeriod s ev = false ∧ KeepsCustody s (serve s ev) period) ∨
      (endsPeriod s ev = true ∧ (serve s ev).acts.filterMap (sentOn period) = []) := by
  cases ev with
  | upstream env msg =>
    obtain ⟨hsent, hkept⟩ := serve_upstream_custody s env msg period
    cases hends : endsPeriod s (.upstream env msg) with
    | true => exact .inr ⟨rfl, hsent⟩
    | false => exact .inl ⟨rfl, .inl ⟨hsent, hkept hends⟩⟩
  | downstream env msg =>
    obtain ⟨slot, hdecode⟩ := decodeMessage_eq s msg
    have hserve := (serve_serves s env msg).keepsCustody period
    rw [hdecode] at hserve
    exact .inl ⟨rfl, hserve⟩
  | release => exact absurd rfl hopen
  | _ => exact .inl ⟨rfl, .inl ⟨rfl, rfl⟩⟩

/-- A turn never leaves session mode. -/
theorem turn_session {s : Session} (ev : Event) (h : s.poolMode = .session) :
    (turn s ev).state.poolMode = .session := by
  cases hmode : (turn s ev).state.poolMode with
  | session => rfl
  | transaction => exact absurd h (by simp [turn_poolMode hmode])

/-- What is sent in a turn belongs with everything sent before it. -/
theorem Held.together {s : Session} {l : Custody} (h : Held s l) {conn : ConnId} {r : SentOn}
    (hup : s.upstream = none ∨ s.upstream = some conn) (hconn : r.conn = conn)
    (hperiod : r.period = l.period) : ∀ first ∈ l.sent, Together first r := by
  intro first hfirst htogether
  rw [hperiod] at htogether
  have hheld := h.held first hfirst htogether
  obtain hup | hup := hup
  · simp [hup] at hheld
  · rw [hconn]
    exact Option.some.inj (hup.symm.trans hheld)

/-- Nothing was sent and the upstream is the same. -/
theorem Held.congr {s t : Session} {l : Custody} (h : Held s l) (hup : t.upstream = s.upstream)
    (hmode : s.poolMode = .session → t.poolMode = .session) : Held t l :=
  ⟨h.period_le, fun r hr htogether => hup.trans (h.held r hr htogether),
    fun r hr hpins => hmode (h.pinned r hr hpins)⟩

/-- In a new period nothing is sent yet, and a session in transaction mode is not pinned. -/
theorem Held.ended {s : Session} {l : Custody} (h : Held s l) (hmode : s.poolMode = .transaction)
    (t : Session) : Held t { l with period := l.period + 1 } := by
  have hunpinned (r : SentOn) (hr : r ∈ l.sent) (hpins : r.pins = true) : False := by
    simpa [hmode] using h.pinned r hr hpins
  refine ⟨fun r hr => Nat.le_succ_of_le (h.period_le r hr), ?_, fun r hr hpins =>
    (hunpinned r hr hpins).elim⟩
  intro r hr htogether
  obtain hperiod | hpins := htogether
  · exact absurd hperiod (Nat.ne_of_lt (Nat.lt_succ_of_le (h.period_le r hr)))
  · exact (hunpinned r hr hpins).elim

/-- Messages were sent on the connection that is held. -/
theorem Held.send {s t : Session} {l : Custody} {conn : ConnId} {new : List SentOn} (h : Held s l)
    (hup : s.upstream = none ∨ s.upstream = some conn) (hheld : t.upstream = some conn)
    (hmode : s.poolMode = .session → t.poolMode = .session)
    (hnew : ∀ r ∈ new,
      r.conn = conn ∧ r.period = l.period ∧ (r.pins = true → t.poolMode = .session)) :
    Held t { l with sent := l.sent ++ new } := by
  have hold (r : SentOn) (hr : r ∈ l.sent) (htogether : r.period = l.period ∨ r.pins = true) :
      t.upstream = some r.conn := by
    have hr := h.held r hr htogether
    obtain hup | hup := hup
    · simp [hup] at hr
    · rw [hheld, ← hup, hr]
  refine ⟨?_, ?_, ?_⟩
  · intro r hr
    obtain hr | hr := List.mem_append.mp hr
    · exact h.period_le r hr
    · exact Nat.le_of_eq (hnew r hr).2.1
  · intro r hr htogether
    obtain hr | hr := List.mem_append.mp hr
    · exact hold r hr htogether
    · rw [hheld, (hnew r hr).1]
  · intro r hr hpins
    obtain hr | hr := List.mem_append.mp hr
    · exact hmode (h.pinned r hr hpins)
    · exact (hnew r hr).2.2 hpins

/-- Everything sent so far went where it belongs, and a running session holds the connection. -/
def Affine (w : Watched Session Custody) : Prop :=
  w.ledger.sent.Pairwise Together ∧ (w.next = .running → Held w.state w.ledger)

/-- A step other than a release keeps the affinity. -/
theorem affine_step (w : Watched Session Custody) (ev : Event) (hw : Affine w)
    (hopen : ev ≠ .release) : Affine (custodyStep w ev) := by
  apply Watched.step_keeps Affine hw
  intro hrunning
  obtain ⟨htogether, hheld⟩ := hw
  have hheld := hheld hrunning
  have hsession := turn_session (s := w.state) ev
  rw [Turn.Ends, foldl_custody_record, turn_sentOn]
  obtain ⟨hends, hcustody⟩ | ⟨hends, hquiet⟩ :=
    serve_custody w.state hopen (w.ledger.note w.state ev).period
  · have hnote : w.ledger.note w.state ev = w.ledger := by simp [Custody.note, hends]
    rw [hnote] at hcustody ⊢
    obtain ⟨hquiet, hup⟩ | ⟨conn, hup, hkept, hnew⟩ := hcustody
    · rw [hquiet, List.append_nil]
      refine ⟨htogether, fun hnext => hheld.congr ?_ hsession⟩
      rw [turn_of_running hnext, hup]
    · refine ⟨List.pairwise_append.mpr ⟨htogether, ?_, ?_⟩, fun hnext => ?_⟩
      · apply List.pairwise_of_forall_mem_list
        intro first hfirst later hlater _
        rw [(hnew first hfirst).1, (hnew later hlater).1]
      · intro first hfirst r hr
        exact hheld.together hup (hnew r hr).1 (hnew r hr).2.1 first hfirst
      · have hturn := turn_of_running hnext
        rw [hturn] at hsession ⊢
        exact hheld.send hup hkept hsession hnew
  · have hmode : w.state.poolMode = .transaction := by
      cases ev with
      | upstream env msg =>
        simp only [endsPeriod, shouldDetach, Bool.and_eq_true, beq_iff_eq] at hends
        exact hends.2.1
      | _ => cases hends
    have hnote : w.ledger.note w.state ev = { w.ledger with period := w.ledger.period + 1 } := by
      simp [Custody.note, hends]
    rw [hquiet, List.append_nil, hnote]
    exact ⟨htogether, fun _ => hheld.ended hmode _⟩

/-- In every run on any port and in any pool mode, as long as the session is not being closed, two
messages go to the same connection if no idle `ReadyForQuery` in transaction mode was relayed
between them, or if the earlier one pinned the session. -/
theorem connection_affinity (port : Port) (mode : PoolMode) (conn : ConnId) (windowMs : ℤ)
    {events : List Event} (hopen : ∀ ev ∈ events, ev ≠ .release) :
    (run custodyStep (Session.start port mode conn windowMs).custody events).ledger.sent.Pairwise
      Together := by
  have hstart : Affine (Session.start port mode conn windowMs).custody :=
    ⟨.nil, fun _ => ⟨by simp [Session.custody], by simp [Session.custody], by simp [Session.custody]⟩⟩
  exact (run_invariant affine_step hstart (throughout_of_forall hopen)).1

/-- A session that a `SET` has pinned keeps its connection past the end of its transactions. -/
theorem connection_affinity_pinned :
    let env := Env.steady 1 ⟨7, text "node-1", .primary⟩
    let other := Env.steady 1 ⟨8, text "node-2", .primary⟩
    let events : List Event :=
      [.downstream env (.query (text "SET search_path TO x")),
        .upstream env (.readyForQuery statusIdle), .downstream other (.query (text "SELECT 1"))]
    (run custodyStep (Session.start .write .transaction 0 0).custody events).ledger.sent =
        [⟨7, 0, true⟩, ⟨7, 0, false⟩] ∧
      (run custodyStep (Session.start .write .transaction 0 0).custody events).ledger.sent.Pairwise
        Together := by
  intro env other events
  refine ⟨by decide, connection_affinity .write .transaction 0 0 ?_⟩
  intro ev hev
  simp only [events, List.mem_cons, List.not_mem_nil, or_false] at hev
  obtain rfl | rfl | rfl := hev <;> (intro h; cases h)

end Grunyas.Server
