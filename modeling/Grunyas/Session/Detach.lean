import Grunyas.Session.Exchange

/-!
# Giving the upstream back in transaction mode

The session gives its upstream back at a `ReadyForQuery` with status `'I'`, whatever else it has
sent on the lease. No reply is lost if that `ReadyForQuery` answers the last message sent, and if
no `BEGIN` was replayed behind messages that still waited for their replies.
-/

namespace Grunyas.Server

open GoText Grunyas.Classifier Machine

/-- Every message sent on the lease was flushed, and the client was sent its complete reply. -/
def Exchange.Complete (l : Exchange) : Prop := l.waiting = [] ∧ l.withheld = [] ∧ l.unflushed = []

/-- When the session gives its upstream back because of a reply, and goes on, nothing is lost. -/
def DetachStep (w : Watched Session Exchange) (ev : Event) : Prop :=
  w.next = .running →
    match ev with
    | .upstream env msg =>
      (turn w.state (.upstream env msg)).next = .running →
        (∃ conn, Action.release conn ∈ (turn w.state (.upstream env msg)).acts) →
          (exchangeStep w (.upstream env msg)).ledger.Complete
    | _ => True

/-- The next `ReadyForQuery` of the lease answers the last message sent on it, a `COPY` stream that
was flushed aside. -/
def AnswersLast (l : Exchange) : Prop :=
  l.owed ≤ 1 ∧ (∀ sent ∈ l.waiting.getLast?, sent.isRequest = true) ∧
    ∀ msg ∈ l.unflushed, msg.isCopy = false

/-- A `ReadyForQuery` by which the session gives its upstream back answers the last message, no
`BEGIN` is replayed behind a message that waits, and the session is not closed while it swallows
the reply to one. -/
def InOrderStep (w : Watched Session Exchange) (ev : Event) : Prop :=
  w.next = .running →
    match ev with
    | .upstream _ msg =>
      msg = .readyForQuery statusIdle → w.state.poolMode = .transaction →
        w.state.upstream ≠ none → w.state.swallowingBeginResponse = false → AnswersLast w.ledger
    | .downstream env msg => ReplaysBegin env w.state msg → w.ledger.waiting = []
    | .release => w.state.swallowingBeginResponse = false
    | _ => True

instance (l : Exchange) : Decidable (AnswersLast l) := inferInstanceAs (Decidable (_ ∧ _ ∧ _))

instance InOrderStep.decidable (w : Watched Session Exchange) : (ev : Event) →
    Decidable (InOrderStep w ev)
  | .upstream _ _ => inferInstanceAs (Decidable (_ → _ → _ → _ → _ → AnswersLast w.ledger))
  | .downstream env msg => inferInstanceAs (Decidable (_ → ReplaysBegin env w.state msg → _))
  | .release => inferInstanceAs (Decidable (_ → _ = _))
  | .downstreamClosed => inferInstanceAs (Decidable (_ → True))
  | .err => inferInstanceAs (Decidable (_ → True))
  | .done => inferInstanceAs (Decidable (_ → True))

/-- What the lease holds: the reply to be swallowed is that to a replayed `BEGIN`, which waits
first, and a message that waits last and is a request of the client was flushed. -/
structure InOrder (s : Session) (l : Exchange) : Prop where
  withheld : l.withheld = []
  swallowing : s.swallowingBeginResponse = true →
    ∃ first rest, l.waiting = first :: rest ∧ first.isRequest = true ∧ first.own = false ∧
      ∀ sent ∈ rest, sent.own = true
  relaying : s.swallowingBeginResponse = false → ∀ sent ∈ l.waiting, sent.own = true
  held : s.upstream = none → s.swallowingBeginResponse = false
  flushed : ∀ sent ∈ l.waiting.getLast?, sent.own = true → sent.isRequest = true →
    ∀ msg ∈ l.unflushed, msg.isCopy = true

/-- A lease is in order at its start. -/
theorem inOrder_lease {s : Session} (hswallow : s.swallowingBeginResponse = false) (l : Exchange) :
    InOrder s l.lease where
  withheld := rfl
  swallowing := by simp [hswallow]
  relaying := by simp [Exchange.lease]
  held := fun _ => hswallow
  flushed := by simp [Exchange.lease]

/-- Only what was sent on the lease and the swallowing matter. -/
theorem InOrder.congr {s s' : Session} {l l' : Exchange} (h : InOrder s l)
    (hstate : s'.swallowingBeginResponse = s.swallowingBeginResponse)
    (hheld : s'.upstream = none → s.upstream = none) (hwaiting : l'.waiting = l.waiting)
    (hwithheld : l'.withheld = l.withheld) (hunflushed : l'.unflushed = l.unflushed) :
    InOrder s' l' where
  withheld := hwithheld.trans h.withheld
  swallowing := by
    rw [hstate, hwaiting]
    exact h.swallowing
  relaying := by
    rw [hstate, hwaiting]
    exact h.relaying
  held := fun hnone => hstate.trans (h.held (hheld hnone))
  flushed := by
    rw [hwaiting, hunflushed]
    exact h.flushed

/-- A session that swallows nothing may give its upstream back. -/
theorem InOrder.released {s s' : Session} {l : Exchange} (h : InOrder s l)
    (hs : s.swallowingBeginResponse = false) (hs' : s'.swallowingBeginResponse = false) :
    InOrder s' l where
  withheld := h.withheld
  swallowing := by simp [hs']
  relaying := fun _ => h.relaying hs
  held := fun _ => hs'
  flushed := h.flushed

/-- Relaying a reply keeps the order. -/
theorem InOrder.relay {s : Session} {l : Exchange} (h : InOrder s l)
    (hswallow : s.swallowingBeginResponse = false) (msg : BackendMessage) :
    InOrder s (l.relay msg) := by
  cases hready : msg.isReady with
  | false =>
    refine h.congr rfl id ?_ rfl rfl
    simp [Exchange.relay, hready]
  | true =>
    have hwaiting : (l.relay msg).waiting = afterFirst Sent.isRequest l.waiting := by
      simp [Exchange.relay, hready]
    constructor
    · exact h.withheld
    · simp [hswallow]
    · intro _ sent hsent
      rw [hwaiting] at hsent
      exact h.relaying hswallow sent ((afterFirst_suffix _ _).subset hsent)
    · exact h.held
    · intro sent hsent
      rw [hwaiting] at hsent
      exact h.flushed sent (mem_getLast?_of_afterFirst hsent)

/-- Dropping the reply to a replayed `BEGIN` keeps the order. -/
theorem InOrder.discard {s : Session} {l : Exchange} (h : InOrder s l)
    (hswallow : s.swallowingBeginResponse = true) (msg : BackendMessage) :
    InOrder (if msg.isReady then stopSwallowing s else s) (l.discard msg) := by
  cases hready : msg.isReady with
  | false =>
    refine h.congr rfl id ?_ ?_ rfl <;> simp [Exchange.discard, hready]
  | true =>
    obtain ⟨first, rest, hwaiting, hrequest, hown, hrest⟩ := h.swallowing hswallow
    have hafter : (l.discard msg).waiting = rest := by
      simp [Exchange.discard, hready, hwaiting, afterFirst, hrequest]
    constructor
    · simp [Exchange.discard, hready, hwaiting, throughFirst, hrequest, hown, h.withheld]
    · intro hstill
      cases hstill
    · intro _ sent hsent
      rw [hafter] at hsent
      exact hrest sent hsent
    · exact fun _ => rfl
    · intro sent hsent
      have hlast : (l.discard msg).waiting = afterFirst Sent.isRequest l.waiting := by
        simp [Exchange.discard, hready]
      rw [hlast] at hsent
      exact h.flushed sent (mem_getLast?_of_afterFirst hsent)

/-- Replaying a `BEGIN` on a lease on which nothing waits keeps the order. -/
theorem InOrder.replay {s : Session} {l : Exchange} (h : InOrder s l) (hheld : s.upstream ≠ none)
    (hwaiting : s.pendingBegin ≠ none → l.waiting = []) : InOrder (afterReplay s) (l.replay s) := by
  unfold afterReplay Exchange.replay
  cases hpending : s.pendingBegin with
  | none => exact h
  | some ref =>
    have hnone : l.waiting = [] := hwaiting (by simp [hpending])
    have hsent : (l.send ⟨s.deref ref, false⟩).waiting = [⟨s.deref ref, false⟩] := by
      rw [Exchange.send, hnone]
      rfl
    constructor
    · exact h.withheld
    · exact fun _ => ⟨_, [], hsent, rfl, rfl, List.forall_mem_nil _⟩
    · intro hnot
      cases hnot
    · exact fun hup => absurd hup hheld
    · intro sent hlast hown
      rw [hsent] at hlast
      obtain rfl : ⟨s.deref ref, false⟩ = sent := Option.some.inj hlast
      cases hown

/-- A request is flushed. -/
theorem flushesUpstream_of_isRequest {msg : FrontendMessage} (h : msg.isRequest = true) :
    flushesUpstream msg = true := by
  cases msg with
  | query string => rfl
  | sync => rfl
  | _ => cases h

/-- A message that expects no reply is flushed or belongs to a `COPY` stream. -/
theorem isCopy_of_unflushed {msg : FrontendMessage} (hreply : msg.expectsReply = false)
    (hflushes : flushesUpstream msg = false) : msg.isCopy = true := by
  have hflush : msg ≠ .flush := by
    rintro rfl
    cases hflushes
  simpa [FrontendMessage.expectsReply, hflush] using hreply

/-- Forwarding a message of the client keeps the order. -/
theorem InOrder.send {s : Session} {l : Exchange} (h : InOrder s l) (msg : FrontendMessage) :
    InOrder s (if flushesUpstream msg then (l.send ⟨msg, true⟩).flush else l.send ⟨msg, true⟩) := by
  have hwaiting : ∃ added : List Sent, (∀ sent ∈ added, sent.own = true) ∧
      (l.send ⟨msg, true⟩).waiting = l.waiting ++ added := by
    by_cases hreply : msg.expectsReply = true
    · exact ⟨[⟨msg, true⟩], by simp, by simp [Exchange.send, hreply]⟩
    · exact ⟨[], by simp, by simp [Exchange.send, hreply]⟩
  obtain ⟨added, hadded, hwaiting⟩ := hwaiting
  have hswallowing : s.swallowingBeginResponse = true → ∃ first rest,
      (l.send ⟨msg, true⟩).waiting = first :: rest ∧ first.isRequest = true ∧ first.own = false ∧
        ∀ sent ∈ rest, sent.own = true := by
    intro hswallow
    obtain ⟨first, rest, hfirst, hrequest, hown, hrest⟩ := h.swallowing hswallow
    refine ⟨first, rest ++ added, by rw [hwaiting, hfirst, List.cons_append], hrequest, hown, ?_⟩
    intro sent hsent
    exact (List.mem_append.mp hsent).elim (hrest sent) (hadded sent)
  have hrelaying : s.swallowingBeginResponse = false →
      ∀ sent ∈ (l.send ⟨msg, true⟩).waiting, sent.own = true := by
    intro hswallow sent hsent
    rw [hwaiting] at hsent
    exact (List.mem_append.mp hsent).elim (h.relaying hswallow sent) (hadded sent)
  by_cases hflushes : flushesUpstream msg = true
  · rw [if_pos hflushes]
    exact ⟨h.withheld, hswallowing, hrelaying, h.held, fun _ _ _ _ => List.forall_mem_nil _⟩
  · rw [if_neg hflushes]
    refine ⟨h.withheld, hswallowing, hrelaying, h.held, ?_⟩
    intro sent hsent hown hrequest m hm
    by_cases hreply : msg.expectsReply = true
    · have hlast : (l.send ⟨msg, true⟩).waiting = l.waiting ++ [⟨msg, true⟩] := by
        simp [Exchange.send, hreply]
      rw [hlast, List.getLast?_concat] at hsent
      obtain rfl := Option.some.inj hsent
      exact absurd (flushesUpstream_of_isRequest hrequest) hflushes
    · have hlast : (l.send ⟨msg, true⟩).waiting = l.waiting := by simp [Exchange.send, hreply]
      rw [hlast] at hsent
      obtain hm | hm := List.mem_append.mp hm
      · exact h.flushed sent hsent hown hrequest m hm
      · obtain rfl := List.mem_singleton.mp hm
        exact isCopy_of_unflushed (Bool.eq_false_iff.mpr hreply) (Bool.eq_false_iff.mpr hflushes)

/-- How a turn ends whose loop goes on. -/
def EndsInOrder (s : Session) (l : Exchange) (n : Next) : Prop := n = .running → InOrder s l

/-- Forwarding a prepared message keeps the order. -/
theorem Forwards.inOrder {env : Env} {msg : FrontendMessage} {s : Session} {conn : ConnId}
    {t : SessionTurn} (hfwd : Forwards env msg s conn t) {l : Exchange} (h : InOrder s l)
    (hheld : s.upstream ≠ none) (hwaiting : s.pendingBegin ≠ none → l.waiting = []) :
    t.Ends Exchange.record l EndsInOrder := by
  intro hrun
  obtain ⟨hledger, hstate⟩ := (hfwd.exchange l).2.2 hrun
  rw [hledger, hstate]
  have hreplay := (h.replay hheld hwaiting).send msg
  refine hreplay.congr (afterProcess_swallowing msg _) ?_ rfl rfl rfl
  rw [afterProcess_upstream]
  exact id

/-- Preparing the upstream keeps the order. -/
theorem Prepares.inOrder {env : Env} {msg : FrontendMessage} {s : Session} {h : Handling}
    (hprep : Prepares env s msg h) {l : Exchange} (horder : InOrder s l) :
    InOrder h.sess (h.acts.foldl Exchange.record l) := by
  have hstate := hprep.frame.swallowing
  obtain ⟨hledger, hup⟩ | ⟨hnone, hledger⟩ | ⟨hledger, -, -, -, -, hup⟩ := hprep.exchange l
  · rw [hledger]
    exact horder.congr hstate hup.symm.trans rfl rfl rfl
  · rw [hledger]
    exact inOrder_lease (hstate.trans (horder.held hnone)) l
  · rw [hledger]
    exact horder.congr hstate hup.symm.trans rfl rfl rfl

/-- A `BEGIN` that is to be replayed before a prepared message finds nothing waiting. -/
theorem Prepares.waiting_of_pending {env : Env} {msg : FrontendMessage} {s : Session} {h : Handling}
    {conn : ConnId} (hprep : Prepares env s msg h) (hforward : h.verdict = .forward)
    (hheld : h.sess.upstream = some conn) {l : Exchange}
    (hpending : s.pendingBegin ≠ none → s.port = .compat)
    (hwaiting : ReplaysBegin env s msg → l.waiting = []) (hp : h.sess.pendingBegin ≠ none) :
    (h.acts.foldl Exchange.record l).waiting = [] := by
  rw [hprep.frame.pendingBegin] at hp
  have hunanswered := hprep.not_answered_of_forward (hpending hp) hforward
  have hreplays : h.sess.upstream = s.upstream → ReplaysBegin env s msg := by
    intro hup
    refine ⟨hp, ?_, hunanswered⟩
    rw [← hup, hheld]
    exact Option.some_ne_none conn
  obtain ⟨hledger, hup⟩ | ⟨-, hledger⟩ | ⟨hledger, -, -, -, -, hup⟩ := hprep.exchange l
  · rw [hledger]
    exact hwaiting (hreplays hup)
  · rw [hledger]
    rfl
  · rw [hledger]
    exact hwaiting (hreplays hup)

/-- Serving a client message keeps the order. -/
theorem Serves.inOrder {env : Env} {msg : FrontendMessage} {s : Session} {t : SessionTurn}
    (hserve : Serves env msg s t) {l : Exchange} (h : InOrder s l)
    (hpending : s.pendingBegin ≠ none → s.port = .compat)
    (hwaiting : ReplaysBegin env s msg → l.waiting = []) :
    t.Ends Exchange.record l EndsInOrder := by
  cases hserve with
  | terminated => nofun
  | refusedUnflushed => nofun
  | refused => exact fun _ => h.congr rfl id rfl rfl rfl
  | bufferFailed acts hbuf hcut => nofun
  | buffered hbuf => exact fun _ => h.congr rfl id rfl rfl rfl
  | revokedUnflushed => nofun
  | revoked h' err ref hprep =>
    rw [Turn.Ends, List.foldl_append]
    exact fun _ => (hprep.inOrder h).congr rfl id rfl rfl rfl
  | closed => nofun
  | handled h' hprep =>
    rw [Turn.Ends, List.foldl_append]
    exact fun _ => hprep.inOrder h
  | panicked => nofun
  | forwarded h' conn u hprep hforward hheld hfwd =>
    rw [Turn.Ends, List.foldl_append]
    apply hfwd.inOrder (hprep.inOrder h) (by simp [hheld])
    exact hprep.waiting_of_pending hforward hheld hpending hwaiting

/-- The loop is in order, and a `BEGIN` is buffered on the compat port only. -/
def RunsInOrder (w : Watched Session Exchange) : Prop :=
  (w.next = .running → InOrder w.state w.ledger) ∧
    (w.state.pendingBegin ≠ none → w.state.port = .compat)

/-- Serving an event keeps the order. -/
theorem serve_inOrder {w : Watched Session Exchange} {ev : Event} (hw : RunsInOrder w)
    (hrun : w.next = .running) (hok : InOrderStep w ev) :
    (serve w.state ev).Ends Exchange.record (w.ledger.note w.state ev) EndsInOrder := by
  obtain ⟨horder, hpending⟩ := hw
  have horder := horder hrun
  have hok := hok hrun
  cases ev with
  | upstream env msg =>
    obtain ⟨-, hserve⟩ | ⟨-, hswallow, hdrop⟩ | ⟨-, hswallow, hrelay⟩ :=
      serve_upstream_cases w.state env msg
    · rw [hserve]
      exact fun _ => horder
    · intro _
      obtain ⟨hledger, hstate⟩ := hdrop.exchange w.ledger
      have hdiscard := horder.discard hswallow msg
      rw [hstate]
      obtain hledger | ⟨hledger, -⟩ := hledger
      · exact hledger ▸ hdiscard
      · exact hledger ▸ hdiscard.congr rfl id rfl rfl rfl
    · intro _
      obtain ⟨hledger, hstate⟩ := hrelay.exchange w.ledger
      exact hledger ▸ (horder.relay hswallow msg).released hswallow (hstate.trans hswallow)
  | downstream env msg =>
    obtain ⟨slot, hdecode⟩ := decodeMessage_eq w.state msg
    have hserve := serve_serves w.state env msg
    rw [hdecode] at hserve
    have hreceive : InOrder { w.state with querySlot := slot } (w.ledger.receive msg) :=
      horder.congr rfl id rfl rfl rfl
    exact hserve.inOrder hreceive hpending hok
  | release =>
    intro _
    have hledger := foldl_record_releaseUpstream w.state w.ledger
    have hstate := (releaseUpstream_frame w.state).swallowing.trans hok
    exact hledger.symm ▸ horder.released hok hstate
  | _ => nofun

/-- A step in order keeps the loop in order. -/
theorem inOrder_step {w : Watched Session Exchange} {ev : Event} (hw : RunsInOrder w)
    (hok : InOrderStep w ev) : RunsInOrder (exchangeStep w ev) := by
  apply Watched.step_keeps RunsInOrder hw
  intro hrun
  have horder := serve_inOrder hw hrun hok
  refine ⟨fun hnext => ?_, turn_buffered ev hw.2⟩
  rw [foldl_record_turn]
  have hturn := turn_of_running hnext
  rw [hturn] at hnext ⊢
  exact horder hnext

/-- A `ReadyForQuery` that answers the last message of a lease in order completes it. -/
theorem InOrder.complete {s : Session} {l : Exchange} (h : InOrder s l)
    (hswallow : s.swallowingBeginResponse = false) (howed : 0 < l.owed) (hlast : AnswersLast l)
    (txStatus : UInt8) : (l.relay (.readyForQuery txStatus)).Complete := by
  obtain ⟨hone, hrequest, hcopy⟩ := hlast
  refine ⟨afterFirst_eq_nil hone hrequest, h.withheld, ?_⟩
  obtain ⟨last, hget⟩ : ∃ last, l.waiting.getLast? = some last := by
    cases hget : l.waiting.getLast? with
    | some last => exact ⟨last, rfl⟩
    | none =>
      rw [List.getLast?_eq_none_iff] at hget
      simp [Exchange.owed, hget] at howed
  have hown := h.relaying hswallow last (List.mem_of_getLast? hget)
  have hall := h.flushed last hget hown (hrequest last hget)
  rw [List.eq_nil_iff_forall_not_mem]
  intro msg hmsg
  have hno := hcopy msg hmsg
  rw [hall msg hmsg] at hno
  cases hno

/-- A reply gives the upstream back, and the loop goes on, only if it is a relayed `ReadyForQuery`
with status `'I'`. -/
theorem release_of_upstream {s : Session} {env : Env} {msg : BackendMessage} {conn : ConnId}
    (hrun : (serve s (.upstream env msg)).next = .running)
    (hrelease : Action.release conn ∈ (serve s (.upstream env msg)).acts) :
    s.upstream ≠ none ∧ s.swallowingBeginResponse = false ∧ s.poolMode = .transaction ∧
      msg = .readyForQuery statusIdle ∧ Relays env msg s (serve s (.upstream env msg)) := by
  obtain ⟨-, hserve⟩ | ⟨-, -, hdrop⟩ | ⟨hheld, hswallow, hrelay⟩ := serve_upstream_cases s env msg
  · rw [hserve] at hrelease
    cases hrelease
  · generalize serve s (.upstream env msg) = t at hrun hrelease hdrop
    cases hdrop <;> simp [beginFailedError, sendErrorAndReady, sendMessage] at hrelease
  · refine ⟨hheld, hswallow, ?_⟩
    have hrelays := hrelay
    generalize serve s (.upstream env msg) = t at hrun hrelease hrelay hrelays
    cases hrelay with
    | sendFailed => cases hrun
    | flushFailed => cases hrun
    | detached hready hmode => exact ⟨hmode, hready, hrelays⟩
    | kept =>
      simp only [flushedDownstream] at hrelease
      split_ifs at hrelease <;> simp at hrelease

/-- A step in order gives no upstream back with a reply missing. -/
theorem detachStep_of_inOrder {w : Watched Session Exchange} {ev : Event} (hw : RunsInOrder w)
    (hbackend : BackendStep w ev) (hok : InOrderStep w ev) : DetachStep w ev := by
  intro hrun
  cases ev with
  | upstream env msg =>
    intro hnext hrelease
    obtain ⟨conn, hrelease⟩ := hrelease
    have hturn := turn_of_running hnext
    rw [hturn] at hnext hrelease
    obtain ⟨hheld, hswallow, hmode, rfl, hrelay⟩ := release_of_upstream hnext hrelease
    have hstep : exchangeStep w (.upstream env (.readyForQuery statusIdle)) = _ :=
      Watched.step_of_running hrun _
    rw [hstep, hturn]
    have hledger := (hrelay.exchange w.ledger).1
    have hlast := hok hrun rfl hmode hheld hswallow
    exact hledger ▸ (hw.1 hrun).complete hswallow (hbackend hrun hheld rfl) hlast statusIdle
  | _ => trivial

/-- In every run in which the backends send one `ReadyForQuery` for each request and every step is
in order, the session never gives its upstream back in transaction mode with a reply missing. -/
theorem detach_complete (port : Port) (mode : PoolMode) (conn : ConnId) (windowMs : ℤ)
    (events : List Event)
    (hbackend : Throughout exchangeStep BackendStep (Session.start port mode conn windowMs).exchange
      events)
    (horder : Throughout exchangeStep InOrderStep (Session.start port mode conn windowMs).exchange
      events) :
    Throughout exchangeStep DetachStep (Session.start port mode conn windowMs).exchange events := by
  apply throughout_of_invariant (I := RunsInOrder) _ _ _ (throughout_and.mpr ⟨hbackend, horder⟩)
  · exact fun w ev hw hok => inOrder_step hw hok.2
  · exact fun w ev hw hok => detachStep_of_inOrder hw hok.1 hok.2
  · exact ⟨fun _ => inOrder_lease rfl .empty, fun hne => absurd rfl hne⟩

/-- Two queries pipelined in a transaction block and a `COMMIT` that waits for both. -/
theorem detach_complete_after_commit :
    let env := Env.steady 1 ⟨7, text "node-1", .primary⟩
    let events : List Event :=
      [.downstream env (.query (text "BEGIN; SELECT 1")), .downstream env (.query (text "SELECT 2")),
        .upstream env (.readyForQuery statusBlock), .upstream env (.readyForQuery statusBlock),
        .downstream env (.query (text "COMMIT")), .upstream env (.readyForQuery statusIdle)]
    Throughout exchangeStep DetachStep (Session.start .write .transaction 0 0).exchange events :=
  detach_complete .write .transaction 0 0 _ (by decide) (by decide)

/-- Of two pipelined queries the second is lost: the reply to the first gives the upstream back. -/
theorem detach_loses_pipelined_query :
    let env := Env.steady 1 ⟨7, text "node-1", .primary⟩
    let sent : List Event :=
      [.downstream env (.query (text "SELECT 1")), .downstream env (.query (text "SELECT 2"))]
    let reply := Event.upstream env (.readyForQuery statusIdle)
    let start := (Session.start .write .transaction 0 0).exchange
    Throughout exchangeStep BackendStep start (sent ++ [reply]) ∧
      ¬DetachStep (run exchangeStep start sent) reply := by
  refine ⟨by decide, fun h => ?_⟩
  have hcomplete := h (by decide) (by decide) ⟨7, by decide⟩
  exact absurd hcomplete.1 (by decide)

end Grunyas.Server
