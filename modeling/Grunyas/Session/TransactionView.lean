import Grunyas.Session.Outcomes

/-!
# The client's and the session's view of a failed transaction

The client learns the transaction status from every `ReadyForQuery` it is sent. The session keeps
its own record, which it marks as failed on a status `'E'` and clears on a status `'I'` only. The
two views part where another status reaches the client while the record says failed.
-/

namespace Grunyas.Server

open GoText Grunyas.Classifier Machine

/-- The client was sent, and received, a `ReadyForQuery` with this status. -/
def DeliversReady (txStatus : UInt8) (acts : List Action) : Prop :=
  Action.flush true ∈ acts ∧
    (Action.send (.readyForQuery txStatus) true ∈ acts ∨
      Action.relay (.readyForQuery txStatus) true ∈ acts)

/-- After a step in transaction mode that delivers a status, the session's record says failed
exactly if the status does. -/
def ViewsAgree (w : Watched Session Unit) (ev : Event) : Prop :=
  w.next = .running → w.state.poolMode = .transaction →
    ∀ txStatus, DeliversReady txStatus (turn w.state ev).acts →
      ((turn w.state ev).state.compatTxState = .inFailedTransaction ↔ txStatus = statusFailed)

/-- The upstream replies by which the client learns of a status other than that the transaction
failed or ended: `'T'`, and the failure of a replayed `BEGIN`. -/
def ContradictsReply (env : Env) (s : Session) (msg : BackendMessage) : Prop :=
  s.upstream ≠ none ∧ env.flush = true ∧
    if s.swallowingBeginResponse then
      (∃ txStatus, msg = .readyForQuery txStatus ∧ txStatus ≠ statusBlock) ∧
        env.send (.readyForQuery statusIdle) = true
    else
      (∃ txStatus, msg = .readyForQuery txStatus ∧ txStatus ≠ statusIdle ∧
        txStatus ≠ statusFailed) ∧ env.send msg = true

/-- The client learns of a `BEGIN` that the session buffers. -/
def ContradictsBegin (env : Env) (s : Session) (msg : FrontendMessage) : Prop :=
  buffersBegin s msg = true ∧ env.send beginComplete = true ∧ env.send beginReady = true ∧
    env.flush = true

/-- While the session's record says failed, neither such a reply arrives nor such a `BEGIN`. -/
def FailedStatusStep (w : Watched Session Unit) (ev : Event) : Prop :=
  w.next = .running → w.state.poolMode = .transaction →
    w.state.compatTxState = .inFailedTransaction →
      ¬match ev with
        | .upstream env msg => ContradictsReply env w.state msg
        | .downstream env msg => ContradictsBegin env w.state msg
        | _ => False

/-- The status an action tells the client, successfully or not. -/
def readyStatus : Action → Option UInt8
  | .send (.readyForQuery txStatus) _ => some txStatus
  | .relay (.readyForQuery txStatus) _ => some txStatus
  | _ => none

/-- A delivered status is among those of the actions. -/
theorem DeliversReady.mem {st : UInt8} {acts : List Action} (h : DeliversReady st acts) :
    st ∈ acts.filterMap readyStatus := by
  obtain ⟨-, hsend | hrelay⟩ := h
  · exact List.mem_filterMap.mpr ⟨_, hsend, rfl⟩
  · exact List.mem_filterMap.mpr ⟨_, hrelay, rfl⟩

/-- The two conditions agree on a step that delivers no status. -/
theorem views_iff_of_undelivered {acts : List Action} {after before bad : Prop}
    (hnone : ∀ st, ¬DeliversReady st acts) (hbad : ¬bad) :
    (∀ st, DeliversReady st acts → (after ↔ st = statusFailed)) ↔ (before → ¬bad) :=
  iff_of_true (fun st hd => absurd hd (hnone st)) fun _ => hbad

/-- A step that flushes nothing delivers nothing. -/
theorem not_deliversReady_of_unflushed {acts : List Action} (h : Action.flush true ∉ acts)
    (st : UInt8) : ¬DeliversReady st acts := fun hd => h hd.1

/-- A step that sends no status delivers none. -/
theorem not_deliversReady_of_silent {acts : List Action} (h : acts.filterMap readyStatus = [])
    (st : UInt8) : ¬DeliversReady st acts := by
  intro hd
  have hmem := hd.mem
  simp [h] at hmem

/-- The two conditions agree on a step that sends one status only, if they do when it arrives and
it arrives in the bad case. -/
theorem views_iff_of_status (txStatus : UInt8) {acts : List Action} {after before bad : Prop}
    (hacts : acts.filterMap readyStatus = [txStatus]) (hbad : bad → DeliversReady txStatus acts)
    (h : DeliversReady txStatus acts → ((after ↔ txStatus = statusFailed) ↔ (before → ¬bad))) :
    (∀ st, DeliversReady st acts → (after ↔ st = statusFailed)) ↔ (before → ¬bad) := by
  have honly : ∀ st, DeliversReady st acts → st = txStatus := by
    intro st hd
    have hmem := hd.mem
    simpa [hacts] using hmem
  constructor
  · intro hall hbefore hb
    have hd := hbad hb
    exact (h hd).mp (hall txStatus hd) hbefore hb
  · intro hall st hd
    obtain rfl := honly st hd
    exact (h hd).mpr hall

/-- Releasing the upstream tells the client nothing. -/
theorem releaseUpstream_readyStatus (s : Session) :
    (releaseUpstream s).2.filterMap readyStatus = [] := by
  unfold releaseUpstream
  cases s.upstream <;> rfl

/-- Relaying an upstream message in transaction mode. -/
theorem Relays.views_iff {env : Env} {msg : BackendMessage} {s : Session} {t : SessionTurn}
    (hrelay : Relays env msg s t) (hport : s.port = .compat) (hmode : s.poolMode = .transaction)
    (hheld : s.upstream ≠ none) (hswallow : s.swallowingBeginResponse = false) :
    (∀ st, DeliversReady st t.acts →
        (t.state.compatTxState = .inFailedTransaction ↔ st = statusFailed)) ↔
      (s.compatTxState = .inFailedTransaction → ¬ContradictsReply env s msg) := by
  cases hrelay with
  | sendFailed hsend =>
    apply views_iff_of_undelivered
    · exact not_deliversReady_of_unflushed (by simp)
    · simp [ContradictsReply, hswallow, hsend]
  | flushFailed _ hflush =>
    apply views_iff_of_undelivered
    · exact not_deliversReady_of_unflushed (by simp)
    · simp [ContradictsReply, hflush]
  | detached hready =>
    subst hready
    have hgood : ¬ContradictsReply env s (.readyForQuery statusIdle) := by
      simp [ContradictsReply, hswallow]
    apply views_iff_of_status statusIdle
    · exact congrArg (List.cons statusIdle) (releaseUpstream_readyStatus _)
    · exact fun hb => absurd hb hgood
    · intro _
      rw [releaseUpstream_compatTxState,
        trackReadyForQuery_compatTxState env.now statusIdle hport hmode]
      exact iff_of_true (by simp [statusIdle, statusFailed]) fun _ => hgood
  | kept hkept hsend hflush =>
    cases msg with
    | readyForQuery txStatus =>
      have hidle : txStatus ≠ statusIdle := by
        rintro rfl
        exact hkept ⟨rfl, hmode⟩
      have hbad : ContradictsReply env s (.readyForQuery txStatus) ↔ txStatus ≠ statusFailed := by
        simp [ContradictsReply, hswallow, hheld, hflush rfl, hsend, hidle]
      apply views_iff_of_status txStatus rfl
      · exact fun _ => ⟨by simp [flushedDownstream], .inr List.mem_cons_self⟩
      · intro _
        simp only [trackReadyForQuery_compatTxState env.now txStatus hport hmode, hbad, hidle,
          if_false]
        by_cases hfailed : txStatus = statusFailed
        · simp [hfailed]
        · simp [hfailed]
    | _ =>
      apply views_iff_of_undelivered
      · apply not_deliversReady_of_silent
        simp only [flushedDownstream]
        split_ifs <;> rfl
      · simp [ContradictsReply, hswallow]

/-- Dropping a message of the answer to a replayed `BEGIN`. -/
theorem Swallows.views_iff {env : Env} {msg : BackendMessage} {s : Session} {t : SessionTurn}
    (hdrop : Swallows env msg s t) (hheld : s.upstream ≠ none)
    (hswallow : s.swallowingBeginResponse = true) :
    (∀ st, DeliversReady st t.acts →
        (t.state.compatTxState = .inFailedTransaction ↔ st = statusFailed)) ↔
      (s.compatTxState = .inFailedTransaction → ¬ContradictsReply env s msg) := by
  cases hdrop with
  | dropped hother =>
    apply views_iff_of_undelivered
    · exact not_deliversReady_of_unflushed (by simp)
    · rintro ⟨-, -, hready⟩
      rw [if_pos hswallow] at hready
      obtain ⟨⟨txStatus, rfl, -⟩, -⟩ := hready
      cases hother
  | begun hready =>
    apply views_iff_of_undelivered
    · exact not_deliversReady_of_unflushed (by simp)
    · simp [ContradictsReply, hswallow, hready]
  | flushFailed _ _ _ hflush =>
    apply views_iff_of_undelivered
    · exact not_deliversReady_of_unflushed
        (by simp [beginFailedError, sendErrorAndReady, sendMessage, hflush])
    · simp [ContradictsReply, hflush]
  | reported txStatus hready hfailed hflush =>
    have hbad : ContradictsReply env s msg ↔ env.send (.readyForQuery statusIdle) = true := by
      simp [ContradictsReply, hswallow, hheld, hflush, hready, hfailed]
    apply views_iff_of_status statusIdle rfl
    · intro hb
      have hsend := hbad.mp hb
      exact ⟨by simp [beginFailedError, sendErrorAndReady, hflush],
        .inl (by simp [beginFailedError, sendErrorAndReady, sendMessage, hsend])⟩
    · rintro ⟨-, hsent⟩
      have hsend : env.send (.readyForQuery statusIdle) = true := by
        simpa [beginFailedError, sendErrorAndReady, sendMessage] using hsent
      have hstatus : statusIdle ≠ statusFailed := by decide
      simp [hbad, hsend, stopSwallowing, hstatus]

/-- Preparing the upstream tells the client no status but `'E'`, and then the record says failed. -/
theorem Prepares.statuses {env : Env} {s : Session} {msg : FrontendMessage} {h : Handling}
    (hprep : Prepares env s msg h) :
    h.acts.filterMap readyStatus = [] ∨
      h.acts.filterMap readyStatus = [statusFailed] ∧
        h.sess.compatTxState = .inFailedTransaction := by
  cases hprep with
  | abortedQuery _ _ htx => exact .inr ⟨rfl, htx⟩
  | abortedSync _ htx => exact .inr ⟨rfl, htx⟩
  | reclassified =>
    cases msg with
    | query string => exact .inr ⟨rfl, rfl⟩
    | _ => exact .inl rfl
  | _ => exact .inl rfl

/-- Preparing the upstream flushes the client only for a message it handles. -/
theorem Prepares.handled_of_flush {env : Env} {s : Session} {msg : FrontendMessage} {h : Handling}
    (hprep : Prepares env s msg h) (hflush : Action.flush true ∈ h.acts) : h.verdict = .handled := by
  cases hprep with
  | abortedQuery =>
    simp only [sendCompatError, sendErrorAndReady, sendMessage] at hflush
    simpa using hflush
  | abortedSync =>
    simp only [sendMessage] at hflush
    simpa using hflush
  | reclassified =>
    cases msg with
    | query string =>
      simp only [rejectStatement, rejectQuery, sendCompatError, sendErrorAndReady,
        sendMessage] at hflush
      simpa using hflush
    | parse name sql =>
      simp only [rejectStatement, rejectParse, sendMessage] at hflush
      simpa using hflush
    | _ => cases hflush
  | _ => simp at hflush

/-- Forwarding does not flush the client. -/
theorem Forwards.flush_not_mem {env : Env} {msg : FrontendMessage} {s : Session} {conn : ConnId}
    {t : SessionTurn} (hfwd : Forwards env msg s conn t) : Action.flush true ∉ t.acts := by
  intro hact
  simpa using hfwd.mem_acts hact

/-- An answer to `BEGIN` that is cut short is not flushed. -/
theorem BeginCut.flush_not_mem {env : Env} {acts : List Action} (hcut : BeginCut env acts) :
    Action.flush true ∉ acts := by
  cases hcut <;> simp

/-- An answer to `BEGIN` that is cut short contradicts nothing. -/
theorem BeginCut.not_contradictsBegin {env : Env} {acts : List Action} (hcut : BeginCut env acts)
    {s : Session} {msg : FrontendMessage} : ¬ContradictsBegin env s msg := by
  cases hcut with
  | complete hfailed => simp [ContradictsBegin, hfailed]
  | ready hfailed => simp [ContradictsBegin, hfailed]
  | flush hfailed => simp [ContradictsBegin, hfailed]

/-- Serving a client message on the compat port. -/
theorem Serves.views_iff {env : Env} {msg : FrontendMessage} {s : Session} {t : SessionTurn}
    (hserve : Serves env msg s t) (hport : s.port = .compat) :
    (∀ st, DeliversReady st t.acts →
        (t.state.compatTxState = .inFailedTransaction ↔ st = statusFailed)) ↔
      (s.compatTxState = .inFailedTransaction → ¬ContradictsBegin env s msg) := by
  have hgood : buffersBegin s msg = false → ¬ContradictsBegin env s msg := by
    intro hplain hb
    simp [hb.1] at hplain
  cases hserve with
  | terminated hterm =>
    apply views_iff_of_undelivered (not_deliversReady_of_silent rfl) (hgood ?_)
    rw [hterm]
    rfl
  | refusedUnflushed href => simp [readPortRefuses, hport] at href
  | refused href => simp [readPortRefuses, hport] at href
  | bufferFailed acts _ hcut =>
    apply views_iff_of_undelivered
    · exact not_deliversReady_of_unflushed hcut.flush_not_mem
    · exact hcut.not_contradictsBegin
  | buffered hbuf hcomplete hready hflush =>
    have hbad : ContradictsBegin env s msg := ⟨hbuf, hcomplete, hready, hflush⟩
    apply views_iff_of_status statusBlock rfl
    · exact fun _ => ⟨by simp, .inl (by simp [beginReady])⟩
    · intro _
      simp [hbad, retainBegin, statusBlock, statusFailed]
  | revokedUnflushed h err ref hprep hfailed _ hflush hplain =>
    apply views_iff_of_undelivered _ (hgood hplain)
    apply not_deliversReady_of_unflushed
    simp [(hprep.of_failed hfailed).2.1, beginRevokedError, sendErrorAndReady, sendMessage,
      hflush]
  | revoked h err ref hprep hfailed _ _ hplain =>
    have hstate := (hprep.of_failed hfailed).2.2 hport
    rw [(hprep.of_failed hfailed).2.1]
    apply views_iff_of_status statusIdle rfl
    · exact fun hb => absurd hb (hgood hplain)
    · intro _
      simp [hgood hplain, dropBegin, hstate, statusIdle, statusFailed]
  | closed h err hprep hfailed _ hplain =>
    rw [(hprep.of_failed hfailed).2.1]
    exact views_iff_of_undelivered (not_deliversReady_of_silent rfl) (hgood hplain)
  | handled h hprep _ hplain =>
    obtain hacts | ⟨hacts, hstate⟩ := hprep.statuses
    · apply views_iff_of_undelivered _ (hgood hplain)
      apply not_deliversReady_of_silent
      rw [List.filterMap_append, hacts]
      rfl
    · apply views_iff_of_status statusFailed
      · rw [List.filterMap_append, hacts]
        rfl
      · exact fun hb => absurd hb (hgood hplain)
      · intro _
        simp [hstate, hgood hplain]
  | panicked h hprep hforward _ hplain =>
    apply views_iff_of_undelivered _ (hgood hplain)
    apply not_deliversReady_of_unflushed
    intro hflush
    simp [hprep.handled_of_flush hflush] at hforward
  | forwarded h conn u hprep hforward _ hfwd hplain =>
    apply views_iff_of_undelivered _ (hgood hplain)
    apply not_deliversReady_of_unflushed
    intro hflush
    obtain hflush | hflush := List.mem_append.mp hflush
    · simp [hprep.handled_of_flush hflush] at hforward
    · exact hfwd.flush_not_mem hflush

/-- Delivering a status is part of serving the event. -/
theorem deliversReady_turn (s : Session) (ev : Event) (st : UInt8) :
    DeliversReady st (turn s ev).acts ↔ DeliversReady st (serve s ev).acts :=
  and_congr (mem_turn_acts (by simp)) (or_congr (mem_turn_acts (by simp)) (mem_turn_acts (by simp)))

/-- A turn on the compat port in transaction mode. -/
theorem serve_views_iff {s : Session} (ev : Event) (hport : s.port = .compat)
    (hmode : s.poolMode = .transaction) :
    (∀ st, DeliversReady st (serve s ev).acts →
        ((serve s ev).state.compatTxState = .inFailedTransaction ↔ st = statusFailed)) ↔
      (s.compatTxState = .inFailedTransaction →
        ¬match ev with
          | .upstream env msg => ContradictsReply env s msg
          | .downstream env msg => ContradictsBegin env s msg
          | _ => False) := by
  cases ev with
  | upstream env msg =>
    by_cases hheld : s.upstream = none
    · simp only [serve, hheld]
      apply views_iff_of_undelivered
      · exact not_deliversReady_of_silent rfl
      · simp [ContradictsReply, hheld]
    · cases hswallow : s.swallowingBeginResponse with
      | true =>
        have h := (swallowBeginResponse_swallows env msg s).views_iff hheld hswallow
        simpa [serve, onUpstream, Option.isSome_iff_ne_none, hheld, hswallow] using h
      | false =>
        have h := (relayUpstream_relays env msg s).views_iff hport hmode hheld hswallow
        simpa [serve, onUpstream, Option.isSome_iff_ne_none, hheld, hswallow] using h
  | downstream env msg =>
    obtain ⟨slot, hdecode⟩ := decodeMessage_eq s msg
    have h := (serve_serves s env msg).views_iff (by rw [hdecode, hport])
    rw [ContradictsBegin, buffersBegin_decodeMessage, hdecode] at h
    exact h
  | release =>
    exact views_iff_of_undelivered (not_deliversReady_of_silent (releaseUpstream_readyStatus s)) id
  | _ => exact views_iff_of_undelivered (not_deliversReady_of_silent rfl) id

/-- In every run on the compat port the views agree at every step in transaction mode exactly if,
while the session's record says failed, the upstream replies with no `'T'` and fails no replayed
`BEGIN`, and the client sends no `BEGIN`. -/
theorem views_agree_iff (mode : PoolMode) (conn : ConnId) (windowMs : ℤ) (events : List Event) :
    Throughout loopStep ViewsAgree (Session.start .compat mode conn windowMs).loop events ↔
      Throughout loopStep FailedStatusStep (Session.start .compat mode conn windowMs).loop events := by
  apply throughout_congr (I := fun w => w.state.port = .compat)
  · intro w ev hport
    exact (watched_port w ev).trans hport
  · intro w ev hport
    refine forall_congr' fun _ => forall_congr' fun hmode => ?_
    simp only [deliversReady_turn, turn_compatTxState]
    exact serve_views_iff ev hport hmode
  · rfl

/-- A savepoint rollback that succeeds tells the client `'T'`, and the record still says failed. -/
theorem views_differ_after_savepoint_rollback :
    let env := Env.steady 1 ⟨7, text "node-1", .primary⟩
    let s := (run loopStep (Session.start .compat .transaction 0 1000).loop
      [.downstream env (.query (text "BEGIN; SAVEPOINT a")), .upstream env (.readyForQuery statusBlock),
        .downstream env (.query (text "SELECT broken")), .upstream env (.readyForQuery statusFailed),
        .downstream env (.query (text "ROLLBACK TO a"))]).state
    let t := turn s (.upstream env (.readyForQuery statusBlock))
    DeliversReady statusBlock t.acts ∧ t.state.compatTxState = .inFailedTransaction := by
  refine ⟨⟨?_, .inr ?_⟩, ?_⟩ <;> decide

end Grunyas.Server
