import Grunyas.Session.Outcomes

/-!
# Replay of a buffered `BEGIN`

The session retains a pointer to the decoder's `Query` value and not the text of the `BEGIN`. By
the time the replay is sent, every simple query received since has been decoded into the same
value, so what is replayed is the text of the last of them.
-/

namespace Grunyas.Server

open GoText Machine

/-- The messages sent upstream, in order. -/
def recordSent (sent : List FrontendMessage) : Action → List FrontendMessage
  | .replay _ msg true => sent ++ [msg]
  | .forward _ msg true => sent ++ [msg]
  | _ => sent

/-- The main loop, watched for the messages it sends upstream. -/
def sendingStep : Watched Session (List FrontendMessage) → Event →
    Watched Session (List FrontendMessage) :=
  Watched.step turn (fun sent _ _ => sent) recordSent

/-- The decoder's slot once an event was received. -/
def slotAfter (slot : Text) : Event → Text
  | .downstream _ (.query string) => string
  | _ => slot

/-- The text of the last simple query received, or the given one. -/
def lastQuery (slot : Text) (events : List Event) : Text := events.foldl slotAfter slot

/-- What was sent stays sent. -/
theorem mem_foldl_recordSent {m : FrontendMessage} (acts : List Action) {sent : List FrontendMessage}
    (hm : m ∈ sent) : m ∈ acts.foldl recordSent sent := by
  induction acts generalizing sent with
  | nil => exact hm
  | cons act acts ih =>
    apply ih
    cases act with
    | replay conn msg ok => cases ok <;> simp [recordSent, hm]
    | forward conn msg ok => cases ok <;> simp [recordSent, hm]
    | _ => exact hm

/-- A forwarded message is among those sent. -/
theorem mem_foldl_recordSent_of_forward {conn : ConnId} {m : FrontendMessage} {acts : List Action}
    (hm : Action.forward conn m true ∈ acts) (sent : List FrontendMessage) :
    m ∈ acts.foldl recordSent sent := by
  obtain ⟨before, after, rfl⟩ := List.append_of_mem hm
  rw [List.foldl_append, List.foldl_cons]
  apply mem_foldl_recordSent
  simp [recordSent]

/-- Preparing the upstream sends nothing. -/
theorem Prepares.sent {env : Env} {s : Session} {msg : FrontendMessage} {h : Handling}
    (hprep : Prepares env s msg h) (sent : List FrontendMessage) :
    h.acts.foldl recordSent sent = sent := by
  cases hprep with
  | reclassified => cases msg <;> rfl
  | _ => rfl

/-- Forwarding keeps the slot, and a message that was forwarded has left no `BEGIN` behind. -/
theorem Forwards.state {env : Env} {msg : FrontendMessage} {s : Session} {conn : ConnId}
    {t : SessionTurn} (hfwd : Forwards env msg s conn t) :
    t.state.querySlot = s.querySlot ∧ (t.next = .running → t.state.pendingBegin = none) := by
  have hreplay : (afterReplay s).querySlot = s.querySlot ∧ (afterReplay s).pendingBegin = none := by
    unfold afterReplay
    cases hp : s.pendingBegin with
    | none => exact ⟨rfl, hp⟩
    | some ref => exact ⟨rfl, rfl⟩
  have hprocess : (afterProcess msg (afterReplay s)).querySlot = s.querySlot ∧
      (afterProcess msg (afterReplay s)).pendingBegin = none := by
    unfold afterProcess switchToSessionMode
    split_ifs <;> exact hreplay
  cases hfwd with
  | replayFailed ref hp => exact ⟨rfl, by intro h; cases h⟩
  | processFailed => exact ⟨hreplay.1, fun _ => hreplay.2⟩
  | flushFailed hf => exact ⟨hprocess.1, fun _ => hprocess.2⟩
  | sent => exact ⟨hprocess.1, fun _ => hprocess.2⟩

/-- Serving a client message keeps the slot. -/
theorem Serves.querySlot {env : Env} {msg : FrontendMessage} {s : Session} {t : SessionTurn}
    (hserve : Serves env msg s t) : t.state.querySlot = s.querySlot := by
  cases hserve with
  | revokedUnflushed h err ref hprep => exact hprep.frame.querySlot
  | revoked h err ref hprep => exact hprep.frame.querySlot
  | closed h err hprep => exact hprep.frame.querySlot
  | handled h hprep => exact hprep.frame.querySlot
  | panicked h hprep => exact hprep.frame.querySlot
  | forwarded h conn t hprep _ _ hfwd => exact hfwd.state.1.trans hprep.frame.querySlot
  | _ => rfl

/-- Only a turn that forwards the message sends anything upstream. -/
theorem Serves.sent_or_forwards {env : Env} {msg : FrontendMessage} {s : Session} {t : SessionTurn}
    (hserve : Serves env msg s t) :
    (∀ sent, t.acts.foldl recordSent sent = sent) ∨
      ∃ h conn u, Prepares env s msg h ∧ Forwards env msg h.sess conn u ∧
        t = ⟨u.state, h.acts ++ u.acts, u.next⟩ := by
  have hprepared : ∀ {h : Handling} {acts : List Action}, Prepares env s msg h →
      (∀ sent, acts.foldl recordSent sent = sent) →
      ∀ sent, (h.acts ++ acts).foldl recordSent sent = sent := by
    intro h acts hprep hacts sent
    rw [List.foldl_append, hprep.sent, hacts]
  cases hserve with
  | bufferFailed acts _ hcut =>
    left
    intro sent
    cases hcut <;> rfl
  | revokedUnflushed h err ref hprep => exact .inl (hprepared hprep fun _ => rfl)
  | revoked h err ref hprep => exact .inl (hprepared hprep fun _ => rfl)
  | closed h err hprep => exact .inl (hprepared hprep fun _ => rfl)
  | handled h hprep => exact .inl (hprepared hprep fun _ => rfl)
  | panicked h hprep => exact .inl hprep.sent
  | forwarded h conn u hprep _ _ hfwd => exact .inr ⟨h, conn, u, hprep, hfwd, rfl⟩
  | _ => exact .inl fun _ => rfl

/-- While a `BEGIN` stays buffered nothing is sent upstream. -/
theorem Serves.sent_of_pending {env : Env} {msg : FrontendMessage} {s : Session} {t : SessionTurn}
    (hserve : Serves env msg s t) (hrun : t.next = .running) (hpending : t.state.pendingBegin ≠ none)
    (sent : List FrontendMessage) : t.acts.foldl recordSent sent = sent := by
  obtain hsent | ⟨h, conn, u, -, hfwd, rfl⟩ := hserve.sent_or_forwards
  · exact hsent sent
  · exact absurd (hfwd.state.2 hrun) hpending

/-- The flush after a message sends no further message. -/
theorem foldl_recordSent_flushed (msg : FrontendMessage) (sent : List FrontendMessage) :
    (flushed msg).foldl recordSent sent = sent := by
  unfold flushed
  split_ifs <;> rfl

/-- The replay sends the slot's current text. -/
theorem replayed_of_pending {s : Session} (conn : ConnId) (hpending : s.pendingBegin = some .slot) :
    replayed conn s = [.replay conn (.query s.querySlot) true] := by
  unfold replayed
  rw [hpending]
  rfl

/-- A message forwarded while a `BEGIN` is buffered is sent after the slot's current text. -/
theorem Forwards.sent_of_pending {env : Env} {msg : FrontendMessage} {s : Session} {t : SessionTurn}
    {conn conn' : ConnId} (hfwd : Forwards env msg s conn t) (hpending : s.pendingBegin = some .slot)
    (hforward : Action.forward conn' msg true ∈ t.acts) (sent : List FrontendMessage) :
    t.acts.foldl recordSent sent = sent ++ [.query s.querySlot, msg] := by
  have hreplayed := replayed_of_pending conn hpending
  cases hfwd with
  | replayFailed ref => simp at hforward
  | processFailed => simp [hreplayed] at hforward
  | flushFailed hflush => simp [hreplayed, recordSent]
  | sent =>
    rw [hreplayed, List.foldl_append, List.foldl_cons, List.foldl_append, foldl_recordSent_flushed]
    simp [recordSent]

/-- A client message forwarded while a `BEGIN` is buffered is sent after the slot's text. -/
theorem Serves.sent_of_forward {env : Env} {msg : FrontendMessage} {s : Session} {t : SessionTurn}
    {conn : ConnId} (hserve : Serves env msg s t) (hpending : s.pendingBegin = some .slot)
    (hforward : Action.forward conn msg true ∈ t.acts) (sent : List FrontendMessage) :
    t.acts.foldl recordSent sent = sent ++ [.query s.querySlot, msg] := by
  obtain hsent | ⟨h, conn', u, hprep, hfwd, rfl⟩ := hserve.sent_or_forwards
  · have hmem := mem_foldl_recordSent_of_forward hforward []
    rw [hsent] at hmem
    cases hmem
  · have hp : h.sess.pendingBegin = some .slot := hprep.frame.pendingBegin.trans hpending
    have hmem : Action.forward conn msg true ∈ u.acts :=
      (List.mem_append.mp hforward).resolve_left hprep.forward_not_mem
    rw [List.foldl_append, hprep.sent, hfwd.sent_of_pending hp hmem, hprep.frame.querySlot]

/-- The deferred release sends nothing. -/
theorem foldl_recordSent_turn (s : Session) (ev : Event) (sent : List FrontendMessage) :
    (turn s ev).acts.foldl recordSent sent = (serve s ev).acts.foldl recordSent sent := by
  obtain h | ⟨conn, h⟩ := turn_acts s ev
  · rw [h]
  · rw [h, List.foldl_append]
    rfl

/-- Releasing the upstream sends nothing. -/
theorem foldl_recordSent_releaseUpstream (s : Session) (sent : List FrontendMessage) :
    (releaseUpstream s).2.foldl recordSent sent = sent := by
  unfold releaseUpstream
  cases s.upstream <;> rfl

/-- An upstream message changes neither the slot nor what was sent. -/
theorem onUpstream_sent (env : Env) (msg : BackendMessage) (s : Session)
    (sent : List FrontendMessage) :
    (onUpstream env msg s).state.querySlot = s.querySlot ∧
      (onUpstream env msg s).acts.foldl recordSent sent = sent := by
  unfold onUpstream
  split_ifs
  · have h := swallowBeginResponse_swallows env msg s
    generalize swallowBeginResponse env msg s = t at h ⊢
    cases h <;> exact ⟨rfl, rfl⟩
  · have h := relayUpstream_relays env msg s
    have hslot := (trackReadyForQuery_frame env.now msg s).1.querySlot
    generalize relayUpstream env msg s = t at h ⊢
    cases h with
    | detached hready hmode =>
      refine ⟨(releaseUpstream_frame _).querySlot.trans hslot, ?_⟩
      exact foldl_recordSent_releaseUpstream _ sent
    | kept hheld =>
      refine ⟨hslot, ?_⟩
      simp only [flushedDownstream]
      split_ifs <;> rfl
    | _ => exact ⟨rfl, rfl⟩

/-- A turn keeps the slot up to what it received, and sends nothing while a `BEGIN` stays
buffered. -/
theorem turn_sent {s : Session} {ev : Event} (hrun : (turn s ev).next = .running)
    (hpending : (turn s ev).state.pendingBegin ≠ none) (sent : List FrontendMessage) :
    (turn s ev).state.querySlot = slotAfter s.querySlot ev ∧
      (turn s ev).acts.foldl recordSent sent = sent := by
  have hturn := turn_of_running hrun
  rw [hturn] at hrun hpending ⊢
  cases ev with
  | upstream env msg =>
    simp only [serve]
    split_ifs
    · exact onUpstream_sent env msg s sent
    · exact ⟨rfl, rfl⟩
  | downstream env msg =>
    have hserve := serve_serves s env msg
    refine ⟨hserve.querySlot.trans ?_, hserve.sent_of_pending hrun hpending sent⟩
    cases msg <;> rfl
  | release =>
    exact ⟨(releaseUpstream_frame s).querySlot, foldl_recordSent_releaseUpstream s sent⟩
  | downstreamClosed => cases hrun
  | err => cases hrun
  | done => cases hrun

/-- While a `BEGIN` stays buffered the slot holds the last query received and nothing is sent. -/
theorem run_sendingStep {events : List Event} {w : Watched Session (List FrontendMessage)}
    (hrun : (run sendingStep w events).next = .running)
    (hkeep : Throughout sendingStep (fun w ev => (sendingStep w ev).state.pendingBegin ≠ none)
      w events) :
    (run sendingStep w events).state.querySlot = lastQuery w.state.querySlot events ∧
      (run sendingStep w events).ledger = w.ledger := by
  induction events generalizing w with
  | nil => exact ⟨rfl, rfl⟩
  | cons ev events ih =>
    obtain ⟨hpending, hrest⟩ := hkeep
    obtain ⟨hslot, hsent⟩ := ih hrun hrest
    have hstep : (sendingStep w ev).next = .running := Watched.running_of_run hrun
    have hw : sendingStep w ev = _ := Watched.step_of_running (Watched.running_of_step hstep) ev
    rw [hw] at hstep hpending hslot hsent
    obtain ⟨hslot', hsent'⟩ := turn_sent hstep hpending w.ledger
    rw [run_cons, hw, hslot, hsent]
    refine ⟨?_, hsent'⟩
    simp only [hslot']
    rfl

/-- A `BEGIN` to be buffered is served by buffering it. -/
theorem serve_begin {s : Session} (env : Env) {b : Text}
    (hbuffer : buffersBegin s (.query b) = true) :
    serve s (.downstream env (.query b)) = bufferBegin env (decodeMessage s (.query b)) := by
  have hport : s.port = .compat := by
    simp only [buffersBegin, Bool.and_eq_true, beq_iff_eq] at hbuffer
    exact hbuffer.1.1
  have hread : readPortRefuses (decodeMessage s (.query b)) (.query b) = false := by
    simp [readPortRefuses, decodeMessage, hport]
  have hbuffer' : buffersBegin (decodeMessage s (.query b)) (.query b) = true := hbuffer
  simp [serve, onDownstream, serveMessage, hread, hbuffer']

/-- Buffering a `BEGIN` retains it and sends nothing. -/
theorem bufferBegin_sent (env : Env) (s : Session) (sent : List FrontendMessage) :
    (bufferBegin env s).state = retainBegin s ∧
      (bufferBegin env s).acts.foldl recordSent sent = sent := by
  unfold bufferBegin
  cases env.send beginComplete with
  | false => exact ⟨rfl, rfl⟩
  | true =>
    cases env.send beginReady with
    | false => exact ⟨rfl, rfl⟩
    | true => cases env.flush <;> exact ⟨rfl, rfl⟩

/-- A message forwarded while a `BEGIN` is buffered is sent after the slot's current text. -/
theorem turn_sent_of_forward {s : Session} {env : Env} {m : FrontendMessage} {conn : ConnId}
    (hpending : s.pendingBegin = some .slot)
    (hforward : Action.forward conn m true ∈ (turn s (.downstream env m)).acts)
    (sent : List FrontendMessage) :
    (turn s (.downstream env m)).acts.foldl recordSent sent =
      sent ++ [.query (slotAfter s.querySlot (.downstream env m)), m] := by
  have hserve := serve_serves s env m
  have hdecode : (decodeMessage s m).pendingBegin = some .slot ∧
      (decodeMessage s m).querySlot = slotAfter s.querySlot (.downstream env m) := by
    cases m <;> exact ⟨hpending, rfl⟩
  have hmem : Action.forward conn m true ∈ (serve s (.downstream env m)).acts :=
    (mem_turn_acts (by simp)).mp hforward
  rw [foldl_recordSent_turn, ← hdecode.2]
  exact hserve.sent_of_forward hdecode.1 hmem sent

/-- What a session sends upstream for a buffered `BEGIN` with text `b` and the next forwarded
message `m` is `b` and `m` exactly if the last query received up to and including `m` has the text
`b` again. -/
theorem replays_begin_iff {s : Session} {env env' : Env} {b : Text} (between : List Event)
    {m : FrontendMessage} (conn : ConnId) {w w' : Watched Session (List FrontendMessage)}
    (hbuffer : buffersBegin s (.query b) = true)
    (hw : w = sendingStep ⟨s, [], .running⟩ (.downstream env (.query b)))
    (hw' : w' = run sendingStep w between) (hrun : w'.next = .running)
    (hkeep : Throughout sendingStep (fun w ev => (sendingStep w ev).state.pendingBegin ≠ none)
      w between)
    (hforward : Action.forward conn m true ∈ (turn w'.state (.downstream env' m)).acts) :
    (sendingStep w' (.downstream env' m)).ledger = [.query b, m] ↔
      lastQuery b (between ++ [.downstream env' m]) = b := by
  have hstart : w.state.querySlot = b ∧ w.state.pendingBegin ≠ none ∧ w.ledger = [] := by
    have hwrun : w.next = .running := Watched.running_of_run (hw' ▸ hrun)
    have hstep : w = _ := hw.trans (Watched.step_of_running rfl _)
    rw [hstep] at hwrun ⊢
    have hturn := (turn_of_running hwrun).trans (serve_begin env hbuffer)
    obtain ⟨hstate, hsent⟩ := bufferBegin_sent env (decodeMessage s (.query b)) []
    simp only [hturn, hstate, hsent]
    exact ⟨rfl, Option.some_ne_none _, trivial⟩
  obtain ⟨hslot, hpending, hledger⟩ := hstart
  have hpending' : w'.state.pendingBegin = some .slot := by
    have h : w'.state.pendingBegin ≠ none := by
      rw [hw']
      exact run_invariant
        (I := fun w : Watched Session (List FrontendMessage) => w.state.pendingBegin ≠ none)
        (fun _ _ _ hok => hok) hpending hkeep
    obtain ⟨ref, href⟩ := Option.ne_none_iff_exists'.mp h
    exact href
  obtain ⟨hslot', hledger'⟩ := run_sendingStep (hw' ▸ hrun) hkeep
  rw [← hw', hslot] at hslot'
  rw [← hw', hledger] at hledger'
  have hfinal : sendingStep w' (.downstream env' m) = _ := Watched.step_of_running hrun _
  have hlast : lastQuery b (between ++ [.downstream env' m]) =
      slotAfter w'.state.querySlot (.downstream env' m) := by
    rw [hslot', lastQuery, List.foldl_append]
    rfl
  rw [hfinal, turn_sent_of_forward hpending' hforward, hledger', hlast]
  simp

/-- A `Parse` that follows the `BEGIN` leaves the slot alone. -/
theorem replays_begin_before_parse :
    let env := Env.steady 1 ⟨7, text "node-2", .replica⟩
    let parse := FrontendMessage.parse [] (text "SELECT 1")
    let w := sendingStep ⟨Session.start .compat .transaction 0 1000, [], .running⟩
      (.downstream env (.query (text "BEGIN")))
    (sendingStep w (.downstream env parse)).ledger = [.query (text "BEGIN"), parse] :=
  (replays_begin_iff [] 7 (by decide) rfl rfl (by decide) trivial (by decide)).mpr (by decide)

/-- A simple query that follows the `BEGIN` is sent twice, and the `BEGIN` is not sent. -/
theorem begin_overwritten_by_query :
    let env := Env.steady 1 ⟨7, text "node-2", .replica⟩
    let select := FrontendMessage.query (text "SELECT 1")
    (run sendingStep ⟨Session.start .compat .transaction 0 1000, [], .running⟩
      [.downstream env (.query (text "BEGIN")), .downstream env select]).ledger =
        [select, select] := by
  decide

end Grunyas.Server
