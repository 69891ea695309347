import Grunyas.Session.Outcomes

/-!
# What waits in the client's buffer

Messages for the client are buffered until the next flush. The session flushes after a fixed list
of message types. A backend that starts a copy from the client, or that has answered a `Flush`
with an empty query, stops and waits although the last message is none of them.
-/

namespace Grunyas.Server

open GoText Machine

/-- An event; for an upstream message, whether it is the last reply to a `Flush` of the client. -/
structure Delivered where
  event : Event
  endsFlush : Bool

/-- Whether the backend stops after a message and waits for the client. -/
def stopsBackend (msg : BackendMessage) (endsFlush : Bool) : Bool :=
  match msg with
  | .readyForQuery _ => true
  | .copyInResponse => true
  | .copyBothResponse => true
  | _ => endsFlush

/-- The messages for the client that are buffered, after an action of the session. -/
def recordBuffered (buffered : List BackendMessage) : Action → List BackendMessage
  | .send msg _ => buffered ++ [msg]
  | .relay msg _ => buffered ++ [msg]
  | .flush true => []
  | _ => buffered

/-- The main loop with the client's buffer. -/
def bufferStep : Watched Session (List BackendMessage) → Delivered →
    Watched Session (List BackendMessage) :=
  Watched.step (fun s i => turn s i.event) (fun buffered _ _ => buffered) recordBuffered

/-- The main loop at its start, with nothing buffered. -/
def Session.buffering (s : Session) : Watched Session (List BackendMessage) := ⟨s, [], .running⟩

/-- Once a message after which the backend waits is handled, nothing is left in the buffer. -/
def NothingWithheld (w : Watched Session (List BackendMessage)) (i : Delivered) : Prop :=
  match i.event with
  | .upstream _ msg =>
    w.next = .running → w.state.upstream ≠ none → stopsBackend msg i.endsFlush = true →
      (bufferStep w i).next = .running → (bufferStep w i).ledger = []
  | _ => True

/-- A message after which the backend waits is one of those that the session flushes. While the
reply to a replayed `BEGIN` is dropped nothing is buffered, or the reply reports a failure. -/
def StopsAtFlush (w : Watched Session (List BackendMessage)) (i : Delivered) : Prop :=
  match i.event with
  | .upstream env msg =>
    w.next = .running → w.state.upstream ≠ none → stopsBackend msg i.endsFlush = true →
      env.ack = true →
        if w.state.swallowingBeginResponse then
          w.ledger = [] ∨ (msg.isReady = true ∧ msg ≠ .readyForQuery statusBlock)
        else env.send msg = true → flushesDownstream msg = true
  | _ => True

/-- Releasing the upstream leaves the buffer alone. -/
theorem foldl_recordBuffered_releaseUpstream (s : Session) (buffered : List BackendMessage) :
    (releaseUpstream s).2.foldl recordBuffered buffered = buffered := by
  unfold releaseUpstream
  cases s.upstream <;> rfl

/-- What is buffered after a relayed message: nothing if the message is flushed. -/
theorem Relays.buffered_iff {env : Env} {msg : BackendMessage} {s : Session} {t : SessionTurn}
    (hrelay : Relays env msg s t) (buffered : List BackendMessage) :
    (t.next = .running → t.acts.foldl recordBuffered buffered = []) ↔
      (env.ack = true → env.send msg = true → flushesDownstream msg = true) := by
  cases hrelay with
  | sendFailed hsend => simp [hsend]
  | flushFailed hflushes => simp [hflushes]
  | detached hready =>
    subst hready
    simp [recordBuffered, foldl_recordBuffered_releaseUpstream]
  | kept _ hsend =>
    cases hflushes : flushesDownstream msg <;>
      simp [hsend, flushedDownstream, hflushes, recordBuffered]

/-- What is buffered after a dropped message: what was buffered before, unless a failure is
reported. -/
theorem Swallows.buffered_iff {env : Env} {msg : BackendMessage} {s : Session} {t : SessionTurn}
    (hdrop : Swallows env msg s t) (buffered : List BackendMessage) :
    (t.next = .running → t.acts.foldl recordBuffered buffered = []) ↔
      (env.ack = true → buffered = [] ∨ (msg.isReady = true ∧ msg ≠ .readyForQuery statusBlock)) := by
  cases hdrop with
  | dropped hother => simp [hother, recordBuffered]
  | begun hready => simp [hready, recordBuffered]
  | flushFailed txStatus hready hfailed => simp [hready, hfailed, BackendMessage.isReady]
  | reported txStatus hready hfailed hflush =>
    simp [hready, hfailed, hflush, BackendMessage.isReady, beginFailedError, sendErrorAndReady,
      sendMessage, recordBuffered]

/-- The deferred release plays no part in a turn after which the loop goes on. -/
theorem turn_buffered_iff (s : Session) (ev : Event) (buffered : List BackendMessage) :
    ((turn s ev).next = .running → (turn s ev).acts.foldl recordBuffered buffered = []) ↔
      ((serve s ev).next = .running → (serve s ev).acts.foldl recordBuffered buffered = []) := by
  constructor
  · intro h hnext
    have hturn := turn_eq_serve hnext
    rw [hturn] at h
    exact h hnext
  · intro h hnext
    have hturn := turn_of_running hnext
    rw [hturn] at hnext ⊢
    exact h hnext

/-- One upstream message leaves nothing withheld exactly if it stops at a flush. -/
theorem nothingWithheld_iff (w : Watched Session (List BackendMessage)) (i : Delivered) :
    NothingWithheld w i ↔ StopsAtFlush w i := by
  obtain ⟨ev, endsFlush⟩ := i
  cases ev with
  | upstream env msg =>
    refine forall_congr' fun hrunning => forall_congr' fun hheld => forall_congr' fun _ => ?_
    have hstep : bufferStep w ⟨.upstream env msg, endsFlush⟩ = _ :=
      Watched.step_of_running hrunning _
    rw [hstep, turn_buffered_iff]
    obtain ⟨hnone, -⟩ | ⟨-, hswallow, hdrop⟩ | ⟨-, hswallow, hrelay⟩ :=
      serve_upstream_cases w.state env msg
    · exact absurd hnone hheld
    · simp only [hswallow, if_true]
      exact hdrop.buffered_iff w.ledger
    · simp only [hswallow, Bool.false_eq_true, if_false]
      exact hrelay.buffered_iff w.ledger
  | _ => exact Iff.rfl

/-- In every run on any port nothing is withheld from the client while the backend waits exactly if
every message after which the backend waits stops at a flush. -/
theorem nothing_withheld_iff (port : Port) (mode : PoolMode) (conn : ConnId) (windowMs : ℤ)
    (inputs : List Delivered) :
    Throughout bufferStep NothingWithheld (Session.start port mode conn windowMs).buffering inputs ↔
      Throughout bufferStep StopsAtFlush (Session.start port mode conn windowMs).buffering inputs := by
  apply throughout_congr (I := fun _ => True)
  · exact fun _ _ _ => trivial
  · exact fun w i _ => nothingWithheld_iff w i
  · trivial

/-- The message that asks the client for the data of a copy stays in the buffer. -/
theorem copyInResponse_withheld :
    let env := Env.steady 1 ⟨7, text "node-1", .primary⟩
    let w := run bufferStep (Session.start .write .transaction 0 0).buffering
      [⟨.downstream env (.query (text "COPY t FROM STDIN")), false⟩]
    ¬NothingWithheld w ⟨.upstream env .copyInResponse, false⟩ ∧
      (bufferStep w ⟨.upstream env .copyInResponse, false⟩).ledger = [.copyInResponse] := by
  intro env w
  have hledger : (bufferStep w ⟨.upstream env .copyInResponse, false⟩).ledger = [.copyInResponse] := by
    decide
  refine ⟨fun h => ?_, hledger⟩
  have hempty := h (by decide) (by decide) rfl (by decide)
  simp [hledger] at hempty

end Grunyas.Server
