import Grunyas.Machine.Handoff
import Grunyas.Session.Affinity

/-!
# Read loops, main loop and acknowledgements

The main loop, the read loop of the client and the read loops of all leases, as processes over
channels without a buffer. Every direction has one channel for messages and one for
acknowledgements, shared by all read loops of the direction. A process that cannot take a step
waits: a label that is not enabled leaves the processes as they are, and a run is any sequence of
labels. The main loop serves a message between taking it and acknowledging it; no read loop
observes anything in between, so serving is one step.
-/

namespace Grunyas.Server

open GoText Machine

/-- Where the main loop is. -/
inductive MainPc where
  | select
  | handlingClient (msg : FrontendMessage)
  | ackingClient
  | handlingUpstream (lease : ℕ) (msg : BackendMessage)
  | ackingUpstream
  | releasing (lease : ℕ)
  | left
  deriving DecidableEq, Repr

/-- An upstream message that was handled: the lease whose read loop handed it over, and the lease
that was attached. -/
structure HandledFrom where
  lease : ℕ
  attached : Option ℕ
  deriving DecidableEq, Repr

/-- The processes of a session. Leases are numbered in the order in which they were acquired, and
`leases` has the read loop of each. `forwarded` and `sent` are what the main loop has sent to the
upstreams and to the client; `events` is what it has served. -/
structure Net where
  main : MainPc
  sess : Session
  attached : Option ℕ
  client : Reader FrontendMessage
  leases : List (Reader BackendMessage)
  forwarded : List FrontendMessage
  sent : List BackendMessage
  handled : List HandledFrom
  events : List Event

/-- One step of one process, or of two that meet at a channel. -/
inductive Label where
  | clientReceives (msg : FrontendMessage)
  | clientFails
  | leaseReceives (lease : ℕ) (msg : BackendMessage)
  | leaseFails (lease : ℕ)
  | leaseLeaves (lease : ℕ)
  | takeClient
  | takeUpstream (lease : ℕ)
  | handle (env : Env)
  | ackClient
  | ackUpstream (lease : ℕ)
  | released
  | closing

/-- What an action sends to an upstream. -/
def forwardedMsg : Action → Option FrontendMessage
  | .forward _ msg true => some msg
  | .replay _ msg true => some msg
  | _ => none

/-- What an action sends to the client. -/
def sentMsg : Action → Option BackendMessage
  | .relay msg true => some msg
  | .send msg true => some msg
  | _ => none

/-- The read loop that waits for the acknowledgement takes it. -/
def Env.acking (env : Env) : Env := { env with ack := true }

/-- The session has served an event. -/
def Net.record (n : Net) (ev : Event) (t : SessionTurn) : Net :=
  { n with
    sess := t.state
    forwarded := n.forwarded ++ t.acts.filterMap forwardedMsg
    sent := n.sent ++ t.acts.filterMap sentMsg
    events := n.events ++ [ev] }

/-- A new lease starts its read loop. -/
def Net.attach (n : Net) : Net :=
  { n with attached := some n.leases.length, leases := n.leases ++ [.start] }

/-- The lease that is attached is given back: its read loop is told to leave, and the main loop
waits until it has. -/
def Net.detach (n : Net) : Net :=
  match n.attached with
  | some lease =>
    { n with main := .releasing lease, attached := none, leases := n.leases.modify lease .cancel }
  | none => n

/-- Serve a client message. -/
def Net.handleClient (env : Env) (msg : FrontendMessage) (n : Net) : Net :=
  let ev := Event.downstream env.acking msg
  let t := turn n.sess ev
  if t.next = .running then
    let served := { n.record ev t with main := .ackingClient }
    if n.sess.upstream = none ∧ t.state.upstream ≠ none then served.attach else served
  else { n with main := .left }

/-- Serve an upstream message, whichever lease it comes from. -/
def Net.handleUpstream (env : Env) (lease : ℕ) (msg : BackendMessage) (n : Net) : Net :=
  let t := deferredRelease (onUpstream env.acking msg n.sess)
  if t.next = .running then
    let served := { n.record (.upstream env.acking msg) t with
      main := .ackingUpstream, handled := n.handled ++ [⟨lease, n.attached⟩] }
    if n.sess.upstream ≠ none ∧ t.state.upstream = none then served.detach else served
  else { n with main := .left }

/-- One step of the processes. -/
def netStep (n : Net) : Label → Net
  | .clientReceives msg => { n with client := n.client.receive msg }
  | .clientFails => { n with client := n.client.fail }
  | .leaseReceives lease msg => { n with leases := n.leases.modify lease fun r => r.receive msg }
  | .leaseFails lease => { n with leases := n.leases.modify lease fun r => r.fail }
  | .leaseLeaves lease => { n with leases := n.leases.modify lease fun r => r.observeCancel }
  | .takeClient =>
    match n.main, n.client.offer with
    | .select, some msg => { n with main := .handlingClient msg, client := n.client.handOver }
    | _, _ => n
  | .takeUpstream lease =>
    match n.main, n.leases[lease]?.bind Reader.offer with
    | .select, some msg =>
      { n with
        main := .handlingUpstream lease msg
        leases := n.leases.modify lease fun r => r.handOver }
    | _, _ => n
  | .handle env =>
    match n.main with
    | .handlingClient msg => n.handleClient env msg
    | .handlingUpstream lease msg => n.handleUpstream env lease msg
    | _ => n
  | .ackClient =>
    if n.main = .ackingClient ∧ n.client.pc = .awaitingAck then
      { n with main := .select, client := n.client.acknowledge }
    else n
  | .ackUpstream lease =>
    if n.main = .ackingUpstream ∧ n.leases[lease]?.map Reader.pc = some .awaitingAck then
      { n with main := .select, leases := n.leases.modify lease fun r => r.acknowledge }
    else n
  | .released =>
    match n.main with
    | .releasing lease =>
      if n.leases[lease]?.map Reader.pc = some .exited then { n with main := .select } else n
    | _ => n
  | .closing => { n with main := .left }

/-- The processes when the main loop starts. In session mode the first lease is attached. -/
def Session.net (s : Session) : Net where
  main := .select
  sess := s
  attached := s.upstream.map fun _ => 0
  client := .start
  leases := (s.upstream.map fun _ => .start).toList
  forwarded := []
  sent := []
  handled := []
  events := []

/-- The client message that the main loop serves. -/
def MainPc.clientMsg : MainPc → Option FrontendMessage
  | .handlingClient msg => some msg
  | _ => none

/-- The upstream message that the main loop serves. -/
def MainPc.upstreamMsg : MainPc → Option BackendMessage
  | .handlingUpstream _ msg => some msg
  | _ => none

/-- Whether the main loop waits for a read loop to leave. -/
def MainPc.isReleasing : MainPc → Bool
  | .releasing _ => true
  | _ => false

/-- The client messages that were received and not yet passed on. -/
def Net.clientInFlight (n : Net) : List FrontendMessage :=
  n.main.clientMsg.toList ++ n.client.offer.toList

/-- The upstream messages that were received and not yet passed on. -/
def Net.upstreamInFlight (n : Net) : List BackendMessage :=
  n.main.upstreamMsg.toList ++ n.leases.flatMap fun r => r.offer.toList

/-- Messages are passed on in the order in which they were received, each once: all but the one in
flight have been. A read loop waits while its message is served, and messages that were served came
from the lease that was attached. -/
structure Net.ExactlyOnce (n : Net) : Prop where
  forwarded : n.client.received = n.forwarded ++ n.clientInFlight
  clientInFlight : n.clientInFlight.length ≤ 1
  sent : n.leases.flatMap Reader.received = n.sent ++ n.upstreamInFlight
  upstreamInFlight : n.upstreamInFlight.length ≤ 1
  clientWaits : ∀ msg, n.main = .handlingClient msg → n.client.pc = .awaitingAck
  leaseWaits : ∀ lease msg, n.main = .handlingUpstream lease msg →
    n.leases[lease]?.map Reader.pc = some .awaitingAck
  handled : ∀ e ∈ n.handled, e.attached = some e.lease

/-- Where the read loops are, by where the main loop is: a read loop waits for its acknowledgement
while the main loop serves its message. -/
def Phase (clientPc : ReadPc FrontendMessage) (lease : ℕ) (cur : Option (Reader BackendMessage)) :
    MainPc → Prop
  | .select => clientPc ≠ .awaitingAck ∧ ∀ r ∈ cur, r.pc ≠ .awaitingAck
  | .handlingClient _ => clientPc = .awaitingAck ∧ ∀ r ∈ cur, r.pc ≠ .awaitingAck
  | .ackingClient => clientPc = .awaitingAck ∧ ∀ r ∈ cur, r.pc ≠ .awaitingAck
  | .handlingUpstream k _ =>
    clientPc ≠ .awaitingAck ∧ k = lease ∧ ∃ r ∈ cur, r.pc = .awaitingAck
  | .ackingUpstream => clientPc ≠ .awaitingAck ∧ ∃ r ∈ cur, r.pc = .awaitingAck
  | .releasing k =>
    clientPc ≠ .awaitingAck ∧ k = lease ∧ ∃ r ∈ cur, r.pc = .awaitingAck ∨ r.pc = .exited
  | .left => True

/-- The read loops of all leases but the last have left. -/
structure Net.Shape (n : Net) (old : List (Reader BackendMessage))
    (cur : Option (Reader BackendMessage)) : Prop where
  leases : n.leases = old ++ cur.toList
  exited : ∀ r ∈ old, r.pc = .exited
  attached : n.attached = if n.main.isReleasing then none else cur.map fun _ => old.length
  upstream : n.sess.upstream.isSome = n.attached.isSome
  calm : n.main.isReleasing = false → ∀ r ∈ cur, r.cancelled = false
  phase : Phase n.client.pc old.length cur n.main

/-- What was handed over is what was passed on and what is being served. -/
structure Net.Delivers (n : Net) (old : List (Reader BackendMessage))
    (cur : Option (Reader BackendMessage)) : Prop where
  clientLossless : n.client.Lossless
  lossless : ∀ r ∈ old ++ cur.toList, r.Lossless
  forwarded : n.client.handed = n.forwarded ++ n.main.clientMsg.toList
  sent : (old ++ cur.toList).flatMap Reader.handed = n.sent ++ n.main.upstreamMsg.toList
  handled : ∀ h ∈ n.handled, h.attached = some h.lease

/-- The processes are in order. -/
def Net.Ordered (n : Net) : Prop := ∃ old cur, n.Shape old cur ∧ n.Delivers old cur

/-- A session on the write port: no `BEGIN` is buffered, no reply is swallowed. -/
structure OnWritePort (s : Session) : Prop where
  port : s.port = .write
  pendingBegin : s.pendingBegin = none
  swallowing : s.swallowingBeginResponse = false

/-- The processes are in order unless the session is closing, and the session is the one that the
main loop reaches by the events it has served. -/
def Net.Sound (start : Session) (n : Net) : Prop :=
  n.main ≠ .left → n.Ordered ∧ OnWritePort n.sess ∧
    run loopStep start.loop n.events = n.sess.loop

/-- A session within the frame of one on the write port is on the write port. -/
theorem OnWritePort.of_frame {s t : Session} (h : OnWritePort s) (hframe : Frame s t) :
    OnWritePort t :=
  ⟨hframe.port.trans h.port, hframe.pendingBegin.trans h.pendingBegin,
    hframe.swallowing.trans h.swallowing⟩

/-- Preparing the upstream of a session that is not on the compat port: the message is to be
forwarded, or there is no upstream for it. -/
theorem Prepares.plain {env : Env} {s : Session} {msg : FrontendMessage} {h : Handling}
    (hprep : Prepares env s msg h) (hport : s.port ≠ .compat) :
    (h.verdict = .forward ∧ h.acts.filterMap forwardedMsg = [] ∧ h.acts.filterMap sentMsg = []) ∨
      ∃ err, h.verdict = .failed err := by
  cases hprep with
  | held => exact .inl ⟨rfl, rfl, rfl⟩
  | acquired => exact .inl ⟨rfl, rfl, rfl⟩
  | refused err => exact .inr ⟨err, rfl⟩
  | _ => exact absurd (by assumption) hport

/-- A message that is forwarded in full is sent once, and nothing is sent to the client. -/
theorem Forwards.plain {env : Env} {msg : FrontendMessage} {s : Session} {conn : ConnId}
    {t : SessionTurn} (hfwd : Forwards env msg s conn t) (hpending : s.pendingBegin = none)
    (hrunning : t.next = .running) :
    t.acts.filterMap forwardedMsg = [msg] ∧ t.acts.filterMap sentMsg = [] ∧
      t.state.swallowingBeginResponse = s.swallowingBeginResponse := by
  have hquiet : t.acts.filterMap sentMsg = [] := by
    rw [List.filterMap_eq_nil_iff]
    intro act hact
    obtain ⟨_, _, rfl⟩ | ⟨_, rfl⟩ | ⟨_, rfl⟩ | ⟨_, rfl⟩ := hfwd.mem_acts hact <;> rfl
  have hflushed : (flushed msg).filterMap forwardedMsg = [] := by
    unfold flushed
    split_ifs <;> rfl
  cases hfwd with
  | sent =>
    refine ⟨by simp [replayed, hpending, forwardedMsg, hflushed], hquiet, ?_⟩
    rw [afterProcess_swallowing, afterReplay_swallowing]
    simp [hpending]
  | _ => cases hrunning

/-- On the write port a client message that is served in full is sent to the upstream once, and
nothing is sent to the client. -/
theorem Serves.plain {env : Env} {msg : FrontendMessage} {s : Session} {t : SessionTurn}
    (hserve : Serves env msg s t) (h : OnWritePort s) (hrunning : t.next = .running) :
    t.acts.filterMap forwardedMsg = [msg] ∧ t.acts.filterMap sentMsg = [] ∧ OnWritePort t.state := by
  have hport : s.port ≠ .compat := by simp [h.port]
  obtain ⟨hsame, hnone⟩ := hserve.port
  cases hserve with
  | refused hrefuses => simp [readPortRefuses, h.port] at hrefuses
  | buffered hbuffers => cases msg <;> simp [buffersBegin, h.port] at hbuffers
  | revoked h' err ref hprep _ hpending => simp [hprep.frame.pendingBegin, h.pendingBegin] at hpending
  | handled h' hprep hhandled =>
    obtain ⟨hforward, -⟩ | ⟨err, hfailed⟩ := hprep.plain hport
    · simp [hforward] at hhandled
    · simp [hfailed] at hhandled
  | forwarded h' conn u hprep hforward _ hfwd =>
    obtain ⟨-, hquiet⟩ | ⟨err, hfailed⟩ := hprep.plain hport
    · obtain ⟨hforwarded, hsent, hswallow⟩ :=
        hfwd.plain (hprep.frame.pendingBegin.trans h.pendingBegin) hrunning
      refine ⟨?_, ?_, hsame.trans h.port, hnone hport h.pendingBegin, ?_⟩
      · rw [List.filterMap_append, hquiet.1, hforwarded, List.nil_append]
      · rw [List.filterMap_append, hquiet.2, hsent, List.nil_append]
      · rw [hswallow, hprep.frame.swallowing, h.swallowing]
    · simp [hfailed] at hforward
  | _ => cases hrunning

/-- On the write port a client message that is served in full is sent to the upstream once. -/
theorem OnWritePort.turn_downstream {s : Session} (h : OnWritePort s) {env : Env}
    {msg : FrontendMessage} (hrunning : (turn s (.downstream env msg)).next = .running) :
    (turn s (.downstream env msg)).acts.filterMap forwardedMsg = [msg] ∧
      (turn s (.downstream env msg)).acts.filterMap sentMsg = [] ∧
      OnWritePort (turn s (.downstream env msg)).state := by
  have hturn := turn_of_running hrunning
  rw [hturn] at hrunning ⊢
  obtain ⟨slot, hdecode⟩ := decodeMessage_eq s msg
  refine (serve_serves s env msg).plain ?_ hrunning
  rw [hdecode]
  exact ⟨h.port, h.pendingBegin, h.swallowing⟩

/-- On the write port an upstream message that is served in full is sent to the client once. -/
theorem OnWritePort.turn_upstream {s : Session} (h : OnWritePort s) {env : Env}
    {msg : BackendMessage} (hheld : s.upstream ≠ none)
    (hrunning : (turn s (.upstream env msg)).next = .running) :
    (turn s (.upstream env msg)).acts.filterMap forwardedMsg = [] ∧
      (turn s (.upstream env msg)).acts.filterMap sentMsg = [msg] ∧
      OnWritePort (turn s (.upstream env msg)).state := by
  have hturn := turn_of_running hrunning
  rw [hturn] at hrunning ⊢
  have hflushed : (flushedDownstream msg).filterMap forwardedMsg = [] ∧
      (flushedDownstream msg).filterMap sentMsg = [] := by
    unfold flushedDownstream
    split_ifs <;> exact ⟨rfl, rfl⟩
  have hreleased (s : Session) : (releaseUpstream s).2.filterMap forwardedMsg = [] ∧
      (releaseUpstream s).2.filterMap sentMsg = [] := by
    unfold releaseUpstream
    cases s.upstream <;> exact ⟨rfl, rfl⟩
  have hframe := (trackReadyForQuery_frame env.now msg s).1
  obtain ⟨hnone, -⟩ | ⟨-, hswallow, -⟩ | ⟨-, -, hrelay⟩ := serve_upstream_cases s env msg
  · exact absurd hnone hheld
  · simp [h.swallowing] at hswallow
  · generalize serve s (.upstream env msg) = t at hrelay hrunning ⊢
    cases hrelay with
    | detached =>
      exact ⟨(hreleased _).1, congrArg (msg :: ·) (hreleased _).2,
        h.of_frame (hframe.trans (releaseUpstream_frame _))⟩
    | kept =>
      refine ⟨?_, ?_, h.of_frame hframe⟩
      · rw [List.filterMap_cons_none rfl, List.filterMap_append, hflushed.1]
        rfl
      · rw [List.filterMap_cons_some (f := sentMsg) (b := msg) rfl, List.filterMap_append, hflushed.2]
        rfl
    | _ => cases hrunning

/-- Serving a client message keeps the upstream, or acquires one where there was none. -/
theorem turn_downstream_upstream {s : Session} {env : Env} {msg : FrontendMessage}
    (hrunning : (turn s (.downstream env msg)).next = .running) :
    (turn s (.downstream env msg)).state.upstream = s.upstream ∨
      (s.upstream = none ∧ (turn s (.downstream env msg)).state.upstream ≠ none) := by
  rw [turn_of_running hrunning]
  obtain ⟨slot, hdecode⟩ := decodeMessage_eq s msg
  have hserve := (serve_serves s env msg).keepsCustody 0
  rw [hdecode] at hserve
  obtain ⟨-, hkept⟩ | ⟨conn, hup | hup, hkept, -⟩ := hserve
  · exact .inl hkept
  · exact .inr ⟨hup, by simp [hkept]⟩
  · exact .inl (hkept.trans hup.symm)

/-- Serving an upstream message keeps the upstream or gives it back. -/
theorem turn_upstream_upstream {s : Session} {env : Env} {msg : BackendMessage}
    (hrunning : (turn s (.upstream env msg)).next = .running) :
    (turn s (.upstream env msg)).state.upstream = s.upstream ∨
      (turn s (.upstream env msg)).state.upstream = none := by
  rw [turn_of_running hrunning]
  obtain ⟨-, hserve⟩ | ⟨-, -, hdrop⟩ | ⟨-, -, hrelay⟩ := serve_upstream_cases s env msg
  · exact .inl (by rw [hserve]; rfl)
  · generalize serve s (.upstream env msg) = t at hdrop ⊢
    cases hdrop <;> exact .inl rfl
  · generalize serve s (.upstream env msg) = t at hrelay ⊢
    cases hrelay with
    | detached => exact .inr (by rw [releaseUpstream_eq])
    | kept => exact .inl (trackReadyForQuery_frame env.now msg s).2
    | _ => exact .inl rfl

/-- An upstream message from a session with an upstream is served in one turn of its loop. -/
theorem turn_upstream_eq {s : Session} (hheld : s.upstream ≠ none) (env : Env)
    (msg : BackendMessage) :
    turn s (.upstream env msg) = deferredRelease (onUpstream env msg s) := by
  simp [turn, serve, Option.isSome_iff_ne_none, hheld]

/-- The loop after one more event. -/
theorem run_loopStep_snoc {start s : Session} {events : List Event}
    (h : run loopStep start.loop events = s.loop) {ev : Event}
    (hrunning : (turn s ev).next = .running) :
    run loopStep start.loop (events ++ [ev]) = (turn s ev).state.loop := by
  unfold run at h ⊢
  rw [List.foldl_append, h]
  simp [loopStep, Session.loop, Watched.step, hrunning]

section Steps

variable {n : Net} {old : List (Reader BackendMessage)} {cur : Option (Reader BackendMessage)}

/-- The phase depends on whether the client's read loop waits. -/
theorem Phase.congr_client {p q : ReadPc FrontendMessage} {k : ℕ} {m : MainPc}
    (h : Phase p k cur m) (hpq : q = .awaitingAck ↔ p = .awaitingAck) : Phase q k cur m := by
  cases m <;> simp only [Phase, ne_eq, hpq] at h ⊢ <;> exact h

/-- The phase depends on whether the lease's read loop waits. -/
theorem Phase.own_lease {p : ReadPc FrontendMessage} {k : ℕ} {m : MainPc} (h : Phase p k cur m)
    {f : Reader BackendMessage → Reader BackendMessage} (hf : OwnStep f) :
    Phase p k (cur.map f) m := by
  cases cur with
  | none => exact h
  | some r =>
    cases m with
    | releasing j =>
      obtain ⟨hclient, hlease, r', hr', hpc⟩ := h
      cases hr'
      refine ⟨hclient, hlease, f r, rfl, ?_⟩
      obtain hpc | hpc := hpc
      · exact .inl ((hf.awaits r).mpr hpc)
      · exact .inr (by rw [hf.exited r hpc, hpc])
    | left => trivial
    | _ =>
      simpa only [Phase, Option.map_some, Option.mem_some, forall_eq', exists_eq_left', ne_eq,
        hf.awaits] using h

/-- The main loop and the read loops move on, none of them to or from a release. -/
theorem Net.Shape.move (h : n.Shape old cur) {m : MainPc} {c : Reader FrontendMessage}
    {leases : List (Reader BackendMessage)} {cur' : Option (Reader BackendMessage)}
    (hm : m.isReleasing = n.main.isReleasing) (hleases : leases = old ++ cur'.toList)
    (hcur : cur'.map Reader.cancelled = cur.map Reader.cancelled)
    (hphase : Phase c.pc old.length cur' m) :
    { n with main := m, client := c, leases := leases }.Shape old cur' := by
  refine { h with leases := hleases, attached := ?_, calm := ?_, phase := hphase }
  · have hcount : (cur'.map fun _ => old.length) = cur.map fun _ => old.length := by
      have hmap := congrArg (Option.map fun _ => old.length) hcur
      rw [Option.map_map, Option.map_map] at hmap
      exact hmap
    rw [h.attached, hm, hcount]
  · intro hno r hr
    obtain rfl := Option.mem_def.mp hr
    obtain ⟨r', hr', hsame⟩ : ∃ r', cur = some r' ∧ r'.cancelled = r.cancelled := by
      simpa using hcur.symm
    exact hsame.symm.trans (h.calm (hm.symm.trans hno) r' hr')

/-- A change of one lease's read loop: it is the last, or nothing changes. -/
theorem Net.Shape.leases_modify (h : n.Shape old cur) (k : ℕ)
    {f : Reader BackendMessage → Reader BackendMessage} (hf : KeepsExited f) :
    n.leases.modify k f = n.leases ∨ n.leases.modify k f = old ++ (cur.map f).toList := by
  by_cases hk : k = old.length
  · exact .inr (by rw [hk, h.leases, modify_length_append])
  · exact .inl (by rw [h.leases, modify_of_exited h.exited hf hk])

/-- Processes in order, seen from where the main loop stands. -/
theorem Net.Ordered.at_main (h : n.Ordered) {m : MainPc} (hmain : n.main = m) :
    ∃ old cur, n.Shape old cur ∧ n.Delivers old cur ∧ Phase n.client.pc old.length cur m ∧
      n.client.handed = n.forwarded ++ m.clientMsg.toList ∧
      (old ++ cur.toList).flatMap Reader.handed = n.sent ++ m.upstreamMsg.toList := by
  subst hmain
  obtain ⟨old, cur, hshape, hdelivers⟩ := h
  exact ⟨old, cur, hshape, hdelivers, hshape.phase, hdelivers.forwarded, hdelivers.sent⟩

/-- The read loops of a succession have lost nothing. -/
theorem lossless_snoc {r : Reader BackendMessage} :
    (∀ r' ∈ old ++ (some r).toList, r'.Lossless) ↔ (∀ r' ∈ old, r'.Lossless) ∧ r.Lossless := by
  simp [or_imp, forall_and]

/-- A step of the client's read loop on its own. -/
theorem Net.Ordered.own_client (h : n.Ordered)
    {f : Reader FrontendMessage → Reader FrontendMessage} (hf : OwnStep f) :
    { n with client := f n.client }.Ordered := by
  obtain ⟨old, cur, hshape, hdelivers⟩ := h
  refine ⟨old, cur, hshape.move rfl hshape.leases rfl ?_,
    { hdelivers with clientLossless := ?_, forwarded := ?_ }⟩
  · exact hshape.phase.congr_client (hf.awaits n.client)
  · exact hf.lossless _ hdelivers.clientLossless
  · exact (hf.handed n.client).trans hdelivers.forwarded

/-- A step of a lease's read loop on its own. -/
theorem Net.Ordered.own_lease (h : n.Ordered) (k : ℕ)
    {f : Reader BackendMessage → Reader BackendMessage} (hf : OwnStep f) :
    { n with leases := n.leases.modify k f }.Ordered := by
  obtain ⟨old, cur, hshape, hdelivers⟩ := h
  obtain hsame | hchanged := hshape.leases_modify k hf.exited
  · rw [hsame]
    exact ⟨old, cur, hshape, hdelivers⟩
  · have hcancelled : (cur.map f).map Reader.cancelled = cur.map Reader.cancelled := by
      cases cur with
      | none => rfl
      | some r => exact congrArg some (hf.cancelled r)
    refine ⟨old, cur.map f, hshape.move rfl hchanged hcancelled (hshape.phase.own_lease hf), ?_⟩
    cases cur with
    | none => exact { hdelivers with }
    | some r =>
      obtain ⟨hold, hr⟩ := lossless_snoc.mp hdelivers.lossless
      refine { hdelivers with lossless := lossless_snoc.mpr ⟨hold, hf.lossless r hr⟩, sent := ?_ }
      simpa [hf.handed] using hdelivers.sent

/-- A read loop is told to leave only while it waits for its acknowledgement: it leaves with
nothing on offer. -/
theorem Net.Ordered.leave (h : n.Ordered) (k : ℕ) :
    { n with leases := n.leases.modify k fun r => r.observeCancel }.Ordered := by
  obtain ⟨old, cur, hshape, hdelivers⟩ := h
  obtain hsame | hchanged := hshape.leases_modify k keepsExited_observeCancel
  · rw [hsame]
    exact ⟨old, cur, hshape, hdelivers⟩
  · cases hm : n.main.isReleasing with
    | false =>
      have hcalm : cur.map (fun r => r.observeCancel) = cur := by
        cases cur with
        | none => rfl
        | some r => simp [Reader.observeCancel_of_calm (hshape.calm hm r rfl)]
      rw [hchanged, hcalm, ← hshape.leases]
      exact ⟨old, cur, hshape, hdelivers⟩
    | true =>
      obtain ⟨lease, hmain⟩ : ∃ lease, n.main = .releasing lease := by
        cases hmain : n.main <;> simp [hmain, MainPc.isReleasing] at hm ⊢
      have hphase := hshape.phase
      rw [hmain] at hphase
      obtain ⟨hclient, hlease, r, hr, hpc⟩ := hphase
      obtain rfl := Option.mem_def.mp hr
      have hoffer : r.offer = none := by
        unfold Reader.offer
        obtain hpc | hpc := hpc <;> rw [hpc]
      obtain ⟨hold, hr⟩ := lossless_snoc.mp hdelivers.lossless
      have hlossless := hr.observeCancel hoffer
      obtain ⟨hleft, hcancelled, hhanded⟩ := r.observeCancel_cases hpc
      refine ⟨old, some r.observeCancel,
        hshape.move rfl hchanged (congrArg some hcancelled) ?_,
        { hdelivers with lossless := lossless_snoc.mpr ⟨hold, hlossless⟩, sent := ?_ }⟩
      · rw [hmain]
        exact ⟨hclient, hlease, _, rfl, hleft⟩
      · simpa [hhanded] using hdelivers.sent

/-- The main loop takes a client message. -/
theorem Net.Ordered.takeClient (h : n.Ordered) : (netStep n .takeClient).Ordered := by
  simp only [netStep]
  split
  case h_1 msg hmain hoffer =>
    obtain ⟨old, cur, hshape, hdelivers, hphase, hforwarded, hsent⟩ := h.at_main hmain
    have hhanded := Reader.handOver_of_offer hoffer
    refine ⟨old, cur, hshape.move (by rw [hmain]; rfl) hshape.leases rfl ?_,
      { hdelivers with
        clientLossless := hdelivers.clientLossless.handOver, forwarded := ?_, sent := hsent }⟩
    · rw [hhanded]
      exact ⟨rfl, hphase.2⟩
    · rw [hhanded]
      simpa [MainPc.clientMsg] using hforwarded
  case h_2 => exact h

/-- Only the last lease has a message on offer, and the main loop takes it. -/
theorem Net.Ordered.takeUpstream (h : n.Ordered) (lease : ℕ) :
    (netStep n (.takeUpstream lease)).Ordered := by
  simp only [netStep]
  split
  case h_1 msg hmain hget =>
    obtain ⟨old, cur, hshape, hdelivers, hphase, hforwarded, hsent⟩ := h.at_main hmain
    obtain ⟨r, hr, hoffer⟩ := Option.bind_eq_some_iff.mp hget
    rw [hshape.leases] at hr
    obtain ⟨rfl, rfl⟩ := eq_last_of_not_exited hshape.exited hr (Reader.not_exited_of_offer hoffer)
    have hhanded := Reader.handOver_of_offer hoffer
    obtain ⟨hold, hlossless⟩ := lossless_snoc.mp hdelivers.lossless
    refine ⟨old, some r.handOver, hshape.move (by rw [hmain]; rfl) ?_ ?_ ?_,
      { hdelivers with
        lossless := lossless_snoc.mpr ⟨hold, hlossless.handOver⟩, forwarded := hforwarded, sent := ?_ }⟩
    · rw [hshape.leases, modify_length_append]
      rfl
    · rw [hhanded]
      rfl
    · exact ⟨hphase.1, rfl, _, rfl, by rw [hhanded]⟩
    · simp [MainPc.upstreamMsg] at hsent
      simp [hhanded, MainPc.upstreamMsg, ← hsent]
  case h_2 => exact h

/-- The client's read loop takes its acknowledgement. -/
theorem Net.Ordered.ackClient (h : n.Ordered) : (netStep n .ackClient).Ordered := by
  simp only [netStep]
  split_ifs with hack
  · obtain ⟨hmain, hawaits⟩ := hack
    obtain ⟨old, cur, hshape, hdelivers, hphase, hforwarded, hsent⟩ := h.at_main hmain
    have hacknowledged := Reader.acknowledge_of_awaits hawaits
    refine ⟨old, cur, hshape.move (by rw [hmain]; rfl) hshape.leases rfl ?_,
      { hdelivers with
        clientLossless := hdelivers.clientLossless.acknowledge, forwarded := ?_, sent := hsent }⟩
    · rw [hacknowledged]
      exact ⟨by simp, hphase.2⟩
    · rw [hacknowledged]
      exact hforwarded
  · exact h

/-- The read loop that waits for the acknowledgement is the one of the last lease. -/
theorem Net.Ordered.ackUpstream (h : n.Ordered) (lease : ℕ) :
    (netStep n (.ackUpstream lease)).Ordered := by
  simp only [netStep]
  split_ifs with hack
  · obtain ⟨hmain, hget⟩ := hack
    obtain ⟨old, cur, hshape, hdelivers, hphase, hforwarded, hsent⟩ := h.at_main hmain
    obtain ⟨r, hr, hawaits⟩ := Option.map_eq_some_iff.mp hget
    rw [hshape.leases] at hr
    obtain ⟨rfl, rfl⟩ := eq_last_of_not_exited hshape.exited hr (by simp [hawaits])
    have hacknowledged := Reader.acknowledge_of_awaits hawaits
    obtain ⟨hold, hlossless⟩ := lossless_snoc.mp hdelivers.lossless
    refine ⟨old, some r.acknowledge, hshape.move (by rw [hmain]; rfl) ?_ ?_ ?_,
      { hdelivers with
        lossless := lossless_snoc.mpr ⟨hold, hlossless.acknowledge⟩, forwarded := hforwarded,
        sent := ?_ }⟩
    · rw [hshape.leases, modify_length_append]
      rfl
    · rw [hacknowledged]
      rfl
    · refine ⟨hphase.1, fun r' hr' => ?_⟩
      obtain rfl := Option.mem_some.mp hr'
      simp [hacknowledged]
    · simpa [hacknowledged, MainPc.upstreamMsg] using hsent
  · exact h

/-- The read loop of the lease that was given back has left. -/
theorem Net.Ordered.released (h : n.Ordered) : (netStep n .released).Ordered := by
  simp only [netStep]
  split
  case h_1 lease hmain =>
    split_ifs with hget
    · obtain ⟨old, cur, hshape, hdelivers, hphase, hforwarded, hsent⟩ := h.at_main hmain
      have hattached := hshape.attached
      rw [hmain] at hattached
      obtain ⟨hclient, rfl, r, hr, -⟩ := hphase
      obtain rfl := Option.mem_def.mp hr
      have hexited : r.pc = .exited := by simpa [hshape.leases] using hget
      refine ⟨old ++ [r], none,
        { hshape with
          leases := by simpa using hshape.leases, exited := ?_, attached := hattached, calm := ?_,
          phase := ⟨hclient, by simp⟩ },
        { hdelivers with
          lossless := by simpa using hdelivers.lossless, forwarded := hforwarded,
          sent := by simpa [MainPc.upstreamMsg] using hsent }⟩
      · intro r' hr'
        obtain hr' | hr' := List.mem_append.mp hr'
        · exact hshape.exited r' hr'
        · rw [List.mem_singleton.mp hr', hexited]
      · intro _ r' hr'
        cases hr'
    · exact h
  case h_2 => exact h

/-- A lease is attached exactly where the session has an upstream, unless one is being given back. -/
theorem Net.Shape.cur_eq_none (h : n.Shape old cur) (hm : n.main.isReleasing = false)
    (hnone : n.sess.upstream = none) : cur = none := by
  have hup := h.upstream
  rw [hnone, h.attached, hm] at hup
  cases cur with
  | none => rfl
  | some r => cases hup

/-- The main loop serves a client message: it is forwarded once, on the lease that is attached or on
a new one. -/
theorem Net.Ordered.handleClient (h : n.Ordered) (hport : OnWritePort n.sess) {env : Env}
    {msg : FrontendMessage} (hmain : n.main = .handlingClient msg)
    (hrunning : (turn n.sess (.downstream env.acking msg)).next = .running) :
    (n.handleClient env msg).Ordered := by
  obtain ⟨old, cur, hshape, hdelivers, hphase, hforwarded, hsent⟩ := h.at_main hmain
  obtain ⟨hforwards, hsends, -⟩ := hport.turn_downstream hrunning
  have hkept := turn_downstream_upstream hrunning
  have hattached := hshape.attached
  rw [hmain] at hattached
  have hcalm : n.main.isReleasing = false := by rw [hmain]; rfl
  unfold Net.handleClient
  simp only [hrunning, if_true]
  generalize turn n.sess (.downstream env.acking msg) = t at hforwards hsends hkept ⊢
  split_ifs with hnew
  · obtain rfl := hshape.cur_eq_none hcalm hnew.1
    have hleases : n.leases = old := by simpa using hshape.leases
    refine ⟨old, some .start,
      { hshape with
        leases := ?_, attached := ?_, upstream := ?_, calm := ?_, phase := ⟨hphase.1, ?_⟩ },
      { hdelivers with lossless := ?_, forwarded := ?_, sent := ?_ }⟩
    · simp [Net.attach, Net.record, hleases]
    · simp [Net.attach, Net.record, hleases, MainPc.isReleasing]
    · simpa [Net.attach, Net.record, Option.isSome_iff_ne_none] using hnew.2
    · intro _ r hr
      obtain rfl := Option.mem_some.mp hr
      rfl
    · intro r hr
      obtain rfl := Option.mem_some.mp hr
      simp [Reader.start]
    · exact lossless_snoc.mpr ⟨by simpa using hdelivers.lossless, Reader.lossless_start⟩
    · simpa [Net.attach, Net.record, hforwards, MainPc.clientMsg] using hforwarded
    · simpa [Net.attach, Net.record, hsends, MainPc.upstreamMsg, Reader.start] using hsent
  · have hsame : t.state.upstream.isSome = n.sess.upstream.isSome := by
      obtain hkept | hkept := hkept
      · rw [hkept]
      · exact absurd hkept hnew
    refine ⟨old, cur,
      { hshape with
        attached := hattached, upstream := hsame.trans hshape.upstream,
        calm := fun _ => hshape.calm hcalm, phase := hphase },
      { hdelivers with forwarded := ?_, sent := ?_ }⟩
    · simpa [Net.record, hforwards, MainPc.clientMsg] using hforwarded
    · simpa [Net.record, hsends, MainPc.upstreamMsg] using hsent

/-- An upstream message that is being served comes from the lease that is attached. -/
theorem Net.Ordered.attached_of_handling (h : n.Ordered) {lease : ℕ} {msg : BackendMessage}
    (hmain : n.main = .handlingUpstream lease msg) :
    n.attached = some lease ∧ n.sess.upstream ≠ none := by
  obtain ⟨old, cur, hshape, -⟩ := h
  have hphase := hshape.phase
  have hattached := hshape.attached
  rw [hmain] at hphase hattached
  obtain ⟨-, rfl, r, hr, -⟩ := hphase
  obtain rfl := Option.mem_def.mp hr
  have hattached : n.attached = some old.length := hattached
  refine ⟨hattached, Option.isSome_iff_ne_none.mp ?_⟩
  rw [hshape.upstream, hattached]
  rfl

/-- The main loop serves an upstream message of the lease that is attached: it is sent to the client
once, and the lease is kept or given back. -/
theorem Net.Ordered.handleUpstream (h : n.Ordered) (hport : OnWritePort n.sess) {env : Env}
    {lease : ℕ} {msg : BackendMessage} (hmain : n.main = .handlingUpstream lease msg)
    (hrunning : (turn n.sess (.upstream env.acking msg)).next = .running) :
    (n.handleUpstream env lease msg).Ordered := by
  obtain ⟨hattached, hheld⟩ := h.attached_of_handling hmain
  obtain ⟨old, cur, hshape, hdelivers, hphase, hforwarded, hsent⟩ := h.at_main hmain
  obtain ⟨hforwards, hsends, -⟩ := hport.turn_upstream hheld hrunning
  have hkept := turn_upstream_upstream hrunning
  have hcalm : n.main.isReleasing = false := by rw [hmain]; rfl
  obtain ⟨hclient, rfl, r, hr, hawaits⟩ := hphase
  obtain rfl := Option.mem_def.mp hr
  have hhandled : ∀ e ∈ n.handled ++ [⟨old.length, n.attached⟩], e.attached = some e.lease := by
    intro e he
    obtain he | he := List.mem_append.mp he
    · exact hdelivers.handled e he
    · rw [List.mem_singleton.mp he, hattached]
  unfold Net.handleUpstream
  rw [turn_upstream_eq hheld] at hrunning hforwards hsends hkept
  simp only [hrunning, if_true]
  generalize deferredRelease (onUpstream env.acking msg n.sess) = t at hforwards hsends hkept ⊢
  split_ifs with hgiven
  · simp only [Net.detach, Net.record, hattached]
    refine ⟨old, some r.cancel,
      { hshape with
        leases := ?_, attached := rfl, upstream := by simp [hgiven.2], calm := ?_,
        phase := ⟨hclient, rfl, _, rfl, .inl hawaits⟩ },
      { hdelivers with
        lossless := ?_, forwarded := ?_, sent := ?_, handled := hattached ▸ hhandled }⟩
    · rw [hshape.leases, modify_length_append]
      rfl
    · intro hno
      cases hno
    · obtain ⟨hold, hr⟩ := lossless_snoc.mp hdelivers.lossless
      exact lossless_snoc.mpr ⟨hold, hr⟩
    · simpa [hforwards, MainPc.clientMsg] using hforwarded
    · simpa [hsends, MainPc.upstreamMsg, Reader.cancel] using hsent
  · have hsame : t.state.upstream.isSome = n.sess.upstream.isSome := by
      obtain hkept | hkept := hkept
      · rw [hkept]
      · exact absurd ⟨hheld, hkept⟩ hgiven
    refine ⟨old, some r,
      { hshape with
        attached := hattached, upstream := hsame.trans hshape.upstream,
        calm := fun _ => hshape.calm hcalm, phase := ⟨hclient, r, rfl, hawaits⟩ },
      { hdelivers with forwarded := ?_, sent := ?_, handled := hhandled }⟩
    · simpa [Net.record, hforwards, MainPc.clientMsg] using hforwarded
    · simpa [Net.record, hsends, MainPc.upstreamMsg] using hsent

/-- A step of the main loop that serves nothing leaves the session as it is. -/
theorem netStep_session {l : Label} (hl : ∀ env, l ≠ .handle env) :
    (netStep n l).sess = n.sess ∧ (netStep n l).events = n.events := by
  cases l with
  | handle env => exact absurd rfl (hl env)
  | takeClient => simp only [netStep]; split <;> exact ⟨rfl, rfl⟩
  | takeUpstream lease => simp only [netStep]; split <;> exact ⟨rfl, rfl⟩
  | ackClient => simp only [netStep]; split_ifs <;> exact ⟨rfl, rfl⟩
  | ackUpstream lease => simp only [netStep]; split_ifs <;> exact ⟨rfl, rfl⟩
  | released =>
    simp only [netStep]
    split
    · split_ifs <;> exact ⟨rfl, rfl⟩
    · exact ⟨rfl, rfl⟩
  | _ => exact ⟨rfl, rfl⟩

/-- A main loop that has left does not come back. -/
theorem netStep_left (l : Label) (h : n.main = .left) : (netStep n l).main = .left := by
  cases l <;> simp [netStep, h]

end Steps

/-- Serving a client message keeps the processes sound. -/
theorem Net.Sound.handleClient {start : Session} {n : Net} (h : n.Sound start) {env : Env}
    {msg : FrontendMessage} (hmain : n.main = .handlingClient msg) :
    (n.handleClient env msg).Sound start := by
  obtain ⟨hordered, hport, hruns⟩ := h (by simp [hmain])
  intro hleft
  by_cases hrunning : (turn n.sess (.downstream env.acking msg)).next = .running
  · refine ⟨hordered.handleClient hport hmain hrunning, ?_⟩
    have hport := (hport.turn_downstream hrunning).2.2
    have hruns := run_loopStep_snoc hruns hrunning
    unfold Net.handleClient
    simp only [hrunning, if_true]
    split_ifs <;> exact ⟨hport, hruns⟩
  · exact absurd (by simp [Net.handleClient, hrunning]) hleft

/-- Serving an upstream message keeps the processes sound. -/
theorem Net.Sound.handleUpstream {start : Session} {n : Net} (h : n.Sound start) {env : Env}
    {lease : ℕ} {msg : BackendMessage} (hmain : n.main = .handlingUpstream lease msg) :
    (n.handleUpstream env lease msg).Sound start := by
  obtain ⟨hordered, hport, hruns⟩ := h (by simp [hmain])
  obtain ⟨hattached, hheld⟩ := hordered.attached_of_handling hmain
  intro hleft
  by_cases hrunning : (turn n.sess (.upstream env.acking msg)).next = .running
  · refine ⟨hordered.handleUpstream hport hmain hrunning, ?_⟩
    have hport := (hport.turn_upstream hheld hrunning).2.2
    have hruns := run_loopStep_snoc hruns hrunning
    rw [turn_upstream_eq hheld] at hrunning hport hruns
    unfold Net.handleUpstream
    simp only [hrunning, if_true, Net.detach, Net.record, hattached]
    split_ifs <;> exact ⟨hport, hruns⟩
  · rw [turn_upstream_eq hheld] at hrunning
    exact absurd (by simp [Net.handleUpstream, hrunning]) hleft

/-- Every step keeps the processes sound. -/
theorem sound_step (start : Session) (n : Net) (l : Label) (h : n.Sound start) :
    (netStep n l).Sound start := by
  have hquiet {l : Label} (hl : ∀ env, l ≠ .handle env) (hordered : n.Ordered → (netStep n l).Ordered) :
      (netStep n l).Sound start := by
    intro hleft
    obtain ⟨hold, hport, hruns⟩ := h fun hmain => hleft (netStep_left l hmain)
    obtain ⟨hsess, hevents⟩ := netStep_session (n := n) hl
    rw [hsess, hevents]
    exact ⟨hordered hold, hport, hruns⟩
  cases l with
  | clientReceives msg => exact hquiet (by simp) fun h => h.own_client (ownStep_receive msg)
  | clientFails => exact hquiet (by simp) fun h => h.own_client ownStep_fail
  | leaseReceives lease msg => exact hquiet (by simp) fun h => h.own_lease lease (ownStep_receive msg)
  | leaseFails lease => exact hquiet (by simp) fun h => h.own_lease lease ownStep_fail
  | leaseLeaves lease => exact hquiet (by simp) fun h => h.leave lease
  | takeClient => exact hquiet (by simp) Net.Ordered.takeClient
  | takeUpstream lease => exact hquiet (by simp) fun h => h.takeUpstream lease
  | ackClient => exact hquiet (by simp) Net.Ordered.ackClient
  | ackUpstream lease => exact hquiet (by simp) fun h => h.ackUpstream lease
  | released => exact hquiet (by simp) Net.Ordered.released
  | closing => exact fun hleft => absurd rfl hleft
  | handle env =>
    simp only [netStep]
    split
    case h_1 msg hmain => exact h.handleClient hmain
    case h_2 lease msg hmain => exact h.handleUpstream hmain
    case h_3 => exact h

/-- A session on the write port starts with its processes in order. -/
theorem sound_start (mode : PoolMode) (conn : ConnId) (windowMs : ℤ) :
    (Session.start .write mode conn windowMs).net.Sound (Session.start .write mode conn windowMs) := by
  refine fun _ => ⟨⟨[], (Session.start .write mode conn windowMs).upstream.map fun _ => .start, ?_, ?_⟩,
    ⟨rfl, rfl, rfl⟩, rfl⟩
  · cases mode <;> exact ⟨rfl, by simp, rfl, rfl, by simp [Session.start, Reader.start],
      by simp [Session.net, Session.start, Phase, Reader.start]⟩
  · cases mode <;> exact ⟨rfl, by simp [Session.start, Reader.lossless_start], rfl, rfl,
      by simp [Session.net]⟩

/-- Processes that are in order deliver exactly once. -/
theorem Net.Ordered.exactlyOnce {n : Net} (h : n.Ordered) : n.ExactlyOnce := by
  obtain ⟨old, cur, hshape, hdelivers⟩ := h
  have hphase := hshape.phase
  have hoffers : n.leases.flatMap (fun r => r.offer.toList) = (cur.bind Reader.offer).toList := by
    rw [hshape.leases, flatMap_offer hshape.exited]
  refine
    { forwarded := ?_, clientInFlight := ?_, sent := ?_, upstreamInFlight := ?_, clientWaits := ?_,
      leaseWaits := ?_, handled := hdelivers.handled }
  · rw [hdelivers.clientLossless, hdelivers.forwarded, Net.clientInFlight, List.append_assoc]
  · unfold Net.clientInFlight
    cases hmain : n.main with
    | handlingClient msg =>
      rw [hmain] at hphase
      simp [MainPc.clientMsg, Reader.offer_of_awaits hphase.1]
    | _ => exact n.client.offer.length_toList_le
  · rw [Net.upstreamInFlight, hoffers, hshape.leases, flatMap_received hshape.exited hdelivers.lossless,
      hdelivers.sent, List.append_assoc]
  · rw [Net.upstreamInFlight, hoffers]
    cases hmain : n.main with
    | handlingUpstream lease msg =>
      rw [hmain] at hphase
      obtain ⟨-, -, r, hr, hawaits⟩ := hphase
      obtain rfl := Option.mem_def.mp hr
      simp [MainPc.upstreamMsg, Reader.offer_of_awaits hawaits]
    | _ => exact (cur.bind Reader.offer).length_toList_le
  · intro msg hmain
    rw [hmain] at hphase
    exact hphase.1
  · intro lease msg hmain
    rw [hmain] at hphase
    obtain ⟨-, rfl, r, hr, hawaits⟩ := hphase
    obtain rfl := Option.mem_def.mp hr
    simp [hshape.leases, hawaits]

/-- On the write port, as long as the session is not closing, every interleaving of the read loops
and the main loop delivers in order and exactly once in both directions, and is a run of the main
loop. -/
theorem write_port_exactly_once (mode : PoolMode) (conn : ConnId) (windowMs : ℤ)
    (labels : List Label)
    (hopen : (run netStep (Session.start .write mode conn windowMs).net labels).main ≠ .left) :
    (run netStep (Session.start .write mode conn windowMs).net labels).ExactlyOnce ∧
      run loopStep (Session.start .write mode conn windowMs).loop
          (run netStep (Session.start .write mode conn windowMs).net labels).events =
        (run netStep (Session.start .write mode conn windowMs).net labels).sess.loop := by
  have hall : Throughout netStep (fun _ _ => True) (Session.start .write mode conn windowMs).net
      labels := throughout_of_forall fun _ _ => trivial
  have hsound :=
    run_invariant (fun n l hn _ => sound_step _ n l hn) (sound_start mode conn windowMs) hall
  obtain ⟨hordered, -, hruns⟩ := hsound hopen
  exact ⟨hordered.exactlyOnce, hruns⟩

/-- Two transactions on two leases: the second starts after the read loop of the first has left. -/
theorem write_port_exactly_once_two_leases :
    let first := text "SELECT 1"
    let second := text "SELECT 2"
    let labels : List Label :=
      [.clientReceives (.query first), .takeClient, .handle (.steady 1 ⟨7, text "node-1", .primary⟩),
        .leaseReceives 0 (.commandComplete first), .ackClient, .clientReceives (.query second),
        .takeUpstream 0, .handle (.steady 2 ⟨7, text "node-1", .primary⟩), .ackUpstream 0,
        .leaseReceives 0 (.readyForQuery statusIdle), .takeUpstream 0,
        .handle (.steady 3 ⟨7, text "node-1", .primary⟩), .leaseLeaves 0, .released, .takeClient,
        .handle (.steady 4 ⟨8, text "node-1", .primary⟩), .leaseReceives 1 (.commandComplete second)]
    let n := run netStep (Session.start .write .transaction 0 0).net labels
    n.main ≠ .left ∧ n.forwarded = [.query first, .query second] ∧
      n.sent = [.commandComplete first, .readyForQuery statusIdle] ∧
      n.upstreamInFlight = [.commandComplete second] ∧ n.ExactlyOnce := by
  intro first second labels n
  have hopen : n.main ≠ .left := by decide
  exact ⟨hopen, by decide, by decide, by decide,
    (write_port_exactly_once .transaction 0 0 labels hopen).1⟩

end Grunyas.Server
