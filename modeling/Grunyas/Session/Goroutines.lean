import Grunyas.Machine.Guarded
import Grunyas.Machine.Threads
import Grunyas.Session.Channels
import Grunyas.Session.Leases

/-!
# The goroutines of a session

The goroutines of a session: `Run`, the read loop of the client, the read loop of every lease, and any
number of callers of `Close` (the idle sweeper, the shutdown of the proxy, the watchdog of
`CloseWithError`, and `Run` itself). `Close` runs its body once: it asks for the release of the
upstream, cancels the context, closes the connection, and waits for the read loops if they were
started; a second caller waits until the body has run. Whether they were started is decided under a
lock, which `Run` takes after its greeting and refuses to start them if the context is cancelled.

What `Run` does with a message is what `serve` does; only the steps at which a goroutine can wait are
told apart. A read of a connection that was closed gives what was received before and then fails, and a
write to it fails. A read of an upstream fails if its context is cancelled when it begins; one that is
under way may still give a message. A write to an upstream has no deadline, and `Close` neither cancels
it nor closes that connection: where `Run` flushes a message of the client, and where it resets the
connection of a lease, it may be stuck for ever.

A step has one of a few effects (`goStep_effect`), and each uses up some of the work that is left once
the connection is closed.
-/

namespace Grunyas.Server

open GoText Machine

/-- Where a call of `Close` is. -/
inductive ClosePc where
  | entering
  | signalling
  | cancelling
  | closingConn
  | checking
  | waiting
  | closed
  deriving DecidableEq, Repr

/-- The body of `Close` has not been entered, is being run, or has been run. -/
inductive Once where
  | fresh
  | running
  | finished
  deriving DecidableEq, Repr

/-- Where `Run` is. A lease is given back on the way out or before the next turn of the loop, and
`Close` is called on the way out or, to report an error, before. In `flushStuck` and `releaseStuck` a
write to the upstream never returns. -/
inductive RunPc where
  | startup
  | greeting
  | starting
  | select
  | handlingClient (msg : FrontendMessage)
  | ackingClient
  | handlingUpstream (lease : ℕ) (msg : BackendMessage)
  | ackingUpstream
  | releasing (lease : ℕ) (conn : ConnId) (leaving : Bool)
  | exiting
  | closing (pc : ClosePc) (leaving : Bool)
  | flushStuck
  | releaseStuck (lease : ℕ) (conn : ConnId)
  | returned
  deriving DecidableEq, Repr

/-- Where `Run` is after a step of its own call of `Close`. -/
def ClosePc.resume (leaving : Bool) : ClosePc → RunPc
  | .closed => if leaving then .returned else .exiting
  | pc => .closing pc leaving

/-- The read loop of a lease, whether its context is cancelled, and whether it was when the loop began
to read. -/
structure LeaseLoop where
  pc : ReadPc BackendMessage
  cancelled : Bool
  barred : Bool
  deriving DecidableEq, Repr

/-- The goroutines of a session and what they share. Leases are numbered in the order in which they were
acquired; the client's read loop is `none` until it is started, and `buffered` is what it has received
and not yet read. `acquired` and `givenBack` record the connections. -/
structure Goroutines where
  run : RunPc
  sess : Session
  attached : Option ℕ
  client : Option (ReadPc FrontendMessage)
  buffered : ℕ
  leases : List LeaseLoop
  closers : List ClosePc
  once : Once
  ctxDone : Bool
  connClosed : Bool
  releaseCh : Bool
  errCh : Bool
  acquired : List ConnId
  givenBack : List ConnId

/-- One step of one goroutine, or of two that meet at a channel. -/
inductive GoStep where
  | clientReceives (msg : FrontendMessage) (buffered : ℕ)
  | clientFails
  | clientLeaves
  | leaseReceives (lease : ℕ) (msg : BackendMessage)
  | leaseFails (lease : ℕ)
  | leaseLeaves (lease : ℕ)
  | serverCancels
  | callsClose
  | closer (i : ℕ)
  | startUp (e : StartupEnv)
  | greet (ok : Bool)
  | start
  | takeClient
  | takeUpstream (lease : ℕ)
  | takeClosed
  | takeErr
  | takeRelease
  | takeDone
  | handle (env : Env)
  | flushBlocks (env : Env)
  | ackClient
  | ackUpstream (lease : ℕ)
  | released
  | releaseBlocks
  | exit
  | runCloses

/-- The read loop has returned. -/
def ended {Msg : Type} : ReadPc Msg → Bool
  | .exited => true
  | _ => false

/-- The read loop waits for the main loop. -/
def waits {Msg : Type} : ReadPc Msg → Bool
  | .offering _ => true
  | .awaitingAck => true
  | _ => false

/-- The read loop has returned. -/
theorem ended_iff {Msg : Type} {pc : ReadPc Msg} : ended pc = true ↔ pc = .exited := by
  cases pc <;> simp [ended]

/-- Cancel the context of a lease. -/
def LeaseLoop.cancel (l : LeaseLoop) : LeaseLoop := { l with cancelled := true }

namespace Goroutines

variable (n : Goroutines)

/-- Cancelling the context of the session cancels that of every lease. -/
def cancel : Goroutines := { n with ctxDone := true, leases := n.leases.map LeaseLoop.cancel }

/-- Both kinds of read loops have returned: what `wg.Wait` waits for. -/
def loopsEnded : Bool := n.client.all ended && n.leases.all fun l => ended l.pc

/-- Start the read loop of a new lease. -/
def attach : Goroutines :=
  { n with
    attached := some n.leases.length
    leases := n.leases ++ [⟨.receiving, n.ctxDone, n.ctxDone⟩] }

/-- The session after a turn, with the read loop of a lease that the turn acquired. -/
def record (t : SessionTurn) : Goroutines :=
  let served := { n with sess := t.state, acquired := n.acquired ++ t.acts.filterMap acquiredBy }
  if n.sess.upstream = none ∧ t.state.upstream ≠ none then served.attach else served

/-- Give the lease back: its context is cancelled, and `Run` waits for its read loop. Without a lease
`Run` goes on at once. -/
def letGo (sess : Session) (leaving : Bool) (next : RunPc) : Goroutines :=
  match n.attached, n.sess.upstream with
  | some lease, some conn =>
    { n with
      run := .releasing lease conn leaving
      sess := sess
      attached := none
      leases := n.leases.modify lease LeaseLoop.cancel }
  | _, _ => { n with run := next, sess := sess }

/-- One step of a call of `Close`. -/
def closeStep : ClosePc → Option (Goroutines × ClosePc)
  | .entering =>
    match n.once with
    | .fresh => some ({ n with once := .running }, .signalling)
    | .running => none
    | .finished => some (n, .closed)
  | .signalling => some ({ n with releaseCh := true }, .cancelling)
  | .cancelling => some (n.cancel, .closingConn)
  | .closingConn => some ({ n with connClosed := true }, .checking)
  | .checking =>
    if n.client.isSome then some (n, .waiting) else some ({ n with once := .finished }, .closed)
  | .waiting => if n.loopsEnded then some ({ n with once := .finished }, .closed) else none
  | .closed => none

/-- The startup up to the greeting: a session in session mode acquires its upstream. -/
def begin (e : StartupEnv) : Goroutines :=
  if e.startup then
    match e.authenticate with
    | .error _ => { n with run := .closing .entering false }
    | .ok () =>
      let t := acquireAtStart e.env n.sess
      if t.next = .running then { n.record t with run := .greeting }
      else { n with run := .closing .entering false }
  else { n with run := .exiting }

/-- A turn that reports a fatal error closes the session before it leaves. -/
def reportsFatal (t : SessionTurn) : Bool :=
  t.acts.any fun
    | .send (.errorResponse severity _ _) _ => severity == "FATAL"
    | _ => false

/-- Where `Run` is after a turn. -/
def afterTurn (t : SessionTurn) (next : RunPc) : RunPc :=
  if t.next = .running then next
  else if reportsFatal t then .closing .entering false
  else .exiting

/-- Serve a client message. -/
def handleClient (env : Env) (msg : FrontendMessage) : Goroutines :=
  let t := serve n.sess (.downstream env.acking msg)
  { n.record t with run := afterTurn t .ackingClient }

/-- Serve an upstream message. -/
def handleUpstream (env : Env) (msg : BackendMessage) : Goroutines :=
  let t := serve n.sess (.upstream env.acking msg)
  if n.sess.upstream ≠ none ∧ t.state.upstream = none then n.letGo t.state false .select
  else { n with sess := t.state, run := afterTurn t .ackingUpstream }

/-- One step of the client's read loop. -/
def setClient (pc : ReadPc FrontendMessage) : Goroutines := { n with client := some pc }

/-- One step of the read loop of a lease. -/
def setLease (lease : ℕ) (l : LeaseLoop) : Goroutines := { n with leases := n.leases.set lease l }

/-- A read loop reports an error if there is room for it. -/
def report (reports : Bool) : Goroutines := { n with errCh := n.errCh || reports }

/-- One step of the goroutines, if it is enabled. -/
def goStep : GoStep → Option Goroutines
  | .clientReceives msg buffered =>
    if n.client = some .receiving then
      if n.connClosed then
        if n.buffered = 0 then none
        else some { n.setClient (.offering msg) with buffered := n.buffered - 1 }
      else some { n.setClient (.offering msg) with buffered := buffered }
    else none
  | .clientFails =>
    if n.client = some .receiving then some ((n.setClient .exited).report !n.ctxDone) else none
  | .clientLeaves => if n.ctxDone ∧ n.client.any waits then some (n.setClient .exited) else none
  | .leaseReceives lease msg =>
    match n.leases[lease]? with
    | some ⟨.receiving, cancelled, false⟩ =>
      some (n.setLease lease ⟨.offering msg, cancelled, false⟩)
    | _ => none
  | .leaseFails lease =>
    match n.leases[lease]? with
    | some ⟨.receiving, cancelled, barred⟩ =>
      some ((n.setLease lease ⟨.exited, cancelled, barred⟩).report !cancelled)
    | _ => none
  | .leaseLeaves lease =>
    match n.leases[lease]? with
    | some ⟨pc, true, barred⟩ =>
      if waits pc then some (n.setLease lease ⟨.exited, true, barred⟩) else none
    | _ => none
  | .serverCancels => if n.ctxDone then none else some n.cancel
  | .callsClose => some { n with closers := n.closers ++ [.entering] }
  | .closer i =>
    (n.closers[i]?.bind n.closeStep).map fun r => { r.1 with closers := r.1.closers.set i r.2 }
  | .startUp e => if n.run = .startup then some (n.begin e) else none
  | .greet ok =>
    if n.run = .greeting then some { n with run := if ok then .starting else .exiting } else none
  | .start =>
    if n.run = .starting then
      if n.ctxDone then some { n with run := .exiting }
      else some { n.setClient .receiving with run := .select }
    else none
  | .takeClient =>
    match n.run, n.client with
    | .select, some (.offering msg) => some { n.setClient .awaitingAck with run := .handlingClient msg }
    | _, _ => none
  | .takeUpstream lease =>
    match n.run, n.leases[lease]? with
    | .select, some ⟨.offering msg, cancelled, barred⟩ =>
      some { n.setLease lease ⟨.awaitingAck, cancelled, barred⟩ with run := .handlingUpstream lease msg }
    | _, _ => none
  | .takeClosed =>
    if n.run = .select ∧ n.client = some .exited then some { n with run := .exiting } else none
  | .takeErr =>
    if n.run = .select ∧ n.errCh then some { n with run := .exiting, errCh := false } else none
  | .takeRelease =>
    if n.run = .select ∧ n.releaseCh then
      some ({ n with releaseCh := false }.letGo (releaseUpstream n.sess).1 false .select)
    else none
  | .takeDone =>
    if n.ctxDone ∧ (n.run = .select ∨ n.run = .ackingClient ∨ n.run = .ackingUpstream) then
      some { n with run := .exiting }
    else none
  | .handle env =>
    match n.run with
    | .handlingClient msg => some (n.handleClient env msg)
    | .handlingUpstream _ msg => some (n.handleUpstream env msg)
    | _ => none
  | .flushBlocks env =>
    match n.run with
    | .handlingClient msg =>
      let t := serve n.sess (.downstream env.acking msg)
      if t.state.upstream = none then none else some { n.record t with run := .flushStuck }
    | _ => none
  | .ackClient =>
    if n.run = .ackingClient ∧ n.client = some .awaitingAck then
      some { n.setClient .receiving with run := .select }
    else none
  | .ackUpstream lease =>
    match n.run, n.leases[lease]? with
    | .ackingUpstream, some ⟨.awaitingAck, cancelled, _⟩ =>
      some { n.setLease lease ⟨.receiving, cancelled, cancelled⟩ with run := .select }
    | _, _ => none
  | .released =>
    match n.run with
    | .releasing lease conn leaving =>
      if n.leases[lease]?.any fun l => ended l.pc then
        some { n with
          run := if leaving then .closing .entering true else .select
          givenBack := n.givenBack ++ [conn] }
      else none
    | _ => none
  | .releaseBlocks =>
    match n.run with
    | .releasing lease conn _ =>
      if n.leases[lease]?.any fun l => ended l.pc then some { n with run := .releaseStuck lease conn }
      else none
    | _ => none
  | .exit =>
    if n.run = .exiting then
      some (n.letGo (releaseUpstream n.sess).1 true (.closing .entering true))
    else none
  | .runCloses =>
    match n.run with
    | .closing pc leaving =>
      (n.closeStep pc).map fun r => { r.1 with run := r.2.resume leaving }
    | _ => none

end Goroutines

/-- The goroutines of a session that was just accepted: only `Run` has been started. -/
def Session.goroutines (s : Session) : Goroutines where
  run := .startup
  sess := s
  attached := none
  client := none
  buffered := 0
  leases := []
  closers := []
  once := .fresh
  ctxDone := false
  connClosed := false
  releaseCh := false
  errCh := false
  acquired := []
  givenBack := []

/-- `Run` is neither giving a lease back nor in `Close`, and has not returned. -/
def RunPc.plain : RunPc → Bool
  | .releasing _ _ _ => false
  | .releaseStuck _ _ => false
  | .closing _ _ => false
  | .returned => false
  | _ => true

/-- Where `Run` may go on to: it may call `Close` to report an error. -/
def RunPc.onward : RunPc → Bool
  | .closing .entering false => true
  | pc => pc.plain

/-- What a read loop may still do. A message on offer may cost `Run` a turn. -/
def readWork {Msg : Type} : ReadPc Msg → ℕ
  | .receiving => 1
  | .offering _ => 30
  | .awaitingAck => 2
  | .exited => 0

/-- What the read loop of a lease may still do once its context is cancelled: a read that is under way
may give one more message. -/
def LeaseLoop.work : LeaseLoop → ℕ
  | ⟨.receiving, _, false⟩ => 31
  | ⟨pc, _, _⟩ => readWork pc

/-- What a call of `Close` may still do. Signalling may cost `Run` a release. -/
def ClosePc.work : ClosePc → ℕ
  | .closed => 0
  | .waiting => 1
  | .checking => 2
  | .closingConn => 3
  | .cancelling => 4
  | .signalling => 15
  | .entering => 16

/-- What `Run` may still do. -/
def RunPc.work : RunPc → ℕ
  | .returned => 0
  | .flushStuck => 0
  | .releaseStuck _ _ => 0
  | .closing pc true => 1 + pc.work
  | .releasing _ _ true => 18
  | .exiting => 19
  | .closing pc false => 20 + pc.work
  | .select => 40
  | .ackingClient => 40
  | .ackingUpstream => 40
  | .releasing _ _ false => 45
  | .starting => 50
  | .greeting => 55
  | .startup => 61
  | .handlingClient _ => 61
  | .handlingUpstream _ _ => 61

/-- Serving a client message gives nothing back. -/
theorem Serves.releases_none {env : Env} {msg : FrontendMessage} {s : Session} {t : SessionTurn}
    (hserve : Serves env msg s t) : t.acts.filterMap releasedBy = [] := by
  cases hserve with
  | bufferFailed acts _ hcut => cases hcut <;> rfl
  | forwarded h conn u hprep _ _ hfwd =>
    rw [List.filterMap_append, hprep.leases.2, hfwd.leases.2.1, List.nil_append]
  | revokedUnflushed h err ref hprep => rw [List.filterMap_append, hprep.leases.2]; rfl
  | revoked h err ref hprep => rw [List.filterMap_append, hprep.leases.2]; rfl
  | closed h err hprep => rw [List.filterMap_append, hprep.leases.2]; rfl
  | handled h hprep => rw [List.filterMap_append, hprep.leases.2]; rfl
  | panicked h hprep => exact hprep.leases.2
  | _ => rfl

/-- Serving an upstream message keeps the upstream or gives it back. -/
theorem serve_upstream_upstream (s : Session) (env : Env) (msg : BackendMessage) :
    (serve s (.upstream env msg)).state.upstream = s.upstream ∨
      (serve s (.upstream env msg)).state.upstream = none := by
  obtain ⟨-, hserve⟩ | ⟨-, -, hdrop⟩ | ⟨-, -, hrelay⟩ := serve_upstream_cases s env msg
  · exact .inl (by rw [hserve]; rfl)
  · generalize serve s (.upstream env msg) = t at hdrop ⊢
    cases hdrop <;> exact .inl rfl
  · generalize serve s (.upstream env msg) = t at hrelay ⊢
    cases hrelay with
    | detached => exact .inr (by rw [releaseUpstream_eq])
    | kept => exact .inl (trackReadyForQuery_frame env.now msg s).2
    | _ => exact .inl rfl

/-- The acquisition at the start is balanced and gives nothing back. -/
theorem acquireAtStart_balanced (env : Env) (s : Session) :
    TurnBalanced s (acquireAtStart env s) ∧
      (acquireAtStart env s).acts.filterMap releasedBy = [] := by
  unfold acquireAtStart acquireUpstream
  cases s.poolMode with
  | transaction => exact ⟨.of_kept rfl rfl rfl, rfl⟩
  | session =>
    cases hup : s.upstream with
    | some conn => exact ⟨.of_kept rfl rfl rfl, rfl⟩
    | none =>
      cases env.acquire with
      | ok conn => exact ⟨by simp [TurnBalanced, hup, Turn.log, Turn.andThen, acquiredBy, releasedBy], rfl⟩
      | error err => exact ⟨.of_kept rfl rfl rfl, rfl⟩

namespace Goroutines

/-- What the read loops and the signal to release may still cause. -/
def rest (n : Goroutines) : ℕ :=
  n.client.elim 0 readWork + 32 * n.buffered + (n.leases.map LeaseLoop.work).sum +
    10 * n.releaseCh.toNat

/-- A bound on the steps that a session can take once its connection is closed, unless another caller of
`Close` comes. -/
def work (n : Goroutines) : ℕ := n.run.work + (n.closers.map ClosePc.work).sum + n.rest

/-- What a step can do, and that it costs more than what it causes: `next` is where `Run` is
afterwards. -/
inductive Effect (n : Goroutines) (l : GoStep) : Goroutines → Prop
  | client {old : ReadPc FrontendMessage} (new : ReadPc FrontendMessage) (next : RunPc) (buffered : ℕ)
      (errCh : Bool) (pc : n.client = some old) (live : ended old = false)
      (moves : next = n.run ∨ n.run.plain ∧ next.plain)
      (cost : n.connClosed → next.work + readWork new + 32 * buffered <
        n.run.work + readWork old + 32 * n.buffered) :
    Effect n l { n.setClient new with run := next, buffered := buffered, errCh := errCh }
  | lease {k : ℕ} {old : LeaseLoop} (new : LeaseLoop) (next : RunPc) (errCh : Bool)
      (pc : n.leases[k]? = some old) (live : old.pc ≠ .exited)
      (cancelled : new.cancelled = old.cancelled) (moves : next = n.run ∨ n.run.plain ∧ next.plain)
      (cost : old.cancelled → next.work + new.work < n.run.work + old.work) :
    Effect n l { n.setLease k new with run := next, errCh := errCh }
  | cancel (fresh : n.ctxDone = false) : Effect n l n.cancel
  | callsClose (calls : l = .callsClose) : Effect n l { n with closers := n.closers ++ [.entering] }
  | closer {i : ℕ} {pc : ClosePc} {r : Goroutines × ClosePc} (calling : n.closers[i]? = some pc)
      (step : n.closeStep pc = some r) :
    Effect n l { r.1 with closers := r.1.closers.set i r.2 }
  | moved (next : RunPc) (errCh : Bool) (plain : n.run.plain) (onward : next.onward)
      (cost : next.work < n.run.work) :
    Effect n l { n with run := next, errCh := errCh }
  | start (fresh : n.ctxDone = false) (plain : n.run.plain) :
    Effect n l { n.setClient .receiving with run := .select }
  | served (t : SessionTurn) (next : RunPc) (balanced : TurnBalanced n.sess t)
      (keeps : t.acts.filterMap releasedBy = []) (plain : n.run.plain) (onward : next.onward)
      (cost : next.work + 1 < n.run.work) :
    Effect n l { n.record t with run := next }
  | relayed (sess : Session) (next : RunPc) (keeps : sess.upstream = n.sess.upstream)
      (plain : n.run.plain) (onward : next.onward) (cost : next.work < n.run.work) :
    Effect n l { n with sess := sess, run := next }
  | letGo (sess : Session) (releaseCh : Bool) (none : sess.upstream = none) (plain : n.run.plain)
      (cost : 45 + 10 * releaseCh.toNat < n.run.work + 10 * n.releaseCh.toNat) :
    Effect n l ({ n with releaseCh := releaseCh }.letGo sess false .select)
  | leave (sess : Session) (none : sess.upstream = none) (exiting : n.run = .exiting) :
    Effect n l (n.letGo sess true (.closing .entering true))
  | released {lease : ℕ} {conn : ConnId} {leaving : Bool} {loop : LeaseLoop}
      (releasing : n.run = .releasing lease conn leaving) (pc : n.leases[lease]? = some loop)
      (ended : loop.pc = .exited) :
    Effect n l { n with
      run := if leaving then .closing .entering true else .select
      givenBack := n.givenBack ++ [conn] }
  | releaseStuck {lease : ℕ} {conn : ConnId} {leaving : Bool}
      (releasing : n.run = .releasing lease conn leaving) :
    Effect n l { n with run := .releaseStuck lease conn }
  | runCloses {pc : ClosePc} {leaving : Bool} {r : Goroutines × ClosePc}
      (closing : n.run = .closing pc leaving) (step : n.closeStep pc = some r) :
    Effect n l { r.1 with run := r.2.resume leaving }

variable {n m : Goroutines}

/-- After a turn `Run` goes on or leaves, and has at most to wait in its loop. -/
theorem afterTurn_onward (t : SessionTurn) {next : RunPc} (hnext : next.plain ∧ next.work ≤ 40) :
    (afterTurn t next).onward ∧ (afterTurn t next).work ≤ 40 := by
  unfold afterTurn
  split_ifs
  · refine ⟨?_, hnext.2⟩
    unfold RunPc.onward
    split
    · rfl
    · exact hnext.1
  · exact ⟨rfl, by simp [RunPc.work, ClosePc.work]⟩
  · exact ⟨rfl, by simp [RunPc.work]⟩

/-- The startup acquires at most one upstream. -/
theorem begin_effect (hrun : n.run = .startup) (e : StartupEnv) (l : GoStep) :
    Effect n l (n.begin e) := by
  have hplain : n.run.plain = true := by
    rw [hrun]
    rfl
  unfold begin
  split_ifs
  · cases e.authenticate with
    | error err =>
      exact .moved (.closing .entering false) n.errCh hplain rfl (by simp [hrun, RunPc.work, ClosePc.work])
    | ok _ =>
      obtain ⟨hbalanced, hkeeps⟩ := acquireAtStart_balanced e.env n.sess
      dsimp only
      split_ifs
      · exact .served _ .greeting hbalanced hkeeps hplain rfl (by simp [hrun, RunPc.work])
      · exact .moved (.closing .entering false) n.errCh hplain rfl
          (by simp [hrun, RunPc.work, ClosePc.work])
  · exact .moved .exiting n.errCh hplain rfl (by simp [hrun, RunPc.work])

/-- Serving a client message acquires at most one upstream and gives none back. -/
theorem handleClient_effect {msg : FrontendMessage} (hrun : n.run = .handlingClient msg) (env : Env)
    (l : GoStep) : Effect n l (n.handleClient env msg) := by
  obtain ⟨honward, hle⟩ := afterTurn_onward (serve n.sess (.downstream env.acking msg))
    (show RunPc.plain .ackingClient = true ∧ RunPc.work .ackingClient ≤ 40 from ⟨rfl, Nat.le_refl _⟩)
  refine .served _ _ (serve_balanced n.sess _).1 ?_ (by rw [hrun]; rfl) honward ?_
  · exact (serve_serves n.sess env.acking msg).releases_none
  · have hhere : n.run.work = 61 := by
      rw [hrun]
      rfl
    omega

/-- Serving an upstream message keeps the upstream or gives it back. -/
theorem handleUpstream_effect {lease : ℕ} {msg : BackendMessage}
    (hrun : n.run = .handlingUpstream lease msg) (env : Env) (l : GoStep) :
    Effect n l (n.handleUpstream env msg) := by
  have hplain : n.run.plain = true := by
    rw [hrun]
    rfl
  have hhere : n.run.work = 61 := by
    rw [hrun]
    rfl
  unfold handleUpstream
  dsimp only
  split_ifs with hdetached
  · exact .letGo _ n.releaseCh hdetached.2 hplain (by omega)
  · obtain ⟨honward, hle⟩ := afterTurn_onward (serve n.sess (.upstream env.acking msg))
      (show RunPc.plain .ackingUpstream = true ∧ RunPc.work .ackingUpstream ≤ 40 from
        ⟨rfl, Nat.le_refl _⟩)
    refine .relayed _ _ ?_ hplain honward (by omega)
    obtain hsame | hnone := serve_upstream_upstream n.sess env.acking msg
    · exact hsame
    · by_contra hother
      exact hdetached ⟨fun hfree => hother (hnone.trans hfree.symm), hnone⟩

/-- The client's read loop receives a message: once the connection is closed, one of those that it has
buffered. -/
theorem clientReceives_effect {msg : FrontendMessage} {buffered : ℕ}
    (hstep : n.goStep (.clientReceives msg buffered) = some m) :
    Effect n (.clientReceives msg buffered) m := by
  delta goStep at hstep
  dsimp only at hstep
  split_ifs at hstep with hclient hconn hempty <;> cases hstep
  · exact .client (.offering msg) n.run (n.buffered - 1) n.errCh hclient rfl (.inl rfl) fun _ => by
      simp only [readWork]
      omega
  · exact .client (.offering msg) n.run buffered n.errCh hclient rfl (.inl rfl)
      fun hclosed => absurd hclosed hconn

/-- The client's read loop returns on an error, or because the context is cancelled while it waits. -/
theorem clientFails_effect (hstep : n.goStep .clientFails = some m) : Effect n .clientFails m := by
  delta goStep at hstep
  dsimp only at hstep
  split_ifs at hstep with hclient
  cases hstep
  exact .client .exited n.run n.buffered _ hclient rfl (.inl rfl) fun _ => by simp [readWork]

theorem clientLeaves_effect (hstep : n.goStep .clientLeaves = some m) : Effect n .clientLeaves m := by
  delta goStep at hstep
  dsimp only at hstep
  split_ifs at hstep with hleaves
  cases hstep
  obtain ⟨pc, hpc, hwaits⟩ := (Option.any_eq_true _ _).mp hleaves.2
  refine .client .exited n.run n.buffered n.errCh hpc ?_ (.inl rfl) fun _ => ?_
  · cases pc <;> simp_all [waits, ended]
  · cases pc <;> simp_all [waits, readWork]

/-- The read loop of a lease receives a message, and returns as the client's does. -/
theorem leaseReceives_effect {lease : ℕ} {msg : BackendMessage}
    (hstep : n.goStep (.leaseReceives lease msg) = some m) : Effect n (.leaseReceives lease msg) m := by
  delta goStep at hstep
  dsimp only at hstep
  split at hstep <;> cases hstep
  next cancelled hk =>
  exact .lease _ n.run n.errCh hk (by simp) rfl (.inl rfl) fun _ => by simp [LeaseLoop.work, readWork]

theorem leaseFails_effect {lease : ℕ} (hstep : n.goStep (.leaseFails lease) = some m) :
    Effect n (.leaseFails lease) m := by
  delta goStep at hstep
  dsimp only at hstep
  split at hstep <;> cases hstep
  next cancelled barred hk =>
  refine .lease ⟨.exited, cancelled, barred⟩ n.run _ hk (by simp) rfl (.inl rfl) fun _ => ?_
  cases barred <;> simp [LeaseLoop.work, readWork]

theorem leaseLeaves_effect {lease : ℕ} (hstep : n.goStep (.leaseLeaves lease) = some m) :
    Effect n (.leaseLeaves lease) m := by
  delta goStep at hstep
  dsimp only at hstep
  split at hstep
  · next pc barred hk =>
    split_ifs at hstep with hwaits
    cases hstep
    refine .lease ⟨.exited, true, barred⟩ n.run n.errCh hk ?_ rfl (.inl rfl) fun _ => ?_
    · cases pc <;> simp_all [waits]
    · cases pc <;> simp_all [LeaseLoop.work, waits, readWork]
  · cases hstep

/-- `Run` greets the client and starts its read loop, unless the context is cancelled. -/
theorem greet_effect {ok : Bool} (hstep : n.goStep (.greet ok) = some m) : Effect n (.greet ok) m := by
  delta goStep at hstep
  dsimp only at hstep
  split_ifs at hstep with hrun hok <;> cases hstep <;>
    exact .moved _ n.errCh (by rw [hrun]; rfl) rfl (by simp [hrun, RunPc.work])

theorem start_effect (hstep : n.goStep .start = some m) : Effect n .start m := by
  delta goStep at hstep
  dsimp only at hstep
  split_ifs at hstep with hrun hctx <;> cases hstep
  · exact .moved _ n.errCh (by rw [hrun]; rfl) rfl (by simp [hrun, RunPc.work])
  · exact .start (by simpa using hctx) (by rw [hrun]; rfl)

/-- The main loop takes a message that a read loop offers. -/
theorem takeClient_effect (hstep : n.goStep .takeClient = some m) : Effect n .takeClient m := by
  delta goStep at hstep
  dsimp only at hstep
  split at hstep <;> cases hstep
  next msg hrun hclient =>
  exact .client .awaitingAck _ n.buffered n.errCh hclient rfl (.inr ⟨by rw [hrun]; rfl, rfl⟩)
    fun _ => by simp [hrun, RunPc.work, readWork]

theorem takeUpstream_effect {lease : ℕ} (hstep : n.goStep (.takeUpstream lease) = some m) :
    Effect n (.takeUpstream lease) m := by
  delta goStep at hstep
  dsimp only at hstep
  split at hstep <;> cases hstep
  next msg cancelled barred hrun hk =>
  exact .lease _ _ n.errCh hk (by simp) rfl (.inr ⟨by rw [hrun]; rfl, rfl⟩) fun _ => by
    simp [hrun, RunPc.work, LeaseLoop.work, readWork]

/-- The main loop leaves because the client's read loop has returned, because a read loop reports an
error, or because the context is cancelled. -/
theorem takeClosed_effect (hstep : n.goStep .takeClosed = some m) : Effect n .takeClosed m := by
  delta goStep at hstep
  dsimp only at hstep
  split_ifs at hstep with hrun
  cases hstep
  exact .moved _ n.errCh (by rw [hrun.1]; rfl) rfl (by simp [hrun.1, RunPc.work])

theorem takeErr_effect (hstep : n.goStep .takeErr = some m) : Effect n .takeErr m := by
  delta goStep at hstep
  dsimp only at hstep
  split_ifs at hstep with hrun
  cases hstep
  exact .moved _ false (by rw [hrun.1]; rfl) rfl (by simp [hrun.1, RunPc.work])

theorem takeDone_effect (hstep : n.goStep .takeDone = some m) : Effect n .takeDone m := by
  delta goStep at hstep
  dsimp only at hstep
  split_ifs at hstep with hrun
  cases hstep
  obtain hpc | hpc | hpc := hrun.2 <;>
    exact .moved _ n.errCh (by rw [hpc]; rfl) rfl (by simp [hpc, RunPc.work])

/-- The main loop gives the upstream back when it is asked to. -/
theorem takeRelease_effect (hstep : n.goStep .takeRelease = some m) : Effect n .takeRelease m := by
  delta goStep at hstep
  dsimp only at hstep
  split_ifs at hstep with hrun
  cases hstep
  exact .letGo _ false (by rw [releaseUpstream_eq]) (by rw [hrun.1]; rfl) (by simp [hrun, RunPc.work])

/-- The main loop serves the message that it took, or is stuck when it writes it. -/
theorem handle_effect {env : Env} (hstep : n.goStep (.handle env) = some m) : Effect n (.handle env) m := by
  delta goStep at hstep
  dsimp only at hstep
  split at hstep <;> cases hstep
  · next msg hrun => exact handleClient_effect hrun env _
  · next lease msg hrun => exact handleUpstream_effect hrun env _

theorem flushBlocks_effect {env : Env} (hstep : n.goStep (.flushBlocks env) = some m) :
    Effect n (.flushBlocks env) m := by
  delta goStep at hstep
  dsimp only at hstep
  split at hstep
  · next msg hrun =>
    split_ifs at hstep
    cases hstep
    exact .served _ .flushStuck (serve_balanced n.sess _).1
      (serve_serves n.sess env.acking msg).releases_none (by rw [hrun]; rfl) rfl
      (by simp [hrun, RunPc.work])
  · cases hstep

/-- The main loop lets a read loop go on. -/
theorem ackClient_effect (hstep : n.goStep .ackClient = some m) : Effect n .ackClient m := by
  delta goStep at hstep
  dsimp only at hstep
  split_ifs at hstep with hrun
  cases hstep
  exact .client .receiving _ n.buffered n.errCh hrun.2 rfl (.inr ⟨by rw [hrun.1]; rfl, rfl⟩)
    fun _ => by simp [hrun.1, RunPc.work, readWork]

theorem ackUpstream_effect {lease : ℕ} (hstep : n.goStep (.ackUpstream lease) = some m) :
    Effect n (.ackUpstream lease) m := by
  delta goStep at hstep
  dsimp only at hstep
  split at hstep <;> cases hstep
  next cancelled barred hrun hk =>
  refine .lease _ _ n.errCh hk (by simp) rfl (.inr ⟨by rw [hrun]; rfl, rfl⟩) fun hcancelled => ?_
  obtain rfl : cancelled = true := hcancelled
  simp [hrun, RunPc.work, LeaseLoop.work, readWork]

/-- A connection is given back when its read loop has returned, or `Run` is stuck when it resets it. -/
theorem released_effect (hstep : n.goStep .released = some m) : Effect n .released m := by
  delta goStep at hstep
  dsimp only at hstep
  split at hstep
  · next lease conn leaving hrun =>
    rw [Option.ite_none_right_eq_some] at hstep
    obtain ⟨hended, hsome⟩ := hstep
    obtain ⟨loop, hloop, hexited⟩ := (Option.any_eq_true _ _).mp hended
    cases hsome
    exact .released hrun hloop (ended_iff.mp hexited)
  · cases hstep

theorem releaseBlocks_effect (hstep : n.goStep .releaseBlocks = some m) :
    Effect n .releaseBlocks m := by
  delta goStep at hstep
  dsimp only at hstep
  split at hstep
  · next lease conn leaving hrun =>
    rw [Option.ite_none_right_eq_some] at hstep
    obtain ⟨-, hsome⟩ := hstep
    cases hsome
    exact .releaseStuck hrun
  · cases hstep

/-- `Run` takes a step of its own call of `Close`. -/
theorem runCloses_effect (hstep : n.goStep .runCloses = some m) : Effect n .runCloses m := by
  delta goStep at hstep
  dsimp only at hstep
  split at hstep
  · next pc leaving hrun =>
    obtain ⟨r, hr, rfl⟩ := Option.map_eq_some_iff.mp hstep
    exact .runCloses hrun hr
  · cases hstep

/-- Every step has one of these effects. -/
theorem goStep_effect {l : GoStep} (hstep : n.goStep l = some m) : Effect n l m := by
  cases l with
  | clientReceives msg buffered => exact clientReceives_effect hstep
  | clientFails => exact clientFails_effect hstep
  | clientLeaves => exact clientLeaves_effect hstep
  | leaseReceives lease msg => exact leaseReceives_effect hstep
  | leaseFails lease => exact leaseFails_effect hstep
  | leaseLeaves lease => exact leaseLeaves_effect hstep
  | serverCancels =>
    simp only [goStep] at hstep
    split_ifs at hstep with hctx
    cases hstep
    exact .cancel (by simpa using hctx)
  | callsClose =>
    cases hstep
    exact .callsClose rfl
  | closer i =>
    simp only [goStep, Option.map_eq_some_iff, Option.bind_eq_some_iff] at hstep
    obtain ⟨r, ⟨pc, hpc, hr⟩, rfl⟩ := hstep
    exact .closer hpc hr
  | startUp e =>
    simp only [goStep] at hstep
    split_ifs at hstep with hrun
    cases hstep
    exact begin_effect hrun e _
  | greet ok => exact greet_effect hstep
  | start => exact start_effect hstep
  | takeClient => exact takeClient_effect hstep
  | takeUpstream lease => exact takeUpstream_effect hstep
  | takeClosed => exact takeClosed_effect hstep
  | takeErr => exact takeErr_effect hstep
  | takeRelease => exact takeRelease_effect hstep
  | takeDone => exact takeDone_effect hstep
  | handle env => exact handle_effect hstep
  | flushBlocks env => exact flushBlocks_effect hstep
  | ackClient => exact ackClient_effect hstep
  | ackUpstream lease => exact ackUpstream_effect hstep
  | released => exact released_effect hstep
  | releaseBlocks => exact releaseBlocks_effect hstep
  | exit =>
    simp only [goStep] at hstep
    split_ifs at hstep with hrun
    cases hstep
    exact .leave _ (by rw [releaseUpstream_eq]) hrun
  | runCloses => exact runCloses_effect hstep

end Goroutines

end Grunyas.Server
