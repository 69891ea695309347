import Grunyas.Session.Outcomes

/-!
# Calls through a missing upstream

In a failed transaction a compat session hands a `ROLLBACK` to the upstream without asking for
one, and so it does with a query or a `Sync` whose answer it could not flush. It relies on holding
the upstream for as long as the transaction is failed. Closing the session from outside breaks
this: the upstream is given back, and the record of the failed transaction stays.
-/

namespace Grunyas.Server

open GoText Grunyas.Classifier Machine

/-- No message is processed, and nothing flushed, through a missing upstream. -/
def NoMissingUpstream (w : Watched Session Unit) (ev : Event) : Prop :=
  w.next = .running → (turn w.state ev).next ≠ .panicked

/-- Whether a failed transaction lets a message through to the upstream: a `ROLLBACK`, and a request
whose answer cannot be flushed. -/
def passesFailed (env : Env) : FrontendMessage → Bool
  | .query string => isRollback string || !env.flush
  | .sync => !env.flush
  | _ => false

/-- The transaction is failed and its upstream was given back. -/
def Session.Stranded (s : Session) : Prop :=
  s.port = .compat ∧ s.compatTxState = .inFailedTransaction ∧ s.upstream = none

instance (s : Session) : Decidable s.Stranded := inferInstanceAs (Decidable (_ ∧ _ ∧ _))

/-- A stranded session gets no message that a failed transaction lets through. -/
def StrandedGetsNothing (w : Watched Session Unit) : Event → Prop
  | .downstream env msg =>
    w.next = .running → w.state.Stranded → buffersBegin w.state msg = false →
      passesFailed env msg = false
  | _ => True

/-- The upstream is not given back from outside while the transaction is failed. -/
def ReleasesUnfailed (w : Watched Session Unit) : Event → Prop
  | .release => w.next = .running → w.state.compatTxState ≠ .inFailedTransaction
  | _ => True

/-- A message is to be forwarded without an upstream only in a stranded session. -/
theorem Prepares.forward_none_iff {env : Env} {s : Session} {msg : FrontendMessage} {h : Handling}
    (hprep : Prepares env s msg h) :
    (h.verdict = .forward ∧ h.sess.upstream = none) ↔
      (s.Stranded ∧ passesFailed env msg = true) := by
  cases hprep with
  | held conn hport hup => simp [Session.Stranded, hport, hup]
  | acquired conn hport => simp [Session.Stranded, hport]
  | refused err hport => simp [Session.Stranded, hport]
  | rollback string hport htx hmsg hr => simp [Session.Stranded, hport, htx, hmsg, passesFailed, hr]
  | abortedQuery string hport htx hmsg hr =>
    simp [Session.Stranded, hport, htx, hmsg, passesFailed, hr, and_comm]
  | abortedSync hport htx hmsg => simp [Session.Stranded, hport, htx, hmsg, passesFailed, and_comm]
  | aborted hport htx hreq =>
    cases msg with
    | query string => cases hreq
    | sync => cases hreq
    | _ => simp [passesFailed]
  | otherHeld conn _ htx _ hup => simp [Session.Stranded, htx, hup]
  | otherLeased lease _ htx => simp [Session.Stranded, htx, setUpstreamLease]
  | otherRefused err _ htx => simp [Session.Stranded, htx]
  | reclassified stmt conn _ htx _ hup =>
    have hheld : (failTransaction (cacheClass s stmt)).upstream = some conn := hup
    simp [Session.Stranded, htx, hheld]
  | continued stmt conn _ htx _ hup =>
    simp [Session.Stranded, htx, (continueTransaction_frame _ _ _).2, cacheClass, hup]
  | leased stmt lease _ htx => simp [Session.Stranded, htx, (beginTransaction_frame _ _ _ _).2]
  | leaseRefused stmt err _ htx => simp [Session.Stranded, htx]

/-- A turn panics exactly if a stranded session gets a message that a failed transaction lets
through. -/
theorem Serves.panicked_iff {env : Env} {msg : FrontendMessage} {s : Session} {t : SessionTurn}
    (hserve : Serves env msg s t) :
    t.next = .panicked ↔
      s.Stranded ∧ buffersBegin s msg = false ∧ passesFailed env msg = true := by
  cases hserve with
  | terminated hterm => simp [hterm, passesFailed]
  | refusedUnflushed href =>
    simp only [readPortRefuses, Bool.and_eq_true, beq_iff_eq] at href
    simp [Session.Stranded, href.1]
  | refused href =>
    simp only [readPortRefuses, Bool.and_eq_true, beq_iff_eq] at href
    simp [Session.Stranded, href.1]
  | bufferFailed acts hbuf => simp [hbuf]
  | buffered hbuf => simp [hbuf]
  | revokedUnflushed h err ref hprep hfailed _ _ hplain =>
    have hiff := hprep.forward_none_iff
    simp only [hfailed] at hiff
    simp [hplain, ← hiff]
  | revoked h err ref hprep hfailed _ _ hplain =>
    have hiff := hprep.forward_none_iff
    simp only [hfailed] at hiff
    simp [hplain, ← hiff]
  | closed h err hprep hfailed _ hplain =>
    have hiff := hprep.forward_none_iff
    simp only [hfailed] at hiff
    simp [hplain, ← hiff]
  | handled h hprep hhandled hplain =>
    have hiff := hprep.forward_none_iff
    simp only [hhandled] at hiff
    simp [hplain, ← hiff]
  | panicked h hprep hforward hnone hplain =>
    have hstranded := hprep.forward_none_iff.mp ⟨hforward, hnone⟩
    simp [hplain, hstranded]
  | forwarded h conn u hprep hforward hheld hfwd hplain =>
    have hiff := hprep.forward_none_iff
    simp only [hheld] at hiff
    simp [hplain, ← hiff, hfwd.not_panicked]

/-- The decoder's slot plays no part in whether a session is stranded. -/
theorem stranded_decodeMessage (s : Session) (msg : FrontendMessage) :
    (decodeMessage s msg).Stranded ↔ s.Stranded := by
  cases msg <;> exact Iff.rfl

/-- The deferred release does not panic. -/
theorem turn_panicked_iff (s : Session) (ev : Event) :
    (turn s ev).next = .panicked ↔ (serve s ev).next = .panicked := by
  unfold turn deferredRelease
  cases h : (serve s ev).next <;> simp [h]

/-- One step uses no missing upstream exactly if a stranded session gets nothing to pass on. -/
theorem noMissingUpstream_iff (w : Watched Session Unit) (ev : Event) :
    NoMissingUpstream w ev ↔ StrandedGetsNothing w ev := by
  cases ev with
  | downstream env msg =>
    refine forall_congr' fun _ => ?_
    rw [ne_eq, turn_panicked_iff, (serve_serves w.state env msg).panicked_iff,
      stranded_decodeMessage, buffersBegin_decodeMessage]
    simp only [not_and, Bool.not_eq_true]
  | upstream env msg =>
    refine iff_of_true (fun _ => ?_) trivial
    rw [ne_eq, turn_panicked_iff]
    exact serve_upstream_not_panicked w.state env msg
  | _ =>
    refine iff_of_true (fun _ => ?_) trivial
    rw [ne_eq, turn_panicked_iff]
    simp [serve, Turn.leave, detach, Turn.log]

/-- Preparing the upstream strands no session. -/
theorem Prepares.not_stranded {env : Env} {s : Session} {msg : FrontendMessage} {h : Handling}
    (hprep : Prepares env s msg h) (hs : ¬s.Stranded) : ¬h.sess.Stranded := by
  cases hprep with
  | acquired => simp [Session.Stranded]
  | otherLeased => simp [Session.Stranded, setUpstreamLease]
  | reclassified stmt conn _ _ _ hup => simp [Session.Stranded, failTransaction, cacheClass, hup]
  | continued stmt conn _ _ _ hup =>
    simp [Session.Stranded, (continueTransaction_frame _ _ _).2, cacheClass, hup]
  | leased => simp [Session.Stranded, (beginTransaction_frame _ _ _ _).2]
  | _ => exact hs

/-- Serving a client message strands no session. -/
theorem Serves.not_stranded {env : Env} {msg : FrontendMessage} {s : Session} {t : SessionTurn}
    (hserve : Serves env msg s t) (hs : ¬s.Stranded) : ¬t.state.Stranded := by
  cases hserve with
  | revokedUnflushed h err ref hprep => exact hprep.not_stranded hs
  | revoked h err ref hprep => exact hprep.not_stranded hs
  | closed h err hprep => exact hprep.not_stranded hs
  | handled h hprep => exact hprep.not_stranded hs
  | panicked h hprep => exact hprep.not_stranded hs
  | forwarded h conn u hprep _ _ hfwd =>
    obtain ⟨mode, pending, swallowing, hstate⟩ := hfwd.state_eq
    rw [hstate]
    exact hprep.not_stranded hs
  | _ => exact hs

/-- Serving an upstream message strands no session: the upstream is given back with the transaction
at its end. -/
theorem serve_upstream_not_stranded {s : Session} (env : Env) (msg : BackendMessage)
    (hs : ¬s.Stranded) : ¬(serve s (.upstream env msg)).state.Stranded := by
  obtain ⟨-, hserve⟩ | ⟨-, -, hdrop⟩ | ⟨hheld, -, hrelay⟩ := serve_upstream_cases s env msg
  · rw [hserve]
    exact hs
  · generalize serve s (.upstream env msg) = t at hdrop ⊢
    cases hdrop <;> exact hs
  · have htrack := trackReadyForQuery_frame env.now msg s
    generalize serve s (.upstream env msg) = t at hrelay ⊢
    cases hrelay with
    | detached hready hmode =>
      subst hready
      intro hstranded
      have hport : s.port = .compat := by
        rw [← htrack.1.port, ← (releaseUpstream_frame _).port]
        exact hstranded.1
      have hidle := trackReadyForQuery_compatTxState env.now statusIdle hport hmode
      rw [if_pos rfl, ← releaseUpstream_compatTxState, hstranded.2.1] at hidle
      cases hidle
    | kept =>
      intro hstranded
      exact hheld (htrack.2.symm.trans hstranded.2.2)
    | _ => exact hs

/-- A running loop whose session is not stranded. -/
def RunsUnstranded (w : Watched Session Unit) : Prop := w.next = .running → ¬w.state.Stranded

/-- A step that does not take the upstream from a failed transaction strands no session. -/
theorem runsUnstranded_step (w : Watched Session Unit) (ev : Event) (hw : RunsUnstranded w)
    (hrelease : ReleasesUnfailed w ev) : RunsUnstranded (loopStep w ev) := by
  apply Watched.step_keeps RunsUnstranded hw
  intro hrunning hnext
  rw [turn_of_running hnext]
  have hs := hw hrunning
  cases ev with
  | upstream env msg => exact serve_upstream_not_stranded env msg hs
  | downstream env msg =>
    exact (serve_serves w.state env msg).not_stranded
      (fun h => hs ((stranded_decodeMessage w.state msg).mp h))
  | release =>
    intro hstranded
    have htx := releaseUpstream_compatTxState w.state
    exact hrelease hrunning (htx.symm.trans hstranded.2.1)
  | _ => exact hs

/-- In every run on any port no message is processed through a missing upstream exactly if no
stranded session gets a message that a failed transaction lets through; and this holds in every run
in which the upstream is not given back from outside while the transaction is failed. -/
theorem no_missing_upstream_iff (port : Port) (mode : PoolMode) (conn : ConnId) (windowMs : ℤ)
    (events : List Event) :
    let start := (Session.start port mode conn windowMs).loop
    (Throughout loopStep NoMissingUpstream start events ↔
        Throughout loopStep StrandedGetsNothing start events) ∧
      (Throughout loopStep ReleasesUnfailed start events →
        Throughout loopStep NoMissingUpstream start events) := by
  intro start
  constructor
  · apply throughout_congr (I := fun _ => True)
    · exact fun _ _ _ => trivial
    · exact fun w ev _ => noMissingUpstream_iff w ev
    · trivial
  · apply throughout_of_invariant runsUnstranded_step
    · intro w ev hw _
      rw [noMissingUpstream_iff]
      cases ev with
      | downstream env msg => exact fun hrunning hstranded => absurd hstranded (hw hrunning)
      | _ => trivial
    · intro _ hstranded
      cases hstranded.2.1

/-- The session is closed from outside while its transaction is failed; the client's `ROLLBACK`
then goes to an upstream that is gone. -/
theorem rollback_through_missing_upstream :
    let env := Env.steady 1 ⟨7, text "node-2", .replica⟩
    let w := run loopStep (Session.start .compat .transaction 0 1000).loop
      [.downstream env (.query (text "SELECT 1")),
        .downstream env (.query (text "INSERT INTO t VALUES (1)")), .release]
    ¬NoMissingUpstream w (.downstream env (.query (text "ROLLBACK"))) := by
  intro env w h
  exact h (by decide) (by decide)

end Grunyas.Server
