import Grunyas.Session.Exchange

/-!
# One `ReadyForQuery` for each request

A client reads one `ReadyForQuery` for each `Query` and `Sync` it sends. The session keeps to that
while it answers requests only, stops after a rejection, and every `BEGIN` it replays succeeds and
is alone in having its reply swallowed.
-/

namespace Grunyas.Server

open GoText Grunyas.Classifier Machine

/-- The read port refuses requests only. -/
def RefusalPaired (s : Session) (msg : FrontendMessage) : Prop :=
  msg ≠ .terminate → readPortRefuses s msg = true → msg.isRequest = true

/-- The lease that a buffered `BEGIN` waits for is refused to requests only. -/
def RevocationPaired (env : Env) (s : Session) (msg : FrontendMessage) : Prop :=
  s.pendingBegin ≠ none → s.upstream = none → answersItself s msg = false →
    (requestLease env s msg.sql).isOk = false → msg.isRequest = true

/-- A request that the session answers in the upstream's place is not forwarded as well. -/
def RejectionPaired (env : Env) (s : Session) (msg : FrontendMessage) : Prop :=
  answersItself s msg = true → msg.isRequest = true → env.flush = true ∨ s.upstream = none

/-- A `BEGIN` is replayed while another one's reply is swallowed only if no request of the lease
waits. -/
def ReplayPaired (env : Env) (w : Watched Session Exchange) (msg : FrontendMessage) : Prop :=
  ReplaysBegin env w.state msg → w.state.swallowingBeginResponse = true → w.ledger.owed = 0

/-- A replayed `BEGIN` succeeds. -/
def SwallowPaired (s : Session) (msg : BackendMessage) : Prop :=
  s.upstream ≠ none → s.swallowingBeginResponse = true → msg.isReady = true →
    msg = .readyForQuery statusBlock

/-- The step pairs each `ReadyForQuery` of the session with a request. -/
def PairedStep (w : Watched Session Exchange) (ev : Event) : Prop :=
  w.next = .running →
    match ev with
    | .upstream _ msg => SwallowPaired w.state msg
    | .downstream env msg =>
      RefusalPaired w.state msg ∧
        (w.state.port = .compat → buffersBegin w.state msg = false →
          RevocationPaired env w.state msg ∧ RejectionPaired env w.state msg ∧
            ReplayPaired env w msg)
    | _ => True

instance (s : Session) (msg : FrontendMessage) : Decidable (RefusalPaired s msg) :=
  inferInstanceAs (Decidable (_ → _ → _))

instance (env : Env) (s : Session) (msg : FrontendMessage) : Decidable (RevocationPaired env s msg) :=
  inferInstanceAs (Decidable (_ → _ → _ → _ → _))

instance (env : Env) (s : Session) (msg : FrontendMessage) : Decidable (RejectionPaired env s msg) :=
  inferInstanceAs (Decidable (_ → _ → _))

instance (env : Env) (w : Watched Session Exchange) (msg : FrontendMessage) :
    Decidable (ReplayPaired env w msg) :=
  inferInstanceAs (Decidable (_ → _ → _))

instance (s : Session) (msg : BackendMessage) : Decidable (SwallowPaired s msg) :=
  inferInstanceAs (Decidable (_ → _ → _ → _))

instance PairedStep.decidable (w : Watched Session Exchange) : (ev : Event) →
    Decidable (PairedStep w ev)
  | .upstream _ msg => inferInstanceAs (Decidable (_ → SwallowPaired w.state msg))
  | .downstream env msg =>
    inferInstanceAs (Decidable (_ → RefusalPaired w.state msg ∧ (_ → _ →
      RevocationPaired env w.state msg ∧ RejectionPaired env w.state msg ∧ ReplayPaired env w msg)))
  | .downstreamClosed => inferInstanceAs (Decidable (_ → True))
  | .err => inferInstanceAs (Decidable (_ → True))
  | .release => inferInstanceAs (Decidable (_ → True))
  | .done => inferInstanceAs (Decidable (_ → True))

/-- The client was sent no more `ReadyForQuery` messages than it sent requests. -/
def Accounted (w : Watched Session Exchange) : Prop := w.ledger.delivered ≤ w.ledger.received

instance (w : Watched Session Exchange) : Decidable (Accounted w) :=
  inferInstanceAs (Decidable (_ ≤ _))

/-- While the loop runs, those still to come are covered as well; one of them is swallowed. -/
def Covered (s : Session) (l : Exchange) : Prop :=
  l.delivered + l.owed ≤ l.received + s.swallowingBeginResponse.toNat

/-- How every turn has to end. -/
def Settles (s : Session) (l : Exchange) (n : Next) : Prop :=
  l.delivered ≤ l.received ∧ (n = .running → Covered s l)

/-- Relaying an upstream message answers a request. -/
theorem Relays.settles {env : Env} {msg : BackendMessage} {s : Session} {t : SessionTurn}
    (hrelay : Relays env msg s t) {l : Exchange} (hswallow : s.swallowingBeginResponse = false)
    (hcovered : Covered s l) (hbackend : msg.isReady.toNat ≤ l.owed) :
    t.Ends Exchange.record l Settles := by
  obtain ⟨hledger, hstate⟩ := hrelay.exchange l
  rw [Covered, hswallow, Bool.toNat_false] at hcovered
  have hrelayed : (l.relay msg).delivered + (l.relay msg).owed ≤ (l.relay msg).received := by
    rw [Exchange.owed_relay]
    simp only [Exchange.relay, Exchange.deliver]
    omega
  rw [Turn.Ends, hledger, Settles, Covered, hstate, hswallow]
  exact ⟨by omega, fun _ => hrelayed⟩

/-- Dropping a message of the answer to a replayed `BEGIN` answers nobody. -/
theorem Swallows.settles {env : Env} {msg : BackendMessage} {s : Session} {t : SessionTurn}
    (hdrop : Swallows env msg s t) {l : Exchange} (hswallow : s.swallowingBeginResponse = true)
    (haccounted : l.delivered ≤ l.received) (hcovered : Covered s l)
    (hbackend : msg.isReady.toNat ≤ l.owed)
    (hpaired : msg.isReady = true → msg = .readyForQuery statusBlock) :
    t.Ends Exchange.record l Settles := by
  obtain ⟨hledger, hstate⟩ := hdrop.exchange l
  have hledger : t.acts.foldl Exchange.record l = l.discard msg := by
    obtain hledger | ⟨-, hready, hfailed⟩ := hledger
    · exact hledger
    · exact absurd (hpaired hready) hfailed
  rw [Covered, hswallow, Bool.toNat_true] at hcovered
  rw [Turn.Ends, hledger, Settles, Covered, hstate, Exchange.owed_discard]
  refine ⟨haccounted, fun _ => ?_⟩
  cases hready : msg.isReady with
  | false => simpa [Exchange.discard, hswallow] using hcovered
  | true =>
    simp only [Exchange.discard, hready, Bool.toNat_true, if_true, stopSwallowing,
      Bool.toNat_false] at hbackend ⊢
    omega

/-- Forwarding a message that was received leaves the lease owing no more than is covered. -/
theorem Forwards.settles {env : Env} {msg : FrontendMessage} {s : Session} {conn : ConnId}
    {t : SessionTurn} (hfwd : Forwards env msg s conn t) {l : Exchange}
    (haccounted : l.delivered ≤ l.received)
    (hcovered : l.delivered + l.owed + msg.isRequest.toNat + s.pendingBegin.isSome.toNat ≤
      l.received + (s.pendingBegin.isSome || s.swallowingBeginResponse).toNat) :
    t.Ends Exchange.record l Settles := by
  obtain ⟨hdelivered, hreceived, hrun⟩ := hfwd.exchange l
  refine ⟨by rw [hdelivered, hreceived]; exact haccounted, fun hnext => ?_⟩
  obtain ⟨hledger, hstate⟩ := hrun hnext
  rw [Covered, hdelivered, hreceived, hledger, hstate, Exchange.owed_forward,
    afterProcess_swallowing, afterReplay_swallowing]
  omega

section Serving

variable {env : Env} {msg : FrontendMessage} {s s' : Session} {l : Exchange}

/-- A message that is not answered leaves the ledger settled. -/
theorem settles_receive (haccounted : l.delivered ≤ l.received) (hcovered : Covered s l)
    (hstate : s'.swallowingBeginResponse = s.swallowingBeginResponse) (n : Next) :
    Settles s' (l.receive msg) n := by
  rw [Covered] at hcovered
  refine ⟨Nat.le_add_right_of_le haccounted, fun _ => ?_⟩
  simp only [Covered, hstate, Exchange.receive, Exchange.owed] at hcovered ⊢
  omega

/-- The answer to a request leaves the ledger settled. -/
theorem settles_answer (haccounted : l.delivered ≤ l.received) (hcovered : Covered s l)
    (hstate : s'.swallowingBeginResponse = s.swallowingBeginResponse)
    (hrequest : msg.isRequest = true) (txStatus : UInt8) (n : Next) :
    Settles s' ((l.receive msg).deliver (.readyForQuery txStatus)) n := by
  rw [Covered] at hcovered
  simp only [Settles, Covered, hstate, Exchange.receive, Exchange.deliver, Exchange.owed, hrequest,
    BackendMessage.isReady, Bool.toNat_true] at hcovered ⊢
  omega

/-- A lease that was just taken owes nothing. -/
theorem settles_lease (haccounted : l.delivered ≤ l.received) (n : Next) :
    Settles s' (l.receive msg).lease n := by
  simp only [Settles, Covered, Exchange.receive, Exchange.lease, Exchange.owed, List.countP_nil]
  omega

/-- Preparing the upstream leaves the ledger settled. -/
theorem Prepares.settles {h : Handling} (hprep : Prepares env s msg h)
    (haccounted : l.delivered ≤ l.received) (hcovered : Covered s l) (n : Next) :
    Settles h.sess (h.acts.foldl Exchange.record (l.receive msg)) n := by
  have hstate := hprep.frame.swallowing
  obtain ⟨hledger, -⟩ | ⟨-, hledger⟩ | ⟨hledger, hrequest, -⟩ := hprep.exchange (l.receive msg)
  · rw [hledger]
    exact settles_receive haccounted hcovered hstate n
  · rw [hledger]
    exact settles_lease haccounted n
  · rw [hledger]
    exact settles_answer haccounted hcovered hstate hrequest statusFailed n

/-- Only a request revokes a buffered `BEGIN`. -/
theorem Prepares.isRequest_of_revoked {h : Handling} {err : AcquireError} {ref : QueryRef}
    (hprep : Prepares env s msg h) (hfailed : h.verdict = .failed err)
    (hp : h.sess.pendingBegin = some ref) (hpending : s.pendingBegin ≠ none → s.port = .compat)
    (hrevocation : s.port = .compat → RevocationPaired env s msg) : msg.isRequest = true := by
  have hp' : s.pendingBegin ≠ none := by
    rw [← hprep.frame.pendingBegin, hp]
    exact Option.some_ne_none ref
  have hport := hpending hp'
  obtain ⟨hanswers, hlease⟩ := hprep.lease_of_failed hport hfailed
  apply hrevocation hport hp' (hprep.of_failed hfailed).1 hanswers
  rw [hlease]
  rfl

/-- A prepared message is forwarded within what is covered. -/
theorem Prepares.settles_forward {h : Handling} {conn : ConnId} {t : SessionTurn}
    (hprep : Prepares env s msg h) (hforward : h.verdict = .forward)
    (hheld : h.sess.upstream = some conn) (hfwd : Forwards env msg h.sess conn t)
    (haccounted : l.delivered ≤ l.received) (hcovered : Covered s l)
    (hpending : s.pendingBegin ≠ none → s.port = .compat)
    (hpaired : s.port = .compat →
      RejectionPaired env s msg ∧ ReplayPaired env ⟨s, l, .running⟩ msg) :
    t.Ends Exchange.record (h.acts.foldl Exchange.record (l.receive msg)) Settles := by
  have hp := hprep.frame.pendingBegin
  have hswallow := hprep.frame.swallowing
  rw [Covered] at hcovered
  obtain ⟨hledger, hup⟩ | ⟨-, hledger⟩ | ⟨-, hrequest, hport, hanswers, hverdict, hup⟩ :=
    hprep.exchange (l.receive msg)
  · have hreplay : s.pendingBegin ≠ none → s.swallowingBeginResponse = true → l.owed = 0 := by
      intro hne
      have hport := hpending hne
      apply (hpaired hport).2
      refine ⟨hne, ?_, hprep.not_answered_of_forward hport hforward⟩
      rw [← hup, hheld]
      exact Option.some_ne_none conn
    rw [hledger]
    apply hfwd.settles (Nat.le_add_right_of_le haccounted)
    rw [hp, hswallow]
    cases hpend : s.pendingBegin with
    | none =>
      simp only [Exchange.receive, Exchange.owed, Option.isSome_none, Bool.toNat_false,
        Bool.false_or] at hcovered ⊢
      omega
    | some ref =>
      simp only [Exchange.receive, Exchange.owed, Option.isSome_some, Bool.toNat_true,
        Bool.true_or] at hcovered hreplay ⊢
      cases hs : s.swallowingBeginResponse with
      | false =>
        rw [hs, Bool.toNat_false] at hcovered
        omega
      | true =>
        have hnone := hreplay (by simp [hpend]) hs
        omega
  · rw [hledger]
    apply hfwd.settles (Nat.le_add_right_of_le haccounted)
    simp only [Exchange.lease, Exchange.receive, Exchange.owed, List.countP_nil]
    cases h.sess.pendingBegin <;> simp <;> omega
  · exfalso
    obtain hflush | hnone := (hpaired hport).1 hanswers hrequest
    · simp [hverdict, afterRejection, hflush] at hforward
    · simp [hup, hnone] at hheld

/-- Serving a client message answers a request. -/
theorem Serves.settles {t : SessionTurn} (hserve : Serves env msg s t)
    (haccounted : l.delivered ≤ l.received) (hcovered : Covered s l)
    (hpending : s.pendingBegin ≠ none → s.port = .compat) (hrefusal : RefusalPaired s msg)
    (hcompat : s.port = .compat → buffersBegin s msg = false →
      RevocationPaired env s msg ∧ RejectionPaired env s msg ∧ ReplayPaired env ⟨s, l, .running⟩ msg) :
    t.Ends Exchange.record (l.receive msg) Settles := by
  have hbegin : buffersBegin s msg = true → msg.isRequest = true := by
    intro hbuf
    cases msg with
    | query string => rfl
    | _ => cases hbuf
  cases hserve with
  | terminated => exact settles_receive haccounted hcovered rfl _
  | refusedUnflushed href _ hterm =>
    exact settles_answer haccounted hcovered rfl (hrefusal hterm href) statusIdle _
  | refused href _ hterm =>
    exact settles_answer haccounted hcovered rfl (hrefusal hterm href) statusIdle _
  | bufferFailed acts hbuf hcut =>
    cases hcut with
    | complete => exact settles_receive haccounted hcovered rfl _
    | ready => exact settles_answer haccounted hcovered rfl (hbegin hbuf) statusBlock _
    | flush => exact settles_answer haccounted hcovered rfl (hbegin hbuf) statusBlock _
  | buffered hbuf => exact settles_answer haccounted hcovered rfl (hbegin hbuf) statusBlock _
  | revokedUnflushed h err ref hprep hfailed hp _ hplain =>
    have hrequest := hprep.isRequest_of_revoked hfailed hp hpending fun hport =>
      (hcompat hport hplain).1
    rw [Turn.Ends, (hprep.of_failed hfailed).2.1]
    exact settles_answer haccounted hcovered hprep.frame.swallowing hrequest statusIdle _
  | revoked h err ref hprep hfailed hp _ hplain =>
    have hrequest := hprep.isRequest_of_revoked hfailed hp hpending fun hport =>
      (hcompat hport hplain).1
    rw [Turn.Ends, (hprep.of_failed hfailed).2.1]
    exact settles_answer haccounted hcovered hprep.frame.swallowing hrequest statusIdle _
  | closed h err hprep hfailed =>
    rw [Turn.Ends, (hprep.of_failed hfailed).2.1]
    exact settles_receive haccounted hcovered hprep.frame.swallowing _
  | handled h hprep _ hplain =>
    rw [Turn.Ends, List.foldl_append]
    exact hprep.settles haccounted hcovered _
  | panicked h hprep => exact hprep.settles haccounted hcovered _
  | forwarded h conn u hprep hforward hheld hfwd hplain =>
    rw [Turn.Ends, List.foldl_append]
    exact hprep.settles_forward hforward hheld hfwd haccounted hcovered hpending fun hport =>
      (hcompat hport hplain).2

end Serving

/-- What holds before and after every step. -/
def Balanced (w : Watched Session Exchange) : Prop :=
  Settles w.state w.ledger w.next ∧ (w.state.pendingBegin ≠ none → w.state.port = .compat)

/-- Leaving the loop unsettles nothing. -/
theorem turn_settles {s : Session} {ev : Event} {l : Exchange}
    (h : (serve s ev).Ends Exchange.record l Settles) :
    (turn s ev).Ends Exchange.record l Settles := by
  rw [Turn.Ends, foldl_record_turn]
  refine ⟨h.1, fun hrun => ?_⟩
  have hturn := turn_of_running hrun
  rw [hturn] at hrun ⊢
  exact h.2 hrun

/-- A turn of a balanced loop settles its ledger. -/
theorem serve_settles {w : Watched Session Exchange} {ev : Event} (hw : Balanced w)
    (hrun : w.next = .running) (hbackend : BackendStep w ev) (hpaired : PairedStep w ev) :
    (serve w.state ev).Ends Exchange.record (w.ledger.note w.state ev) Settles := by
  obtain ⟨⟨haccounted, hcovered⟩, hpending⟩ := hw
  have hcovered := hcovered hrun
  have hpaired := hpaired hrun
  cases ev with
  | upstream env msg =>
    have hready : w.state.upstream ≠ none → msg.isReady.toNat ≤ w.ledger.owed := by
      intro hheld
      cases hr : msg.isReady with
      | false => exact Nat.zero_le _
      | true => exact hbackend hrun hheld hr
    obtain ⟨-, hserve⟩ | ⟨hheld, hswallow, hdrop⟩ | ⟨hheld, hswallow, hrelay⟩ :=
      serve_upstream_cases w.state env msg
    · rw [hserve]
      exact ⟨haccounted, fun _ => hcovered⟩
    · exact hdrop.settles hswallow haccounted hcovered (hready hheld) (hpaired hheld hswallow)
    · exact hrelay.settles hswallow hcovered (hready hheld)
  | downstream env msg =>
    obtain ⟨slot, hdecode⟩ := decodeMessage_eq w.state msg
    have hserve := serve_serves w.state env msg
    rw [hdecode] at hserve
    exact hserve.settles haccounted hcovered hpending hpaired.1 hpaired.2
  | release =>
    have hledger := foldl_record_releaseUpstream w.state w.ledger
    have hstate := (releaseUpstream_frame w.state).swallowing
    refine ⟨?_, fun _ => ?_⟩
    · exact hledger.symm ▸ haccounted
    · rw [Covered, ← hstate] at hcovered
      exact hledger.symm ▸ hcovered
  | _ => exact ⟨haccounted, fun _ => hcovered⟩

/-- A step that pairs its `ReadyForQuery` keeps the balance. -/
theorem balanced_step {w : Watched Session Exchange} {ev : Event} (hw : Balanced w)
    (hok : BackendStep w ev ∧ PairedStep w ev) : Balanced (exchangeStep w ev) := by
  apply Watched.step_keeps Balanced hw
  intro hrun
  exact ⟨turn_settles (serve_settles hw hrun hok.1 hok.2), turn_buffered ev hw.2⟩

/-- In every run, on any port, in which the backends send one `ReadyForQuery` for each request and
every step pairs those of the session with a request, the client is never sent more of them than
it has sent requests. -/
theorem ready_accounted (port : Port) (mode : PoolMode) (conn : ConnId) (windowMs : ℤ)
    (events : List Event)
    (hbackend : Throughout exchangeStep BackendStep (Session.start port mode conn windowMs).exchange
      events)
    (hpaired : Throughout exchangeStep PairedStep (Session.start port mode conn windowMs).exchange
      events) :
    Accounted (run exchangeStep (Session.start port mode conn windowMs).exchange events) := by
  have hbalanced : Balanced (run exchangeStep (Session.start port mode conn windowMs).exchange
      events) := by
    apply run_invariant (fun _ _ => balanced_step) _ (throughout_and.mpr ⟨hbackend, hpaired⟩)
    refine ⟨⟨Nat.le_refl 0, fun _ => ?_⟩, fun hne => absurd rfl hne⟩
    exact Nat.zero_le _
  exact hbalanced.1.1

/-- A `BEGIN` that is replayed before a pipeline, with its reply swallowed, and the end of the
transaction. -/
theorem ready_accounted_transaction :
    let env := Env.steady 1 ⟨7, text "node-1", .primary⟩
    Accounted (run exchangeStep (Session.start .compat .transaction 0 1000).exchange
      [.downstream env (.query (text "BEGIN")),
        .downstream env (.parse [] (text "INSERT INTO t VALUES (1)")), .downstream env .sync,
        .upstream env (.commandComplete (text "BEGIN")), .upstream env (.readyForQuery statusBlock),
        .upstream env .parseComplete, .upstream env (.readyForQuery statusBlock),
        .downstream env (.query (text "COMMIT")), .upstream env (.readyForQuery statusIdle)]) :=
  ready_accounted .compat .transaction 0 1000 _ (by decide) (by decide)

/-- On the read port a `Bind` is answered with a `ReadyForQuery` that no request asked for. -/
theorem bind_answered_with_ready :
    let env := Env.steady 1 ⟨7, text "node-2", .replica⟩
    let w := (Session.start .read .transaction 0 0).exchange
    Throughout exchangeStep BackendStep w [.downstream env (.bind [] [])] ∧
      ¬Accounted (run exchangeStep w [.downstream env (.bind [] [])]) := by
  decide

end Grunyas.Server
