import Grunyas.Session.Rejection

/-!
# The order of replies on the compat port

A compat session answers some messages itself, at once, while the replies to messages it has
forwarded are still to come. Which reply of a backend completes which message is left open: every
event is observed with the number of waiting messages it completes, and every client message with
whether the backend answers it at all. The replies that the session makes up keep their place
exactly if none of them is sent while a forwarded message waits.
-/

namespace Grunyas.Server

open GoText Grunyas.Classifier Machine

/-- An event with what the backend makes of it: how many of the messages sent to it an upstream
message completes, and whether a client message gets no reply, as part of a `COPY` or because an
error before it has the backend skip it. -/
structure Observed where
  event : Event
  completes : ℕ
  silent : Bool

/-- A message sent on the lease, by the number of the client message it was sent for; a replayed
`BEGIN` is not the client's own. -/
structure Pending where
  index : ℕ
  own : Bool
  deriving DecidableEq, Repr

/-- The ledger of replies: the number of the client message being served and whether the backend
skips it, the messages of the lease that wait for a reply, those whose reply never reaches the
client, and the messages that were answered, in the order of the answers. -/
structure Replies where
  current : ℕ
  silent : Bool
  waiting : List Pending
  lost : List Pending
  answered : List ℕ
  deriving DecidableEq, Repr

/-- The forwarded messages with replies that have not been delivered. -/
def Replies.outstanding (l : Replies) : List Pending := l.lost ++ l.waiting.filter Pending.own

/-- The next client message is served. -/
def Replies.serve (l : Replies) (silent : Bool) : Replies :=
  { l with current := l.current + 1, silent := silent }

/-- The oldest messages of the lease are answered to the client. -/
def Replies.complete (l : Replies) (completes : ℕ) : Replies :=
  { l with
    waiting := l.waiting.drop completes
    answered := l.answered ++ ((l.waiting.take completes).filter Pending.own).map Pending.index }

/-- The oldest messages of the lease are answered, but not to the client. -/
def Replies.drop (l : Replies) (completes : ℕ) : Replies :=
  { l with
    waiting := l.waiting.drop completes
    lost := l.lost ++ (l.waiting.take completes).filter Pending.own }

/-- The ledger after an event was taken. -/
def Replies.note (l : Replies) (s : Session) (i : Observed) : Replies :=
  match i.event with
  | .downstream _ _ => l.serve i.silent
  | .upstream _ _ =>
    if s.upstream = none then l
    else if s.swallowingBeginResponse then l.drop i.completes else l.complete i.completes
  | _ => l

/-- The codes of the errors that a session makes up for a rejected statement or a failed
transaction. -/
def ownErrorCode (code : String) : Bool := code == "25006" || code == "25P02"

/-- Whether a message is a reply the session makes up in the upstream's place. -/
def synthesized : BackendMessage → Bool
  | .commandComplete _ => true
  | .readyForQuery txStatus => txStatus == statusBlock || txStatus == statusFailed
  | .errorResponse _ code _ => ownErrorCode code
  | _ => false

/-- Whether an action sends a reply that the session makes up. -/
def repliesItself : Action → Bool
  | .send msg _ => synthesized msg
  | _ => false

/-- The ledger after an action of the session. -/
def Replies.record (l : Replies) (act : Action) : Replies :=
  match act with
  | .forward _ _ true =>
    if l.silent then l else { l with waiting := l.waiting ++ [⟨l.current, true⟩] }
  | .replay _ _ true => { l with waiting := l.waiting ++ [⟨l.current, false⟩] }
  | .release _ => { l with waiting := [], lost := l.lost ++ l.waiting.filter Pending.own }
  | .send msg _ => if synthesized msg then { l with answered := l.answered ++ [l.current] } else l
  | _ => l

/-- The main loop with the ledger of replies. -/
def replyStep : Watched Session Replies → Observed → Watched Session Replies :=
  Watched.step (fun s i => turn s i.event) Replies.note Replies.record

/-- The main loop at its start. -/
def Session.replies (s : Session) : Watched Session Replies := ⟨s, ⟨0, false, [], [], []⟩, .running⟩

/-- An action that sends a reply of the session's own overtakes nothing. -/
def OvertakesNothing (l : Replies) (act : Action) : Prop :=
  repliesItself act = true → l.outstanding = []

instance (l : Replies) (act : Action) : Decidable (OvertakesNothing l act) :=
  inferInstanceAs (Decidable (_ → _))

/-- No reply of the session's own in this step overtakes a reply that is still to come. -/
def NoOvertaking (w : Watched Session Replies) (i : Observed) : Prop :=
  w.next = .running →
    Throughout Replies.record OvertakesNothing (w.ledger.note w.state i) (turn w.state i.event).acts

instance (w : Watched Session Replies) (i : Observed) : Decidable (NoOvertaking w i) :=
  inferInstanceAs (Decidable (_ → _))

/-- Whether a lease is refused with a code that the session uses itself. -/
def refusedWithOwnCode (env : Env) (s : Session) (msg : FrontendMessage) : Bool :=
  s.compatTxState != .inFailedTransaction && s.upstream == none &&
    match requestLease env s msg.sql with
    | .error err => ownErrorCode (codeFromErr err "53300")
    | .ok _ => false

/-- Whether the session answers the event itself: a `BEGIN` that it buffers, a message that it
rejects, a `Sync` in a failed transaction, a refused lease with one of its own codes, and a
replayed `BEGIN` that did not start a transaction. -/
def answersAtOnce (s : Session) : Event → Bool
  | .downstream env msg =>
    msg != .terminate &&
      (buffersBegin s msg || compatRejects s msg ||
        (s.compatTxState == .inFailedTransaction && msg == .sync) || refusedWithOwnCode env s msg)
  | .upstream _ (.readyForQuery txStatus) =>
    s.upstream.isSome && s.swallowingBeginResponse && txStatus != statusBlock
  | _ => false

/-- Nothing is outstanding when an event comes that the session answers itself. -/
def AnswersWhenSettled (w : Watched Session Replies) (i : Observed) : Prop :=
  w.next = .running → answersAtOnce w.state i.event = true → w.ledger.outstanding = []

/-- Completing messages settles nothing that is not delivered to the client. -/
theorem Replies.outstanding_drop (l : Replies) (completes : ℕ) :
    (l.drop completes).outstanding = l.outstanding := by
  simp only [Replies.outstanding, Replies.drop, List.append_assoc, ← List.filter_append,
    List.take_append_drop]

/-- Only a forwarded message becomes outstanding. -/
theorem Replies.outstanding_record (l : Replies) {act : Action}
    (hact : ∀ conn msg ok, act ≠ .forward conn msg ok) :
    (l.record act).outstanding = l.outstanding := by
  unfold Replies.record Replies.outstanding
  split
  · exact absurd rfl (hact _ _ _)
  · simp
  · simp
  · split_ifs <;> rfl
  · rfl

/-- Where no reply is made up, none overtakes. -/
theorem overtakesNothing_of_quiet {acts : List Action} (l : Replies)
    (hquiet : ∀ act ∈ acts, repliesItself act = false) :
    Throughout Replies.record OvertakesNothing l acts := by
  induction acts generalizing l with
  | nil => trivial
  | cons act acts ih =>
    refine ⟨fun h => ?_, ih _ fun a ha => hquiet a (List.mem_cons_of_mem _ ha)⟩
    simp [hquiet act List.mem_cons_self] at h

/-- Where nothing is forwarded, a reply that is made up overtakes nothing exactly if nothing is
outstanding at the start. -/
theorem overtakesNothing_iff_any {acts : List Action} (l : Replies)
    (hacts : ∀ conn msg ok, Action.forward conn msg ok ∉ acts) :
    Throughout Replies.record OvertakesNothing l acts ↔
      (acts.any repliesItself = true → l.outstanding = []) := by
  induction acts generalizing l with
  | nil => simp [Throughout]
  | cons act acts ih =>
    have hact : ∀ conn msg ok, act ≠ .forward conn msg ok := by
      intro conn msg ok h
      exact hacts conn msg ok (h ▸ List.mem_cons_self)
    have hrest : ∀ conn msg ok, Action.forward conn msg ok ∉ acts := fun conn msg ok h =>
      hacts conn msg ok (List.mem_cons_of_mem _ h)
    rw [Throughout, ih _ hrest, l.outstanding_record hact, OvertakesNothing, ← or_imp,
      List.any_cons, Bool.or_eq_true]

/-- Preparing the upstream makes up a reply exactly for a message that is rejected and for a `Sync`
in a failed transaction. -/
theorem Prepares.any_repliesItself {env : Env} {s : Session} {msg : FrontendMessage} {h : Handling}
    (hprep : Prepares env s msg h) (hport : s.port = .compat) :
    h.acts.any repliesItself =
      (compatRejects s msg || (s.compatTxState == .inFailedTransaction && msg == .sync)) := by
  cases hprep with
  | held _ hother => exact absurd hport hother
  | acquired _ hother => exact absurd hport hother
  | refused _ hother => exact absurd hport hother
  | rollback string _ htx hmsg hr =>
    subst hmsg
    simp [compatRejects, htx, hr]
  | abortedQuery string _ htx hmsg hr =>
    subst hmsg
    simp [compatRejects, htx, hr, sendCompatError, sendErrorAndReady, sendMessage, repliesItself,
      synthesized, ownErrorCode]
  | abortedSync _ htx hmsg =>
    subst hmsg
    simp [htx, sendMessage, repliesItself, synthesized]
  | aborted _ htx hmsg =>
    cases msg with
    | query string => cases hmsg
    | sync => cases hmsg
    | _ => simp [compatRejects, htx]
  | otherHeld _ _ htx hother => simp [compatRejects, htx, hother]
  | otherLeased _ _ htx hother => simp [compatRejects, htx, hother, repliesItself]
  | otherRefused _ _ htx hother => simp [compatRejects, htx, hother]
  | reclassified stmt conn _ htx hstmt hheld hreplica hwrite hcommit hrollback =>
    have hrejects : compatRejects s msg = true := by
      simp [compatRejects, htx, hstmt, reclassifies, hheld, hreplica, hwrite, hcommit, hrollback]
    cases msg with
    | query string =>
      simp [hrejects, rejectStatement, rejectQuery, sendCompatError, sendErrorAndReady, sendMessage,
        repliesItself, synthesized, ownErrorCode]
    | parse name sql =>
      simp [hrejects, rejectStatement, rejectParse, sendMessage, repliesItself, synthesized,
        ownErrorCode]
    | _ => cases hstmt
  | continued stmt conn _ htx hstmt _ hallowed => simp [compatRejects, htx, hstmt, hallowed]
  | leased stmt _ _ htx hstmt hnone =>
    simp [compatRejects, htx, hstmt, reclassifies, hnone, repliesItself]
  | leaseRefused stmt _ _ htx hstmt hnone => simp [compatRejects, htx, hstmt, reclassifies, hnone]

/-- The text of a message is that of its statement, and empty without one. -/
theorem sql_eq_statement (msg : FrontendMessage) :
    msg.sql = (msg.statement.map Statement.sql).getD [] := by
  cases msg <;> rfl

/-- A lease is refused with an own code exactly if preparing the upstream fails with one. -/
theorem Prepares.refusedWithOwnCode_eq {env : Env} {s : Session} {msg : FrontendMessage}
    {h : Handling} (hprep : Prepares env s msg h) (hport : s.port = .compat) :
    refusedWithOwnCode env s msg =
      match h.verdict with
      | .failed err => ownErrorCode (codeFromErr err "53300")
      | _ => false := by
  have hsql := sql_eq_statement msg
  unfold refusedWithOwnCode
  cases hprep with
  | held _ hother => exact absurd hport hother
  | acquired _ hother => exact absurd hport hother
  | refused _ hother => exact absurd hport hother
  | rollback _ _ htx => simp [htx]
  | abortedQuery _ _ htx => cases hf : env.flush <;> simp [htx, afterRejection, hf]
  | abortedSync _ htx => cases hf : env.flush <;> simp [htx, afterRejection, hf]
  | aborted _ htx => simp [htx]
  | otherHeld _ _ _ _ hup => simp [hup]
  | otherLeased _ _ _ hother _ hlease => simp [hsql, hother, hlease]
  | otherRefused _ _ htx hother hup hlease => simp [hsql, hother, hlease, htx, hup]
  | reclassified _ _ _ _ _ hup => cases hf : env.flush <;> simp [hup, afterRejection, hf]
  | continued _ _ _ _ _ hup => simp [hup]
  | leased _ _ _ _ hstmt _ hlease => simp [hsql, hstmt, hlease]
  | leaseRefused _ _ _ htx hstmt hup hlease => simp [hsql, hstmt, hlease, htx, hup]

/-- Forwarding makes up no reply. -/
theorem Forwards.quiet {env : Env} {msg : FrontendMessage} {s : Session} {conn : ConnId}
    {t : SessionTurn} (hfwd : Forwards env msg s conn t) :
    ∀ act ∈ t.acts, repliesItself act = false := by
  intro act hact
  cases act with
  | send m ok => exact absurd hact hfwd.send_not_mem
  | _ => rfl

/-- Releasing the upstream makes up no reply. -/
theorem releaseUpstream_quiet (s : Session) :
    ∀ act ∈ (releaseUpstream s).2, repliesItself act = false := by
  unfold releaseUpstream
  cases s.upstream <;> simp [repliesItself]

/-- Relaying makes up no reply. -/
theorem Relays.quiet {env : Env} {msg : BackendMessage} {s : Session} {t : SessionTurn}
    (hrelay : Relays env msg s t) : ∀ act ∈ t.acts, repliesItself act = false := by
  have hflushed : ∀ act ∈ flushedDownstream msg, repliesItself act = false := by
    unfold flushedDownstream
    split_ifs <;> simp [repliesItself]
  cases hrelay with
  | sendFailed => simp [repliesItself]
  | flushFailed => simp [repliesItself]
  | detached =>
    simpa [repliesItself] using releaseUpstream_quiet (trackReadyForQuery env.now msg s)
  | kept =>
    intro act hact
    simp only [List.mem_cons, List.mem_append, List.not_mem_nil, or_false] at hact
    obtain rfl | hact | rfl := hact
    · rfl
    · exact hflushed act hact
    · rfl

/-- What preparing the upstream makes up is part of what the session answers at once. -/
theorem Prepares.answersAtOnce_eq {env : Env} {s : Session} {msg : FrontendMessage} {h : Handling}
    (hprep : Prepares env s msg h) (hport : s.port = .compat) (hterm : msg ≠ .terminate)
    (hplain : buffersBegin s msg = false) :
    answersAtOnce s (.downstream env msg) =
      (h.acts.any repliesItself ||
        match h.verdict with
        | .failed err => ownErrorCode (codeFromErr err "53300")
        | _ => false) := by
  rw [hprep.any_repliesItself hport, ← hprep.refusedWithOwnCode_eq hport]
  simp [answersAtOnce, hterm, hplain]

/-- Serving a client message overtakes nothing exactly if nothing is outstanding when the session
answers it at once. -/
theorem Serves.overtakesNothing_iff {env : Env} {msg : FrontendMessage} {s : Session}
    {t : SessionTurn} (hserve : Serves env msg s t) (hport : s.port = .compat)
    (hterm : msg ≠ .terminate) (l : Replies) :
    Throughout Replies.record OvertakesNothing l t.acts ↔
      (answersAtOnce s (.downstream env msg) = true → l.outstanding = []) := by
  cases hserve with
  | terminated h => exact absurd h hterm
  | refusedUnflushed href => simp [readPortRefuses, hport] at href
  | refused href => simp [readPortRefuses, hport] at href
  | bufferFailed acts hbuf hcut =>
    rw [overtakesNothing_iff_any l (by cases hcut <;> simp)]
    cases hcut <;> simp [answersAtOnce, hterm, hbuf, repliesItself, synthesized, beginComplete]
  | buffered hbuf =>
    rw [overtakesNothing_iff_any l (by simp)]
    simp [answersAtOnce, hterm, hbuf, repliesItself, synthesized, beginComplete]
  | revokedUnflushed h err ref hprep hfailed _ _ hplain =>
    rw [overtakesNothing_iff_any l
      (by simp [hprep.forward_not_mem, beginRevokedError, sendErrorAndReady, sendMessage]),
      hprep.answersAtOnce_eq hport hterm hplain, hfailed]
    simp [beginRevokedError, sendErrorAndReady, sendMessage, repliesItself, synthesized, statusIdle,
      statusBlock, statusFailed]
  | revoked h err ref hprep hfailed _ _ hplain =>
    rw [overtakesNothing_iff_any l
      (by simp [hprep.forward_not_mem, beginRevokedError, sendErrorAndReady, sendMessage]),
      hprep.answersAtOnce_eq hport hterm hplain, hfailed]
    simp [beginRevokedError, sendErrorAndReady, sendMessage, repliesItself, synthesized, statusIdle,
      statusBlock, statusFailed]
  | closed h err hprep hfailed _ hplain =>
    rw [overtakesNothing_iff_any l (by simp [hprep.forward_not_mem, fatalError, sendMessage]),
      hprep.answersAtOnce_eq hport hterm hplain, hfailed]
    simp [fatalError, sendMessage, repliesItself, synthesized]
  | handled h hprep hhandled hplain =>
    rw [overtakesNothing_iff_any l (by simp [hprep.forward_not_mem]),
      hprep.answersAtOnce_eq hport hterm hplain, hhandled]
    simp [repliesItself]
  | panicked h hprep hforward _ hplain =>
    rw [overtakesNothing_iff_any l (by simp [hprep.forward_not_mem]),
      hprep.answersAtOnce_eq hport hterm hplain, hforward]
    simp
  | forwarded h conn u hprep hforward _ hfwd hplain =>
    rw [throughout_append, and_iff_left (overtakesNothing_of_quiet _ hfwd.quiet),
      overtakesNothing_iff_any l (fun _ _ _ => hprep.forward_not_mem),
      hprep.answersAtOnce_eq hport hterm hplain, hforward]
    simp

/-- The decoder's slot plays no part in what the session answers at once. -/
theorem answersAtOnce_decodeMessage (s : Session) (env : Env) (msg : FrontendMessage) :
    answersAtOnce (decodeMessage s msg) (.downstream env msg) =
      answersAtOnce s (.downstream env msg) := by
  cases msg <;> rfl

/-- Serving an upstream message overtakes nothing exactly if nothing is outstanding when a replayed
`BEGIN` did not start a transaction. -/
theorem serve_upstream_overtakesNothing_iff (s : Session) (env : Env) (msg : BackendMessage)
    (l : Replies) :
    Throughout Replies.record OvertakesNothing l (serve s (.upstream env msg)).acts ↔
      (answersAtOnce s (.upstream env msg) = true → l.outstanding = []) := by
  obtain ⟨hup, hserve⟩ | ⟨hup, hswallow, hdrop⟩ | ⟨hup, hswallow, hrelay⟩ :=
    serve_upstream_cases s env msg
  · rw [hserve]
    cases msg <;> simp [answersAtOnce, hup, Turn.log, Throughout]
  · generalize serve s (.upstream env msg) = t at hdrop ⊢
    cases hdrop with
    | dropped hother =>
      rw [overtakesNothing_iff_any l (by simp)]
      cases msg <;> simp_all [answersAtOnce, repliesItself, BackendMessage.isReady]
    | begun hready =>
      subst hready
      rw [overtakesNothing_iff_any l (by simp)]
      simp [answersAtOnce, repliesItself]
    | flushFailed txStatus hready hfailed =>
      subst hready
      rw [overtakesNothing_iff_any l
        (by simp [beginFailedError, sendErrorAndReady, sendMessage])]
      simp [answersAtOnce, hswallow, Option.isSome_iff_ne_none, hup, hfailed, beginFailedError,
        sendErrorAndReady, sendMessage, repliesItself, synthesized, ownErrorCode]
    | reported txStatus hready hfailed =>
      subst hready
      rw [overtakesNothing_iff_any l
        (by simp [beginFailedError, sendErrorAndReady, sendMessage])]
      simp [answersAtOnce, hswallow, Option.isSome_iff_ne_none, hup, hfailed, beginFailedError,
        sendErrorAndReady, sendMessage, repliesItself, synthesized, ownErrorCode]
  · refine iff_of_true (overtakesNothing_of_quiet l hrelay.quiet) fun hanswers => ?_
    cases msg <;> simp [answersAtOnce, hswallow] at hanswers

/-- Serving an event overtakes nothing exactly if nothing is outstanding when the session answers
it at once. -/
theorem serve_overtakesNothing_iff {s : Session} (hport : s.port = .compat) (ev : Event)
    (l : Replies) :
    Throughout Replies.record OvertakesNothing l (serve s ev).acts ↔
      (answersAtOnce s ev = true → l.outstanding = []) := by
  cases ev with
  | upstream env msg => exact serve_upstream_overtakesNothing_iff s env msg l
  | downstream env msg =>
    by_cases hterm : msg = .terminate
    · subst hterm
      simp [serve, onDownstream, serveMessage, Turn.leave, Throughout, answersAtOnce]
    · obtain ⟨slot, hdecode⟩ := decodeMessage_eq s msg
      rw [← answersAtOnce_decodeMessage]
      exact (serve_serves s env msg).overtakesNothing_iff (by rw [hdecode, hport]) hterm l
  | release =>
    have hquiet := overtakesNothing_of_quiet l (releaseUpstream_quiet s)
    exact iff_of_true hquiet fun h => by cases h
  | _ => exact iff_of_true trivial fun h => by cases h

/-- The deferred release overtakes nothing. -/
theorem turn_overtakesNothing_iff (s : Session) (ev : Event) (l : Replies) :
    Throughout Replies.record OvertakesNothing l (turn s ev).acts ↔
      Throughout Replies.record OvertakesNothing l (serve s ev).acts := by
  obtain h | ⟨conn, h⟩ := turn_acts s ev
  · rw [h]
  · rw [h, throughout_append]
    exact and_iff_left ⟨fun h => (Bool.false_ne_true h).elim, trivial⟩

/-- An event that the session answers at once settles nothing itself. -/
theorem Replies.outstanding_note (l : Replies) {s : Session} {i : Observed}
    (h : answersAtOnce s i.event = true) : (l.note s i).outstanding = l.outstanding := by
  obtain ⟨ev, completes, silent⟩ := i
  cases ev with
  | upstream env msg =>
    cases msg with
    | readyForQuery txStatus =>
      simp only [answersAtOnce, Bool.and_eq_true] at h
      simp only [Replies.note, h.1.2, if_true]
      split_ifs
      · rfl
      · exact l.outstanding_drop completes
    | _ => cases h
  | _ => rfl

/-- A step overtakes nothing exactly if nothing is outstanding when the session answers at once. -/
theorem noOvertaking_iff {w : Watched Session Replies} (hport : w.state.port = .compat)
    (i : Observed) : NoOvertaking w i ↔ AnswersWhenSettled w i := by
  refine forall_congr' fun _ => ?_
  rw [turn_overtakesNothing_iff, serve_overtakesNothing_iff hport]
  exact forall_congr' fun h => by rw [w.ledger.outstanding_note h]

/-- The replies so far are in the order of the messages, and those to come are for later ones. -/
structure RepliesOrdered (l : Replies) : Prop where
  answered : l.answered.Pairwise (· ≤ ·)
  waiting : l.waiting.Pairwise fun first next => first.index ≤ next.index
  before : ∀ i ∈ l.answered, ∀ p ∈ l.waiting, p.own = true → i ≤ p.index
  answered_le : ∀ i ∈ l.answered, i ≤ l.current
  waiting_le : ∀ p ∈ l.waiting, p.index ≤ l.current

/-- The order does not depend on how the session names the messages it serves next. -/
theorem RepliesOrdered.serve {l : Replies} (h : RepliesOrdered l) (silent : Bool) :
    RepliesOrdered (l.serve silent) :=
  ⟨h.answered, h.waiting, h.before, fun i hi => Nat.le_succ_of_le (h.answered_le i hi),
    fun p hp => Nat.le_succ_of_le (h.waiting_le p hp)⟩

/-- Replies to the oldest messages that are not delivered keep the order. -/
theorem RepliesOrdered.drop {l : Replies} (h : RepliesOrdered l) (completes : ℕ) :
    RepliesOrdered (l.drop completes) :=
  ⟨h.answered, h.waiting.sublist (List.drop_sublist _ _),
    fun i hi p hp => h.before i hi p (List.mem_of_mem_drop hp), h.answered_le,
    fun p hp => h.waiting_le p (List.mem_of_mem_drop hp)⟩

/-- Replies to the oldest messages keep the order. -/
theorem RepliesOrdered.complete {l : Replies} (h : RepliesOrdered l) (completes : ℕ) :
    RepliesOrdered (l.complete completes) := by
  have hsplit : (l.waiting.take completes).Pairwise (fun first next => first.index ≤ next.index) ∧
      _ ∧ ∀ p ∈ l.waiting.take completes, ∀ q ∈ l.waiting.drop completes, p.index ≤ q.index :=
    List.pairwise_append.mp (by rw [List.take_append_drop]; exact h.waiting)
  have hanswered (i : ℕ) (hi : i ∈ (l.complete completes).answered) :
      i ∈ l.answered ∨ ∃ p ∈ l.waiting.take completes, p.own = true ∧ p.index = i := by
    simpa [Replies.complete, and_assoc] using hi
  refine ⟨?_, hsplit.2.1, ?_, ?_, fun p hp => h.waiting_le p (List.mem_of_mem_drop hp)⟩
  · refine List.pairwise_append.mpr
      ⟨h.answered, List.pairwise_map.mpr (hsplit.1.sublist List.filter_sublist), ?_⟩
    intro i hi j hj
    obtain ⟨p, hp, rfl⟩ := List.mem_map.mp hj
    obtain ⟨hp, hown⟩ := List.mem_filter.mp hp
    exact h.before i hi p (List.mem_of_mem_take hp) hown
  · intro i hi q hq hown
    obtain hi | ⟨p, hp, -, rfl⟩ := hanswered i hi
    · exact h.before i hi q (List.mem_of_mem_drop hq) hown
    · exact hsplit.2.2 p hp q hq
  · intro i hi
    obtain hi | ⟨p, hp, -, rfl⟩ := hanswered i hi
    · exact h.answered_le i hi
    · exact h.waiting_le p (List.mem_of_mem_take hp)

/-- A message that is sent on the lease waits behind all others. -/
theorem RepliesOrdered.send {l : Replies} (h : RepliesOrdered l) (own : Bool) :
    RepliesOrdered { l with waiting := l.waiting ++ [⟨l.current, own⟩] } := by
  have hmem (p : Pending) (hp : p ∈ l.waiting ++ [⟨l.current, own⟩]) :
      p ∈ l.waiting ∨ p.index = l.current := by
    obtain hp | hp := List.mem_append.mp hp
    · exact .inl hp
    · exact .inr (congrArg Pending.index (List.mem_singleton.mp hp))
  refine ⟨h.answered, ?_, ?_, h.answered_le, ?_⟩
  · refine List.pairwise_append.mpr ⟨h.waiting, List.pairwise_singleton _ _, ?_⟩
    intro p hp q hq
    rw [List.mem_singleton.mp hq]
    exact h.waiting_le p hp
  · intro i hi p hp hown
    obtain hp | hp := hmem p hp
    · exact h.before i hi p hp hown
    · exact hp ▸ h.answered_le i hi
  · intro p hp
    obtain hp | hp := hmem p hp
    · exact h.waiting_le p hp
    · exact Nat.le_of_eq hp

/-- A reply that overtakes nothing comes after all others. -/
theorem RepliesOrdered.answer {l : Replies} (h : RepliesOrdered l) (hsettled : l.outstanding = []) :
    RepliesOrdered { l with answered := l.answered ++ [l.current] } := by
  have hwaiting : l.waiting.filter Pending.own = [] := (List.append_eq_nil_iff.mp hsettled).2
  have hnone (p : Pending) (hp : p ∈ l.waiting) (hown : p.own = true) : False := by
    simpa [hwaiting] using List.mem_filter.mpr ⟨hp, hown⟩
  refine ⟨?_, h.waiting, fun i _ p hp hown => (hnone p hp hown).elim, ?_, h.waiting_le⟩
  · refine List.pairwise_append.mpr ⟨h.answered, List.pairwise_singleton _ _, ?_⟩
    intro i hi j hj
    rw [List.mem_singleton.mp hj]
    exact h.answered_le i hi
  · intro i hi
    obtain hi | hi := List.mem_append.mp hi
    · exact h.answered_le i hi
    · exact Nat.le_of_eq (List.mem_singleton.mp hi)

/-- Giving up the messages of the lease keeps the order. -/
theorem RepliesOrdered.release {l : Replies} (h : RepliesOrdered l) :
    RepliesOrdered { l with waiting := [], lost := l.lost ++ l.waiting.filter Pending.own } where
  answered := h.answered
  waiting := .nil
  before := by simp
  answered_le := h.answered_le
  waiting_le := by simp

/-- Nothing has been sent yet. -/
theorem repliesOrdered_start (s : Session) : RepliesOrdered s.replies.ledger where
  answered := .nil
  waiting := .nil
  before := by simp [Session.replies]
  answered_le := by simp [Session.replies]
  waiting_le := by simp [Session.replies]

/-- An action that overtakes nothing keeps the order. -/
theorem RepliesOrdered.record {l : Replies} (h : RepliesOrdered l) {act : Action}
    (hact : OvertakesNothing l act) : RepliesOrdered (l.record act) := by
  unfold Replies.record
  split
  · split_ifs
    · exact h
    · exact h.send true
  · exact h.send false
  · exact h.release
  · split_ifs with hmade
    · exact h.answer (hact hmade)
    · exact h
  · exact h

/-- An event keeps the order. -/
theorem RepliesOrdered.note {l : Replies} (h : RepliesOrdered l) (s : Session) (i : Observed) :
    RepliesOrdered (l.note s i) := by
  unfold Replies.note
  split
  · exact h.serve i.silent
  · split_ifs
    · exact h
    · exact h.drop i.completes
    · exact h.complete i.completes
  · exact h

/-- A step that overtakes nothing keeps the order. -/
theorem repliesOrdered_step (w : Watched Session Replies) (i : Observed) (hw : RepliesOrdered w.ledger)
    (hstep : NoOvertaking w i) : RepliesOrdered (replyStep w i).ledger := by
  apply Watched.step_keeps (fun w => RepliesOrdered w.ledger) hw
  intro hrunning
  exact run_invariant (fun _ _ h hact => h.record hact) (hw.note w.state i) (hstep hrunning)

/-- In every run on the compat port, for every order of the events and every backend, no reply that
the session makes up overtakes one that is to come exactly if nothing is outstanding whenever the
session answers at once; and then the client gets its replies in the order of its messages. -/
theorem no_overtaking_iff (mode : PoolMode) (conn : ConnId) (windowMs : ℤ) (inputs : List Observed) :
    let start := (Session.start .compat mode conn windowMs).replies
    (Throughout replyStep NoOvertaking start inputs ↔
        Throughout replyStep AnswersWhenSettled start inputs) ∧
      (Throughout replyStep NoOvertaking start inputs →
        (run replyStep start inputs).ledger.answered.Pairwise (· ≤ ·)) := by
  intro start
  constructor
  · apply throughout_congr (I := fun w => w.state.port = .compat)
    · intro w i hport
      apply Watched.step_keeps (fun w : Watched Session Replies => w.state.port = .compat) hport
      exact fun _ => (turn_port w.state i.event).1.trans hport
    · exact fun w i hport => noOvertaking_iff hport i
    · rfl
  · intro hrun
    have hend : RepliesOrdered (run replyStep start inputs).ledger :=
      run_invariant (I := fun w => RepliesOrdered w.ledger) repliesOrdered_step
        (repliesOrdered_start _) hrun
    exact hend.answered

/-- A `BEGIN` sent right behind a query is answered before the query. -/
theorem begin_overtakes_query :
    let env := Env.steady 1 ⟨7, text "node-2", .replica⟩
    let start := (Session.start .compat .transaction 0 1000).replies
    let select : Observed := ⟨.downstream env (.query (text "SELECT 1")), 0, false⟩
    let begin : Observed := ⟨.downstream env (.query (text "BEGIN")), 0, false⟩
    let ready : Observed := ⟨.upstream env (.readyForQuery statusIdle), 1, false⟩
    ¬NoOvertaking (run replyStep start [select]) begin ∧
      (run replyStep start [select, begin, ready]).ledger.answered = [2, 2, 1] := by
  intro env start select begin ready
  exact ⟨by decide, by decide⟩

end Grunyas.Server
