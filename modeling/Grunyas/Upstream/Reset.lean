import Grunyas.Upstream.SessionClient

/-!
# A connection that is given back is clean

The loops of `reset` read whole replies: `drainToReady` the first, and `simpleQuery` up to the
first that tells of the end of a command. If replies to earlier requests were still to be read, a
simple query may stop at one of those, and its own reply stays on the connection.
-/

namespace Grunyas.Upstream

open GoText Grunyas.Server Machine

/-- The connection once it was read up to a `ReadyForQuery`. -/
def Conn.readTo (c : Conn) (status : UInt8) (rest : List BackendMessage) : Conn :=
  { c with txStatus := status, unread := rest }

/-- Draining stops after the first reply. -/
theorem drainLoop_messages (c : Conn) (reply : Reply) (rest : List BackendMessage) :
    drainLoop c (reply.messages ++ rest) = .ok (c.readTo reply.status rest) := by
  obtain ⟨body, status, hbody⟩ := reply
  simp only [Reply.messages, List.append_assoc, List.singleton_append]
  induction body generalizing c with
  | nil => rfl
  | cons msg body ih =>
    have hmsg : msg.isReady = false := hbody msg List.mem_cons_self
    have hrest := ih (c.receive msg (body ++ .readyForQuery status :: rest)) fun m hm =>
      hbody m (List.mem_cons_of_mem msg hm)
    rw [List.cons_append, drainLoop, hmsg]
    exact hrest

/-- The error that the loop of `simpleQuery` remembers from a message. -/
def rememberError (query : Text) (queryErr : Option ResetError) : BackendMessage → Option ResetError
  | .errorResponse severity code message => some (.failed query severity code message)
  | _ => queryErr

/-- An error is remembered exactly if there was one. -/
theorem rememberError_isSome (query : Text) (queryErr : Option ResetError) (msg : BackendMessage) :
    (rememberError query queryErr msg).isSome = (queryErr.isSome || msg.isError) := by
  cases msg with
  | errorResponse severity code message => simp [rememberError, BackendMessage.isError]
  | _ => simp [rememberError, BackendMessage.isError]

/-- The loop of `simpleQuery` on a message that is no `ReadyForQuery`. -/
theorem responseLoop_cons (query : Text) (c : Conn) (seen : Bool) (queryErr : Option ResetError)
    {msg : BackendMessage} (hmsg : msg.isReady = false) (rest : List BackendMessage) :
    responseLoop query c seen queryErr (msg :: rest) =
      responseLoop query (c.receive msg rest) (seen || endsCommand msg)
        (rememberError query queryErr msg) rest := by
  cases msg with
  | readyForQuery txStatus => cases hmsg
  | _ => simp [responseLoop, endsCommand, rememberError]

/-- The loop of `simpleQuery` on the messages before a `ReadyForQuery`. -/
theorem responseLoop_body (query : Text) {body : List BackendMessage}
    (hbody : ∀ msg ∈ body, msg.isReady = false) (c : Conn) (seen : Bool)
    (queryErr : Option ResetError) (status : UInt8) (rest : List BackendMessage) :
    ∃ c' queryErr', (∀ st r, c'.readTo st r = c.readTo st r) ∧
      queryErr'.isSome = (queryErr.isSome || body.any BackendMessage.isError) ∧
      responseLoop query c seen queryErr (body ++ .readyForQuery status :: rest) =
        responseLoop query c' (seen || body.any endsCommand) queryErr'
          (.readyForQuery status :: rest) := by
  induction body generalizing c seen queryErr with
  | nil => exact ⟨c, queryErr, fun _ _ => rfl, by simp, by simp⟩
  | cons msg body ih =>
    have hmsg : msg.isReady = false := hbody msg List.mem_cons_self
    obtain ⟨c', queryErr', hread, herr, hloop⟩ :=
      ih (fun m hm => hbody m (List.mem_cons_of_mem msg hm))
        (c.receive msg (body ++ .readyForQuery status :: rest)) (seen || endsCommand msg)
        (rememberError query queryErr msg)
    refine ⟨c', queryErr', fun st r => hread st r, ?_, ?_⟩
    · rw [herr, rememberError_isSome, List.any_cons, Bool.or_assoc]
    · rw [List.cons_append, responseLoop_cons query c seen queryErr hmsg, hloop, List.any_cons,
        Bool.or_assoc]

/-- An error ends a command. -/
theorem Reply.completes_of_failed {reply : Reply} (h : reply.failed = true) :
    reply.completes = true := by
  obtain ⟨msg, hmsg, herror⟩ := List.any_eq_true.mp h
  refine List.any_eq_true.mpr ⟨msg, hmsg, ?_⟩
  cases msg with
  | errorResponse severity code message => rfl
  | _ => cases herror

/-- A reply that tells of no end of a command is skipped. -/
theorem responseLoop_skip (query : Text) (c : Conn) {reply : Reply} (h : reply.completes = false)
    (rest : List BackendMessage) :
    responseLoop query c false none (reply.messages ++ rest) =
      responseLoop query (c.readTo reply.status rest) false none rest := by
  have hfailed : reply.failed = false := by
    by_contra hne
    rw [Reply.completes_of_failed (by simpa using hne)] at h
    cases h
  obtain ⟨c', queryErr, hread, herr, hloop⟩ :=
    responseLoop_body query reply.body_ready c false none reply.status rest
  have hnone : queryErr = none := by
    rw [show reply.body.any BackendMessage.isError = false from hfailed] at herr
    exact Option.isSome_eq_false_iff.mp herr |> Option.isNone_iff_eq_none.mp
  rw [show reply.body.any endsCommand = false from h, hnone] at hloop
  rw [Reply.messages, List.append_assoc, List.singleton_append, hloop, ← hread]
  rfl

/-- A reply that tells of the end of a command ends the response. -/
theorem responseLoop_stop (query : Text) (c : Conn) {reply : Reply} (h : reply.completes = true)
    (rest : List BackendMessage) (c' : Conn) :
    responseLoop query c false none (reply.messages ++ rest) = .ok c' ↔
      reply.failed = false ∧ c' = c.readTo reply.status rest := by
  obtain ⟨c₁, queryErr, hread, herr, hloop⟩ :=
    responseLoop_body query reply.body_ready c false none reply.status rest
  rw [show reply.body.any endsCommand = true from h] at hloop
  rw [Option.isSome_none, Bool.false_or] at herr
  rw [Reply.messages, List.append_assoc, List.singleton_append, hloop, ← hread]
  cases queryErr with
  | none =>
    have hfailed : reply.failed = false := herr.symm
    rw [and_iff_right hfailed]
    exact ⟨fun heq => (Except.ok.inj heq).symm, fun heq => congrArg Except.ok heq.symm⟩
  | some err =>
    have hfailed : reply.failed = true := herr.symm
    simp [responseLoop, hfailed]

/-- The response to a simple query ends at the first reply that tells of the end of a command. -/
theorem responseLoop_wire (query : Text) (c c' : Conn) (replies : List Reply) :
    responseLoop query c false none (wire replies) = .ok c' ↔
      ∃ reply, replies.find? Reply.completes = some reply ∧ reply.failed = false ∧
        c' = c.readTo reply.status (wire (afterFirst Reply.completes replies)) := by
  induction replies generalizing c with
  | nil => simp [wire, responseLoop]
  | cons reply replies ih =>
    rw [wire, List.flatMap_cons, ← wire]
    cases hdone : reply.completes with
    | true =>
      rw [responseLoop_stop query c hdone]
      simp [hdone, afterFirst]
    | false =>
      rw [responseLoop_skip query c hdone, ih]
      simp [hdone, afterFirst, Conn.readTo]

/-- The replies that are to be read once `reset` has tried to flush its `Sync`. -/
def afterSync (writes : Writes) (backend : Backend) (c : Conn) (stale : List Reply) : List Reply :=
  if writes (c.wbuf ++ [.sync]) then stale ++ answers backend c.received (c.wbuf ++ [.sync])
  else stale

/-- What the backend has received once `reset` has tried to flush its `Sync`. -/
def receivedSync (writes : Writes) (c : Conn) : List FrontendMessage :=
  if writes (c.wbuf ++ [.sync]) then c.received ++ (c.wbuf ++ [.sync]) else c.received

/-- The messages of two sequences of replies. -/
theorem wire_append (first rest : List Reply) : wire (first ++ rest) = wire first ++ wire rest :=
  List.flatMap_append

/-- The connection once `reset` has tried to flush its `Sync`. -/
theorem flush_sync (writes : Writes) (backend : Backend) {c : Conn} {stale : List Reply}
    (hunread : c.unread = wire stale) :
    ((c.send [.sync]).flush writes backend).1 =
      ⟨c.txStatus, [], receivedSync writes c, wire (afterSync writes backend c stale)⟩ := by
  by_cases hwrites : writes (c.wbuf ++ [.sync]) = true
  · simp [Conn.flush, Conn.send, receivedSync, afterSync, hwrites, hunread, wire_append]
  · simp [Conn.flush, Conn.send, receivedSync, afterSync, hwrites, hunread]

/-- Draining reads the first reply. -/
theorem drainToReady_ok_iff {c c' : Conn} {replies : List Reply} (hunread : c.unread = wire replies) :
    drainToReady c = .ok c' ↔
      ∃ first rest, replies = first :: rest ∧ c' = c.readTo first.status (wire rest) := by
  rw [drainToReady, hunread]
  cases replies with
  | nil => simp [wire, drainLoop]
  | cons first rest =>
    rw [wire, List.flatMap_cons, ← wire, drainLoop_messages]
    constructor
    · intro heq
      exact ⟨first, rest, rfl, (Except.ok.inj heq).symm⟩
    · rintro ⟨first', rest', heq, rfl⟩
      obtain ⟨rfl, rfl⟩ := List.cons.inj heq
      rfl

/-- A simple query succeeds exactly if it is written and the first reply, its own included, that
tells of the end of a command tells of no error. -/
theorem simpleQuery_ok_iff (writes : Writes) (backend : Backend) (query : Text) {c : Conn}
    (c' : Conn) {replies : List Reply} (hwbuf : c.wbuf = []) (hunread : c.unread = wire replies) :
    simpleQuery writes backend query c = .ok c' ↔
      writes [.query query] = true ∧
        ∃ reply, (replies ++ [backend c.received (.query query)]).find? Reply.completes = some reply ∧
          reply.failed = false ∧
          c' = ⟨reply.status, [], c.received ++ [.query query],
            wire (afterFirst Reply.completes (replies ++ [backend c.received (.query query)]))⟩ := by
  have hanswers : answers backend c.received [.query query] = [backend c.received (.query query)] :=
    rfl
  simp only [simpleQuery, Conn.send, Conn.flush, hwbuf, List.nil_append]
  by_cases hwrites : writes [.query query] = true
  · simp only [hwrites, if_true, true_and, hunread, hanswers, ← wire_append]
    exact responseLoop_wire query _ c' _
  · simp [hwrites]

/-- The backend has executed `DISCARD ALL` last, without an error, the connection is idle, and
nothing is left to be read on it. -/
structure Clean (backend : Backend) (c : Conn) : Prop where
  executed : ∃ received, c.received = received ++ [.query discard] ∧
    (backend received (.query discard)).failed = false
  idle : c.txStatus = statusIdle
  read : c.unread = []

/-- Of the replies to be read after the `Sync`, the first is drained, and the next that tells of
the end of a command, if any, tells of an error. If a `ROLLBACK` is sent, that may also be the one
after it. -/
def Resettable (writes : Writes) (rolledBack : Reply) : List Reply → Prop
  | [] => True
  | first :: rest =>
    writes [.query discard] = false ∨
      (∀ reply ∈ rest.find? Reply.completes, reply.failed = true) ∨
      (first.status ≠ statusIdle ∧
        (writes [.query rollback] = false ∨
          ∀ reply ∈ (afterFirst Reply.completes rest ++ [rolledBack]).find? Reply.completes,
            reply.failed = true))

/-- A `DISCARD ALL` that succeeds leaves the backend idle: it cannot run inside a transaction
block. -/
def DiscardsIdle (backend : Backend) : Prop :=
  ∀ received, (backend received (.query discard)).failed = false →
    (backend received (.query discard)).status = statusIdle

/-- A simple query that stops at an earlier reply leaves its own to be read. -/
theorem simpleQuery_early {writes : Writes} {backend : Backend} {query : Text} {c : Conn}
    {replies : List Reply} {reply : Reply} (hwbuf : c.wbuf = []) (hunread : c.unread = wire replies)
    (hfind : replies.find? Reply.completes = some reply) (c' : Conn) :
    simpleQuery writes backend query c = .ok c' ↔
      writes [.query query] = true ∧ reply.failed = false ∧
        c' = ⟨reply.status, [], c.received ++ [.query query],
          wire (afterFirst Reply.completes replies ++ [backend c.received (.query query)])⟩ := by
  rw [simpleQuery_ok_iff writes backend query c' hwbuf hunread]
  have hfind' : (replies ++ [backend c.received (.query query)]).find? Reply.completes =
      some reply := by
    rw [List.find?_append, hfind]
    rfl
  simp only [hfind', afterFirst_append_of_find hfind, Option.some.injEq, exists_eq_left']

/-- A simple query that stops at its own reply leaves nothing to be read. -/
theorem simpleQuery_own {writes : Writes} {backend : Backend} {query : Text} {c : Conn}
    {replies : List Reply} (hwbuf : c.wbuf = []) (hunread : c.unread = wire replies)
    (hfind : replies.find? Reply.completes = none) (c' : Conn) :
    simpleQuery writes backend query c = .ok c' ↔
      writes [.query query] = true ∧ (backend c.received (.query query)).completes = true ∧
        (backend c.received (.query query)).failed = false ∧
        c' = ⟨(backend c.received (.query query)).status, [], c.received ++ [.query query], []⟩ := by
  rw [simpleQuery_ok_iff writes backend query c' hwbuf hunread, List.find?_append, hfind,
    Option.none_or, afterFirst_append_of_find_none hfind]
  cases hdone : (backend c.received (.query query)).completes with
  | false => simp [hdone]
  | true => simp [hdone, afterFirst, wire]

/-- Running `DISCARD ALL` clears the connection exactly if it is not written, or no reply before its
own is taken for it, or that one tells of an error. -/
theorem discard_clean_iff {writes : Writes} {backend : Backend} (hidle : DiscardsIdle backend)
    {c : Conn} {replies : List Reply} (hwbuf : c.wbuf = []) (hunread : c.unread = wire replies) :
    (∀ c', simpleQuery writes backend discard c = .ok c' → Clean backend c') ↔
      writes [.query discard] = false ∨
        ∀ reply ∈ replies.find? Reply.completes, reply.failed = true := by
  cases hfind : replies.find? Reply.completes with
  | none =>
    refine iff_of_true ?_ (.inr (by simp))
    intro c' hok
    obtain ⟨-, -, hfailed, rfl⟩ := (simpleQuery_own hwbuf hunread hfind c').mp hok
    exact ⟨⟨c.received, rfl, hfailed⟩, hidle c.received hfailed, rfl⟩
  | some reply =>
    simp only [simpleQuery_early hwbuf hunread hfind, Option.mem_def, Option.some.injEq,
      forall_eq']
    constructor
    · intro hclean
      by_contra hbad
      simp only [not_or, Bool.not_eq_false, Bool.not_eq_true] at hbad
      have hread := (hclean _ ⟨hbad.1, hbad.2, rfl⟩).read
      simp [wire, Reply.messages] at hread
    · rintro (hwrites | hfailed) c' ⟨hwrites', hfailed', -⟩
      · simp [hwrites] at hwrites'
      · simp [hfailed] at hfailed'

/-- What holds of every result of two steps holds of the second after every result of the first. -/
theorem forall_bind_ok {α β ε : Type} (x : Except ε α) (f : α → Except ε β) (Q : β → Prop) :
    (∀ b, x >>= f = .ok b → Q b) ↔ ∀ a, x = .ok a → ∀ b, f a = .ok b → Q b := by
  cases x with
  | error err => simp [bind, Except.bind]
  | ok a => simp [bind, Except.bind]

/-- Running `ROLLBACK` and then `DISCARD ALL` clears the connection exactly if no reply before their
own is taken for one of them, or one that is tells of an error, or a query is not written. -/
theorem rollback_discard_clean_iff {writes : Writes} {backend : Backend}
    (hidle : DiscardsIdle backend) {c : Conn} {replies : List Reply} (hwbuf : c.wbuf = [])
    (hunread : c.unread = wire replies) :
    (∀ c', simpleQuery writes backend rollback c >>= simpleQuery writes backend discard = .ok c' →
        Clean backend c') ↔
      writes [.query discard] = false ∨
        (∀ reply ∈ replies.find? Reply.completes, reply.failed = true) ∨
        writes [.query rollback] = false ∨
        ∀ reply ∈ (afterFirst Reply.completes replies ++
            [backend c.received (.query rollback)]).find? Reply.completes, reply.failed = true := by
  rw [forall_bind_ok]
  cases hfind : replies.find? Reply.completes with
  | none =>
    refine iff_of_true ?_ (.inr (.inl (by simp)))
    intro c₁ hok
    obtain ⟨-, -, -, rfl⟩ := (simpleQuery_own hwbuf hunread hfind c₁).mp hok
    have hnone : ∀ reply ∈ ([] : List Reply).find? Reply.completes, reply.failed = true := nofun
    exact (discard_clean_iff hidle rfl rfl).mpr (.inr hnone)
  | some reply =>
    simp only [simpleQuery_early hwbuf hunread hfind, Option.mem_def, Option.some.injEq, forall_eq']
    constructor
    · intro hclean
      by_cases hwrites : writes [.query rollback] = true
      · by_cases hfailed : reply.failed = true
        · exact .inr (.inl hfailed)
        · have hdiscard := hclean _ ⟨hwrites, by simpa using hfailed, rfl⟩
          rw [discard_clean_iff hidle rfl rfl] at hdiscard
          exact hdiscard.imp_right fun h => .inr (.inr h)
      · exact .inr (.inr (.inl (by simpa using hwrites)))
    · rintro h c₁ ⟨hwrites, hfailed, rfl⟩
      rw [discard_clean_iff hidle rfl rfl]
      obtain h | h | h | h := h
      · exact .inl h
      · simp [hfailed] at h
      · simp [hwrites] at h
      · exact .inr h

/-- A connection that is given back is clean exactly if no reply that was still to be read is taken
for that of one of the two queries, save one that tells of an error. -/
theorem reset_clean_iff (writes : Writes) {backend : Backend} (hidle : DiscardsIdle backend)
    {c : Conn} (stale : List Reply) (hunread : c.unread = wire stale) :
    (∀ c', (SessionClient.mk c true).reset writes backend = .ok c' → Clean backend c') ↔
      Resettable writes (backend (receivedSync writes c) (.query rollback))
        (afterSync writes backend c stale) := by
  have hreset : (SessionClient.mk c true).reset writes backend =
      drainToReady ((c.send [.sync]).flush writes backend).1 >>= fun c₁ =>
        endTransaction writes backend c₁ >>= simpleQuery writes backend discard := rfl
  rw [hreset, forall_bind_ok, flush_sync writes backend hunread]
  cases hreplies : afterSync writes backend c stale with
  | nil => simp [drainToReady, drainLoop, wire, Resettable]
  | cons first rest =>
    have hdrain : drainToReady ⟨c.txStatus, [], receivedSync writes c, wire (first :: rest)⟩ =
        .ok ⟨first.status, [], receivedSync writes c, wire rest⟩ :=
      (drainToReady_ok_iff rfl).mpr ⟨first, rest, rfl, rfl⟩
    rw [hdrain]
    simp only [Except.ok.injEq, forall_eq', Resettable]
    by_cases hstatus : first.status = statusIdle
    · have hend : endTransaction writes backend
          ⟨first.status, [], receivedSync writes c, wire rest⟩ =
            .ok ⟨first.status, [], receivedSync writes c, wire rest⟩ := by
        simp [endTransaction, hstatus]
      rw [hend]
      simp only [hstatus, ne_eq, not_true_eq_false, false_and, or_false]
      exact discard_clean_iff hidle rfl rfl
    · have hend : endTransaction writes backend
          ⟨first.status, [], receivedSync writes c, wire rest⟩ =
            simpleQuery writes backend rollback
              ⟨first.status, [], receivedSync writes c, wire rest⟩ := by
        simp [endTransaction, hstatus]
      rw [hend]
      simp only [ne_eq, hstatus, not_false_eq_true, true_and]
      exact rollback_discard_clean_iff hidle rfl rfl

/-- A backend that is idle after every request and completes every query. -/
def idleBackend : Backend
  | _, .query sql => ⟨[.commandComplete sql], statusIdle, by simp [BackendMessage.isReady]⟩
  | _, _ => ⟨[], statusIdle, nofun⟩

/-- The reply to a query that was never read. -/
def unreadReply : Reply :=
  ⟨[.rowDescription, .dataRow [text "1"], .commandComplete (text "SELECT 1")], statusIdle, by
    simp [BackendMessage.isReady]⟩

/-- One reply that was never read is drained. -/
theorem reset_clean_after_one :
    let c : Conn := ⟨statusIdle, [], [.query (text "SELECT 1")], wire [unreadReply]⟩
    let c' : Conn := ⟨statusIdle, [], [.query (text "SELECT 1"), .sync, .query discard], []⟩
    (SessionClient.mk c true).reset (fun _ => true) idleBackend = .ok c' ∧ Clean idleBackend c' := by
  intro c c'
  have hidle : DiscardsIdle idleBackend := fun _ _ => rfl
  have hskips : ∀ reply ∈ [idleBackend c.received .sync].find? Reply.completes,
      reply.failed = true := by
    simp [idleBackend, Reply.completes]
  have hclean := (reset_clean_iff (fun _ => true) hidle [unreadReply] (c := c) rfl).mpr
    (.inr (.inl hskips))
  exact ⟨rfl, hclean c' rfl⟩

/-- Of two replies that were never read, the second is taken for that of `DISCARD ALL`: the
connection goes back with two replies on it. -/
theorem reset_dirty_after_two :
    DiscardsIdle idleBackend ∧
      ¬∀ c', (SessionClient.mk ⟨statusIdle, [], [.query (text "SELECT 1"), .query (text "SELECT 1")],
        wire [unreadReply, unreadReply]⟩ true).reset (fun _ => true) idleBackend = .ok c' →
          Clean idleBackend c' := by
  refine ⟨fun _ _ => rfl, fun hclean => ?_⟩
  have hread := (hclean _ rfl).read
  exact absurd hread (by decide)

end Grunyas.Upstream
