import Grunyas.Routing.Pipeline
import Grunyas.Session.Outcomes

/-!
# The class of a prepared statement

A compat session caches the class of a named statement at its first `Parse`, and never forgets
it: not when the client closes the statement, and not when the connection that holds it is given
back. A later `Parse` of the same name has the class of the first text, whereas the routing
pipeline classifies the text at hand.
-/

namespace Grunyas.Server

open GoText Grunyas.Classifier Machine

/-- The object type of a prepared statement in a `Close`. -/
def objectStatement : UInt8 := 0x53

/-- The ledger of named statements: those a session classified by their text, in order, and the
names prepared on the present lease. -/
structure StatementLog where
  classified : List Statement
  prepared : List Text
  deriving DecidableEq, Repr

/-- Whether the session classifies a `Parse` by the cache and the text alone. -/
def classifiesByText (s : Session) : Bool :=
  s.compatTxState != .inTransactionWrite && s.compatTxState != .inFailedTransaction

/-- The ledger after an event was taken. -/
def StatementLog.note (l : StatementLog) (s : Session) : Event → StatementLog
  | .downstream _ (.parse name sql) =>
    if classifiesByText s then { l with classified := l.classified ++ [⟨name, sql⟩] } else l
  | _ => l

/-- The ledger after an action of the session. A connection that is given back loses its prepared
statements. -/
def StatementLog.record (l : StatementLog) : Action → StatementLog
  | .forward _ (.parse name _) true => { l with prepared := name :: l.prepared }
  | .forward _ (.close objectType name) true =>
    if objectType = objectStatement then { l with prepared := l.prepared.filter (· ≠ name) } else l
  | .release _ => { l with prepared := [] }
  | _ => l

/-- The first text that the session classified under a name. -/
def StatementLog.firstText (l : StatementLog) (name : Text) : Option Text :=
  (l.classified.find? fun stmt => stmt.name == name).map Statement.sql

/-- The main loop with the ledger of named statements. -/
def statementStep : Watched Session StatementLog → Event → Watched Session StatementLog :=
  Watched.step turn StatementLog.note StatementLog.record

/-- The main loop at its start. -/
def Session.statements (s : Session) : Watched Session StatementLog := ⟨s, ⟨[], []⟩, .running⟩

/-- The role of the lease on which a statement would be sent. -/
def leasedRole (env : Env) (s : Session) (sql : Text) : Option Role :=
  if s.upstream = none then (requestLease env s sql).toOption.map UpstreamLease.role
  else s.compatLeasedRole

/-- The class of a `Parse` is that of its text, for the session as for the routing pipeline. -/
def ClassFollowsText (s : Session) (stmt : Statement) : Prop :=
  (classifyCompat s stmt).1 = classifyByKeyword stmt.sql ∧
    (classifyCompat s stmt).1 = Routing.classifyFor .compat stmt.sql

/-- Whether a statement is a write other than the end of a transaction. -/
def writesData (sql : Text) : Bool :=
  (classifyByKeyword sql).kind == .write && !isCommit sql && !isRollback sql

/-- The contract of a `Parse` under a name that is not prepared on the lease, outside a
transaction that is a write already. -/
def ParseContract (w : Watched Session StatementLog) : Event → Prop
  | .downstream env (.parse name sql) =>
    w.next = .running → name ∉ w.ledger.prepared → w.state.compatTxState ≠ .inTransactionWrite →
      (w.state.compatTxState ≠ .inFailedTransaction → ClassFollowsText w.state ⟨name, sql⟩) ∧
      (writesData sql = true → leasedRole env w.state sql = some .replica →
        ¬ForwardedUpstream (.parse name sql) (turn w.state (.downstream env (.parse name sql))).acts)
  | _ => True

/-- Whether the forwarding of a statement stops before the statement. -/
def stopsForwarding (env : Env) (s : Session) : Bool :=
  (s.upstream.isSome && env.flush) || (s.pendingBegin.isSome && !env.replay)

/-- A `Parse` has the class of the first text classified under its name, if any; and if it is a
write on a replica then its rejection is flushed, or a replayed `BEGIN` fails before it. -/
def ParseConsistent (w : Watched Session StatementLog) : Event → Prop
  | .downstream env (.parse name sql) =>
    w.next = .running → name ∉ w.ledger.prepared → classifiesByText w.state = true →
      (∀ first, name ≠ [] → w.ledger.firstText name = some first →
        classifyByKeyword first = classifyByKeyword sql) ∧
      (writesData sql = true → leasedRole env w.state sql = some .replica →
        stopsForwarding env w.state = true)
  | _ => True

/-- The cache holds the class of the first text classified under each name. -/
def CachesFirst (w : Watched Session StatementLog) : Prop :=
  w.state.port = .compat ∧ ∃ cache, w.state.compatPrepared = some cache ∧
    ∀ name, name ≠ [] → cache.lookup name = (w.ledger.firstText name).map classifyByKeyword

/-- The cache after a client message: only a `Parse` outside a failed transaction is cached. -/
def preparedAfter (s : Session) : FrontendMessage → Option Prepared
  | .parse name sql =>
    if s.compatTxState = .inFailedTransaction then s.compatPrepared
    else (classifyCompat s ⟨name, sql⟩).2
  | _ => s.compatPrepared

/-- Outside a write transaction a named statement has the class that is cached under its name. -/
theorem classifyCompat_cached {s : Session} {cache : Prepared} {stmt : Statement}
    {cls : Classifier.Class} (hcache : s.compatPrepared = some cache)
    (htx : s.compatTxState ≠ .inTransactionWrite) (hname : stmt.name ≠ [])
    (hlookup : cache.lookup stmt.name = some cls) : classifyCompat s stmt = (cls, some cache) := by
  simp [classifyCompat, classify, hcache, htx, hname, hlookup]

/-- A name that is not cached yet gets the class of the text. -/
theorem classifyCompat_fresh {s : Session} {cache : Prepared} {stmt : Statement}
    (hcache : s.compatPrepared = some cache) (htx : s.compatTxState ≠ .inTransactionWrite)
    (hname : stmt.name ≠ []) (hlookup : cache.lookup stmt.name = none) :
    classifyCompat s stmt =
      (classifyByKeyword stmt.sql, some ((stmt.name, classifyByKeyword stmt.sql) :: cache)) := by
  simp [classifyCompat, classify, hcache, htx, hname, hlookup]

/-- A write transaction leaves the cache alone. -/
theorem classifyCompat_of_write {s : Session} (htx : s.compatTxState = .inTransactionWrite)
    (stmt : Statement) : (classifyCompat s stmt).2 = s.compatPrepared := by
  simp [classifyCompat, classify, htx]

/-- A statement without a name has the class of its text and leaves the cache alone. -/
theorem classifyCompat_unnamed (s : Session) (sql : Text) :
    (s.compatTxState ≠ .inTransactionWrite → (classifyCompat s ⟨[], sql⟩).1 = classifyByKeyword sql) ∧
      (classifyCompat s ⟨[], sql⟩).2 = s.compatPrepared := by
  by_cases htx : s.compatTxState = .inTransactionWrite
  · exact ⟨fun h => absurd htx h, classifyCompat_of_write htx _⟩
  · cases hcache : s.compatPrepared <;> simp [classifyCompat, classify, hcache, htx]

/-- The routing pipeline classifies by the text. -/
theorem classifyFor_compat (sql : Text) : Routing.classifyFor .compat sql = classifyByKeyword sql := by
  simp [Routing.classifyFor, classify]

/-- A statement of a message is cached under the name of a `Parse`. -/
theorem preparedAfter_statement {s : Session} {msg : FrontendMessage} {stmt : Statement}
    (hstmt : msg.statement = some stmt) (htx : s.compatTxState ≠ .inFailedTransaction) :
    preparedAfter s msg = (classifyCompat s stmt).2 := by
  cases msg with
  | query string =>
    cases hstmt
    exact (classifyCompat_unnamed s string).2.symm
  | parse name sql =>
    cases hstmt
    exact if_neg htx
  | _ => cases hstmt

/-- A message without a statement leaves the cache alone. -/
theorem preparedAfter_other {s : Session} {msg : FrontendMessage} (hother : msg.statement = none) :
    preparedAfter s msg = s.compatPrepared := by
  cases msg with
  | parse name sql => cases hother
  | _ => rfl

/-- A failed transaction leaves the cache alone. -/
theorem preparedAfter_of_failed {s : Session} (msg : FrontendMessage)
    (htx : s.compatTxState = .inFailedTransaction) : preparedAfter s msg = s.compatPrepared := by
  cases msg with
  | parse name sql => exact if_pos htx
  | _ => rfl

/-- What preparing the upstream does to the cache. -/
theorem Prepares.compatPrepared {env : Env} {s : Session} {msg : FrontendMessage} {h : Handling}
    (hprep : Prepares env s msg h) (hport : s.port = .compat) :
    h.sess.compatPrepared = preparedAfter s msg := by
  cases hprep with
  | held _ hother => exact absurd hport hother
  | acquired _ hother => exact absurd hport hother
  | refused _ hother => exact absurd hport hother
  | rollback _ _ htx => exact (preparedAfter_of_failed msg htx).symm
  | abortedQuery _ _ htx => exact (preparedAfter_of_failed msg htx).symm
  | abortedSync _ htx => exact (preparedAfter_of_failed msg htx).symm
  | aborted _ htx => exact (preparedAfter_of_failed msg htx).symm
  | otherHeld _ _ _ hother => exact (preparedAfter_other hother).symm
  | otherLeased _ _ _ hother => exact (preparedAfter_other hother).symm
  | otherRefused _ _ _ hother => exact (preparedAfter_other hother).symm
  | reclassified stmt _ _ htx hstmt => exact (preparedAfter_statement hstmt htx).symm
  | continued stmt _ _ htx hstmt =>
    rw [preparedAfter_statement hstmt htx]
    unfold continueTransaction trackRollback
    split_ifs <;> rfl
  | leased stmt _ _ htx hstmt =>
    rw [preparedAfter_statement hstmt htx]
    unfold beginTransaction trackRollback
    split_ifs <;> rfl
  | leaseRefused stmt _ _ htx hstmt => exact (preparedAfter_statement hstmt htx).symm

/-- Forwarding leaves the cache alone. -/
theorem Forwards.compatPrepared {env : Env} {msg : FrontendMessage} {s : Session} {conn : ConnId}
    {t : SessionTurn} (hfwd : Forwards env msg s conn t) :
    t.state.compatPrepared = s.compatPrepared := by
  obtain ⟨mode, pending, swallowing, hstate⟩ := hfwd.state_eq
  rw [hstate]

/-- What serving a client message does to the cache. -/
theorem Serves.compatPrepared {env : Env} {msg : FrontendMessage} {s : Session} {t : SessionTurn}
    (hserve : Serves env msg s t) (hport : s.port = .compat) :
    t.state.compatPrepared = preparedAfter s msg := by
  have hbegin : buffersBegin s msg = true → preparedAfter s msg = s.compatPrepared := by
    intro hbuf
    cases msg with
    | query string => rfl
    | _ => cases hbuf
  cases hserve with
  | terminated hterm =>
    subst hterm
    rfl
  | refusedUnflushed href => simp [readPortRefuses, hport] at href
  | refused href => simp [readPortRefuses, hport] at href
  | bufferFailed acts hbuf => exact (hbegin hbuf).symm
  | buffered hbuf => exact (hbegin hbuf).symm
  | revokedUnflushed h err ref hprep => exact hprep.compatPrepared hport
  | revoked h err ref hprep => exact hprep.compatPrepared hport
  | closed h err hprep => exact hprep.compatPrepared hport
  | handled h hprep => exact hprep.compatPrepared hport
  | panicked h hprep => exact hprep.compatPrepared hport
  | forwarded h conn u hprep _ _ hfwd =>
    exact hfwd.compatPrepared.trans (hprep.compatPrepared hport)

/-- Releasing the upstream leaves the cache alone. -/
theorem releaseUpstream_compatPrepared (s : Session) :
    (releaseUpstream s).1.compatPrepared = s.compatPrepared := by
  rw [releaseUpstream_eq]

/-- Tracking the transaction status leaves the cache alone. -/
theorem trackReadyForQuery_compatPrepared (now : Time) (msg : BackendMessage) (s : Session) :
    (trackReadyForQuery now msg s).compatPrepared = s.compatPrepared := by
  cases msg with
  | readyForQuery txStatus =>
    simp only [trackReadyForQuery, handleCompatReadyForQuery, resetCompatState]
    split_ifs <;> rfl
  | _ => rfl

/-- An upstream message leaves the cache alone. -/
theorem serve_upstream_compatPrepared (s : Session) (env : Env) (msg : BackendMessage) :
    (serve s (.upstream env msg)).state.compatPrepared = s.compatPrepared := by
  have htrack := trackReadyForQuery_compatPrepared env.now msg s
  obtain ⟨-, hserve⟩ | ⟨-, -, hswallow⟩ | ⟨-, -, hrelay⟩ := serve_upstream_cases s env msg
  · rw [hserve]
    rfl
  · generalize serve s (.upstream env msg) = t at hswallow ⊢
    cases hswallow <;> rfl
  · generalize serve s (.upstream env msg) = t at hrelay ⊢
    cases hrelay with
    | detached => exact (releaseUpstream_compatPrepared _).trans htrack
    | kept => exact htrack
    | _ => rfl

/-- The cache after an event. -/
def preparedOn (s : Session) : Event → Option Prepared
  | .downstream _ msg => preparedAfter s msg
  | _ => s.compatPrepared

/-- What a turn does to the cache. -/
theorem turn_compatPrepared {s : Session} (hport : s.port = .compat) (ev : Event) :
    (turn s ev).state.compatPrepared = preparedOn s ev := by
  have hdeferred : (turn s ev).state.compatPrepared = (serve s ev).state.compatPrepared := by
    unfold turn deferredRelease
    cases (serve s ev).next with
    | returned => exact releaseUpstream_compatPrepared _
    | _ => rfl
  rw [hdeferred]
  cases ev with
  | upstream env msg => exact serve_upstream_compatPrepared s env msg
  | downstream env msg =>
    have hserve := serve_serves s env msg
    obtain ⟨slot, hdecode⟩ := decodeMessage_eq s msg
    rw [hdecode] at hserve
    rw [hserve.compatPrepared hport]
    cases msg <;> rfl
  | release => exact releaseUpstream_compatPrepared s
  | _ => rfl

/-- The names prepared on the lease play no part in the texts that were classified. -/
theorem StatementLog.classified_record (l : StatementLog) (act : Action) :
    (l.record act).classified = l.classified := by
  unfold StatementLog.record
  split
  · rfl
  · split_ifs <;> rfl
  · rfl
  · rfl

/-- Nor do those of a whole turn. -/
theorem StatementLog.classified_foldl (l : StatementLog) (acts : List Action) :
    (acts.foldl StatementLog.record l).classified = l.classified := by
  induction acts generalizing l with
  | nil => rfl
  | cons act acts ih => exact (ih _).trans (l.classified_record act)

/-- The cache and the ledger change at the same events, with the same statement. -/
theorem preparedOn_cases (s : Session) (ev : Event) (l : StatementLog) :
    (preparedOn s ev = s.compatPrepared ∧ (l.note s ev).classified = l.classified) ∨
      ∃ stmt, s.compatTxState ≠ .inTransactionWrite ∧ preparedOn s ev = (classifyCompat s stmt).2 ∧
        (l.note s ev).classified = l.classified ++ [stmt] := by
  cases ev with
  | downstream env msg =>
    cases msg with
    | parse name sql =>
      simp only [preparedOn, preparedAfter, StatementLog.note]
      by_cases hfailed : s.compatTxState = .inFailedTransaction
      · exact .inl (by simp [hfailed, classifiesByText])
      · by_cases hwrite : s.compatTxState = .inTransactionWrite
        · exact .inl (by simp [hwrite, classifiesByText, classifyCompat_of_write hwrite])
        · exact .inr ⟨⟨name, sql⟩, hwrite, by simp [hfailed, hwrite, classifiesByText]⟩
    | _ => exact .inl ⟨rfl, rfl⟩
  | _ => exact .inl ⟨rfl, rfl⟩

/-- The first text under a name, after one more statement. -/
theorem StatementLog.firstText_append {l l' : StatementLog} {stmt : Statement}
    (h : l'.classified = l.classified ++ [stmt]) (name : Text) :
    l'.firstText name = (l.firstText name).or (if stmt.name = name then some stmt.sql else none) := by
  unfold StatementLog.firstText
  rw [h, List.find?_append]
  cases l.classified.find? fun stmt => stmt.name == name with
  | some first => rfl
  | none =>
    by_cases hname : stmt.name = name <;> simp [hname]

/-- The cache follows the ledger when a `Parse` is classified by its text. -/
theorem lookup_classifyCompat {s : Session} {l l' : StatementLog} {cache : Prepared}
    {stmt : Statement} (hcache : s.compatPrepared = some cache)
    (htx : s.compatTxState ≠ .inTransactionWrite)
    (hfirst : ∀ name, name ≠ [] → cache.lookup name = (l.firstText name).map classifyByKeyword)
    (hl : l'.classified = l.classified ++ [stmt]) :
    ∃ cache', (classifyCompat s stmt).2 = some cache' ∧
      ∀ name, name ≠ [] → cache'.lookup name = (l'.firstText name).map classifyByKeyword := by
  obtain ⟨stmtName, sql⟩ := stmt
  by_cases hname : stmtName = []
  · subst hname
    refine ⟨cache, (classifyCompat_unnamed s sql).2.trans hcache, fun name hne => ?_⟩
    rw [StatementLog.firstText_append hl, if_neg (Ne.symm hne), Option.or_none]
    exact hfirst name hne
  · cases hlookup : cache.lookup stmtName with
    | some cls =>
      refine ⟨cache, by rw [classifyCompat_cached hcache htx hname hlookup], fun name hne => ?_⟩
      rw [StatementLog.firstText_append hl]
      split_ifs with heq
      · subst heq
        have hsome := hfirst stmtName hne
        rw [hlookup] at hsome
        cases hl : l.firstText stmtName with
        | none => simp [hl] at hsome
        | some first => simpa [hl] using hfirst stmtName hne
      · rw [Option.or_none]
        exact hfirst name hne
    | none =>
      refine ⟨_, by rw [classifyCompat_fresh hcache htx hname hlookup], fun name hne => ?_⟩
      rw [StatementLog.firstText_append hl, List.lookup_cons]
      by_cases heq : stmtName = name
      · subst heq
        have hnone := hfirst stmtName hne
        rw [hlookup] at hnone
        simp [Option.map_eq_none_iff.mp hnone.symm]
      · simp [heq, beq_eq_false_iff_ne.mpr (Ne.symm heq), hfirst name hne]

/-- Every step keeps the cache in agreement with the first texts. -/
theorem cachesFirst_step (w : Watched Session StatementLog) (ev : Event) (hw : CachesFirst w) :
    CachesFirst (statementStep w ev) := by
  apply Watched.step_keeps CachesFirst hw
  intro _
  obtain ⟨hport, cache, hcache, hfirst⟩ := hw
  refine ⟨(turn_port w.state ev).1.trans hport, ?_⟩
  rw [turn_compatPrepared hport ev]
  have hlog := StatementLog.classified_foldl (w.ledger.note w.state ev) (turn w.state ev).acts
  obtain ⟨hsame, hnote⟩ | ⟨stmt, htx, hparsed, hnote⟩ := preparedOn_cases w.state ev w.ledger
  · refine ⟨cache, hsame.trans hcache, fun name hname => ?_⟩
    rw [hfirst name hname, StatementLog.firstText, StatementLog.firstText, hlog, hnote]
  · rw [hparsed]
    exact lookup_classifyCompat hcache htx hfirst (hlog.trans hnote)

/-- The class of a `Parse` follows its text exactly if the first text under its name, if any, has
that class. -/
theorem classFollowsText_iff {w : Watched Session StatementLog} (hw : CachesFirst w)
    (htx : w.state.compatTxState ≠ .inTransactionWrite) (name sql : Text) :
    ClassFollowsText w.state ⟨name, sql⟩ ↔
      ∀ first, name ≠ [] → w.ledger.firstText name = some first →
        classifyByKeyword first = classifyByKeyword sql := by
  obtain ⟨-, cache, hcache, hfirst⟩ := hw
  simp only [ClassFollowsText, classifyFor_compat, and_self]
  by_cases hname : name = []
  · subst hname
    simp [(classifyCompat_unnamed w.state sql).1 htx]
  · have hlookup := hfirst name hname
    cases htext : w.ledger.firstText name with
    | none =>
      rw [htext] at hlookup
      have hclass : classifyCompat w.state ⟨name, sql⟩ = _ :=
        classifyCompat_fresh hcache htx hname hlookup
      simp [hclass]
    | some first =>
      rw [htext] at hlookup
      have hclass : classifyCompat w.state ⟨name, sql⟩ = _ :=
        classifyCompat_cached hcache htx hname hlookup
      simp [hclass, hname]

/-- A write that goes to a replica gets a new lease there, or is rejected on the one that is held. -/
theorem Prepares.write_on_replica {env : Env} {s : Session} {name sql : Text} {h : Handling}
    (hprep : Prepares env s (.parse name sql) h) (hport : s.port = .compat)
    (htx : s.compatTxState ≠ .inFailedTransaction)
    (hclass : (classifyCompat s ⟨name, sql⟩).1 = classifyByKeyword sql)
    (hwrites : writesData sql = true) (hrole : leasedRole env s sql = some .replica) :
    h.sess.upstream ≠ none ∧
      ((s.upstream = none ∧ h.verdict = .forward) ∨
        (s.upstream ≠ none ∧ h.verdict = afterRejection env)) := by
  simp only [writesData, Bool.and_eq_true, beq_iff_eq, Bool.not_eq_true'] at hwrites
  obtain ⟨⟨hwrite, hcommit⟩, hrollback⟩ := hwrites
  cases hprep with
  | held _ hother => exact absurd hport hother
  | acquired _ hother => exact absurd hport hother
  | refused _ hother => exact absurd hport hother
  | rollback _ _ hfailed => exact absurd hfailed htx
  | abortedQuery _ _ hfailed => exact absurd hfailed htx
  | abortedSync _ hfailed => exact absurd hfailed htx
  | aborted _ hfailed => exact absurd hfailed htx
  | otherHeld _ _ _ hother => cases hother
  | otherLeased _ _ _ hother => cases hother
  | otherRefused _ _ _ hother => cases hother
  | reclassified stmt held _ _ _ hup =>
    have hheld : s.upstream ≠ none := by simp [hup]
    exact ⟨hheld, .inr ⟨hheld, rfl⟩⟩
  | continued stmt held _ _ hstmt hup hallowed =>
    cases hstmt
    simp [leasedRole, hup] at hrole
    simp [reclassifies, hup, hrole, compatKind, hclass, hwrite, hcommit, hrollback] at hallowed
  | leased stmt lease _ _ _ hup =>
    refine ⟨?_, .inl ⟨hup, rfl⟩⟩
    rw [(beginTransaction_frame _ _ _ _).2]
    exact Option.some_ne_none _
  | leaseRefused stmt err _ _ hstmt hup hfailed =>
    cases hstmt
    simp [leasedRole, hup, hfailed, Except.toOption] at hrole

/-- Where its class follows its text, a write on a replica is kept from the upstream exactly if
something stops it. -/
theorem parse_not_forwarded_iff {env : Env} {s : Session} {name sql : Text}
    (hport : s.port = .compat) (htx : classifiesByText s = true)
    (hclass : (classifyCompat s ⟨name, sql⟩).1 = classifyByKeyword sql)
    (hwrites : writesData sql = true) (hrole : leasedRole env s sql = some .replica) :
    ¬ForwardedUpstream (.parse name sql) (turn s (.downstream env (.parse name sql))).acts ↔
      stopsForwarding env s = true := by
  have hserve := serve_serves s env (.parse name sql)
  have hnofail : s.compatTxState ≠ .inFailedTransaction := by
    intro hfailed
    simp [classifiesByText, hfailed] at htx
  have hcases {h : Handling} (hprep : Prepares env s (.parse name sql) h) :=
    hprep.write_on_replica hport hnofail hclass hwrites hrole
  rw [forwardedUpstream_turn]
  generalize serve s (.downstream env (.parse name sql)) = t at hserve ⊢
  change Serves env (.parse name sql) s t at hserve
  cases hserve with
  | terminated hterm => cases hterm
  | refusedUnflushed href => simp [readPortRefuses, hport] at href
  | refused href => simp [readPortRefuses, hport] at href
  | bufferFailed acts hbuf => cases hbuf
  | buffered hbuf => cases hbuf
  | revokedUnflushed h err ref hprep hfailed =>
    obtain ⟨-, ⟨-, hv⟩ | ⟨-, hv⟩⟩ := hcases hprep <;> simp [hv] at hfailed
  | revoked h err ref hprep hfailed =>
    obtain ⟨-, ⟨-, hv⟩ | ⟨-, hv⟩⟩ := hcases hprep <;> simp [hv] at hfailed
  | closed h err hprep hfailed =>
    obtain ⟨-, ⟨-, hv⟩ | ⟨-, hv⟩⟩ := hcases hprep <;> simp [hv] at hfailed
  | handled h hprep hhandled =>
    obtain ⟨-, ⟨-, hv⟩ | ⟨hup, hv⟩⟩ := hcases hprep
    · simp [hv] at hhandled
    · have hflush : env.flush = true := by simpa [hv] using hhandled
      refine iff_of_true ?_ ?_
      · simp [ForwardedUpstream, hprep.forward_not_mem]
      · simp [stopsForwarding, Option.isSome_iff_ne_none, hup, hflush]
  | panicked h hprep hforward hnone => exact absurd hnone (hcases hprep).1
  | forwarded h conn u hprep hforward hheld hfwd =>
    have hmem : ForwardedUpstream (.parse name sql) (h.acts ++ u.acts) ↔
        ForwardedUpstream (.parse name sql) u.acts := by
      simp [ForwardedUpstream, hprep.forward_not_mem]
    have hopen : (s.upstream.isSome && env.flush) = false := by
      obtain ⟨-, ⟨hup, -⟩ | ⟨-, hv⟩⟩ := hcases hprep
      · simp [hup]
      · have hflush : env.flush = false := by simpa [hv] using hforward
        simp [hflush]
    rw [hmem, hfwd.forwarded_iff, not_not, hprep.frame.pendingBegin]
    simp [stopsForwarding, hopen, Option.isSome_iff_ne_none]

/-- In a failed transaction no `Parse` is handed to the upstream. -/
theorem parse_not_forwarded_of_failed {env : Env} {s : Session} (hport : s.port = .compat)
    (hfailed : s.compatTxState = .inFailedTransaction) (name sql : Text) :
    ¬ForwardedUpstream (.parse name sql) (turn s (.downstream env (.parse name sql))).acts := by
  rw [forwardedUpstream_turn]
  simp [serve, onDownstream, decodeMessage, serveMessage, readPortRefuses, hport, buffersBegin,
    prepareUpstream, handleCompatSQL, hfailed, handleFailedTransaction, dispatch, Turn.log_andThen,
    ackDownstream, Turn.attempt, ForwardedUpstream]

/-- The contract of one `Parse`. -/
theorem parseContract_iff {w : Watched Session StatementLog} (hw : CachesFirst w) (env : Env)
    (name sql : Text) :
    ParseContract w (.downstream env (.parse name sql)) ↔
      ParseConsistent w (.downstream env (.parse name sql)) := by
  refine forall_congr' fun _ => forall_congr' fun _ => ?_
  by_cases hfailed : w.state.compatTxState = .inFailedTransaction
  · simp [hfailed, classifiesByText, parse_not_forwarded_of_failed hw.1 hfailed]
  · by_cases hwrite : w.state.compatTxState = .inTransactionWrite
    · simp [hwrite, classifiesByText]
    · have htext : classifiesByText w.state = true := by simp [classifiesByText, hfailed, hwrite]
      simp only [htext, forall_const, ne_eq, hfailed, hwrite, not_false_eq_true]
      rw [← classFollowsText_iff hw hwrite]
      refine and_congr_right fun hclass => forall_congr' fun hwrites => forall_congr' fun hrole => ?_
      exact parse_not_forwarded_iff hw.1 htext hclass.1 hwrites hrole

/-- In every run on the compat port the contract holds at every `Parse` exactly if every `Parse` has
the class of the first text under its name, as far as the name is not prepared on the lease, and
the rejection of a write on a replica stops it. -/
theorem parse_follows_text_iff (mode : PoolMode) (conn : ConnId) (windowMs : ℤ)
    (events : List Event) :
    Throughout statementStep ParseContract (Session.start .compat mode conn windowMs).statements
        events ↔
      Throughout statementStep ParseConsistent
        (Session.start .compat mode conn windowMs).statements events := by
  apply throughout_congr cachesFirst_step
  · intro w ev hw
    cases ev with
    | downstream env msg =>
      cases msg with
      | parse name sql => exact parseContract_iff hw env name sql
      | _ => exact Iff.rfl
    | _ => exact Iff.rfl
  · exact ⟨rfl, [], rfl, fun _ _ => rfl⟩

/-- A statement is prepared as a read and closed; its name is then prepared as a write in a
transaction leased to a replica. The session takes it for a read and forwards it there. -/
theorem closed_name_reclassified :
    let env := Env.steady 1 ⟨7, text "node-2", .replica⟩
    let insert := FrontendMessage.parse (text "s1") (text "INSERT INTO t VALUES (1)")
    let w := run statementStep (Session.start .compat .transaction 0 1000).statements
      [.downstream env (.parse (text "s1") (text "SELECT 1")),
        .downstream env (.close objectStatement (text "s1"))]
    ¬ParseContract w (.downstream env insert) ∧ text "s1" ∉ w.ledger.prepared ∧
      w.state.compatLeasedRole = some .replica ∧ writesData insert.sql = true ∧
      (classifyCompat w.state ⟨text "s1", insert.sql⟩).1.kind = .read ∧
      ForwardedUpstream insert (turn w.state (.downstream env insert)).acts := by
  intro env insert w
  have hforwarded : ForwardedUpstream insert (turn w.state (.downstream env insert)).acts :=
    ⟨7, true, by decide⟩
  have hunprepared : text "s1" ∉ w.ledger.prepared := by decide
  refine ⟨?_, hunprepared, by decide, by decide, by decide, hforwarded⟩
  intro hcontract
  exact (hcontract (by decide) hunprepared (by decide)).2 (by decide) (by decide) hforwarded

end Grunyas.Server
