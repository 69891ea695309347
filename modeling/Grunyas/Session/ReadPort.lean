import Grunyas.Session.Outcomes

/-!
# Enforcement on the read port

The read port refuses what classifies as a write. It classifies the text of every message, and a
message without SQL text has the empty text, which classifies as a write by default: so exactly
the messages of the extended protocol that the contract lets through are refused.
-/

namespace Grunyas.Server

open GoText Grunyas.Classifier Machine

/-- The traffic type of a text on the read port, outside a transaction. -/
def readPortKind (sql : Text) : Kind := (classify ⟨[], sql⟩ ⟨.read, .idle, none⟩).1.kind

/-- The session answered with the refusal of the read port. -/
def RefusedOnReadPort (acts : List Action) : Prop :=
  ∃ ok, Action.send
    (.errorResponse "ERROR" "25006" "[grunyas] write attempted on read port") ok ∈ acts

/-- The session holds an upstream or can acquire one. -/
def UpstreamAvailable (env : Env) (s : Session) : Prop :=
  s.upstream ≠ none ∨ ∃ conn, env.acquire = .ok conn

/-- The contract of the read port for one message: refused exactly if it carries SQL text that is
a write, and forwarded otherwise. -/
def ReadPortContract (env : Env) (s : Session) (msg : FrontendMessage) : Prop :=
  let acts := (turn s (.downstream env msg)).acts
  (RefusedOnReadPort acts ↔ msg.carriesSQL = true ∧ readPortKind msg.sql = .write) ∧
    (¬(msg.carriesSQL = true ∧ readPortKind msg.sql = .write) → UpstreamAvailable env s →
      ForwardedUpstream msg acts)

/-- The contract for one step of a run; `Terminate` ends the session. -/
def ReadPortStep (w : Watched Session Unit) : Event → Prop
  | .downstream env msg => w.next = .running → msg ≠ .terminate → ReadPortContract env w.state msg
  | _ => True

/-- A step in which the client sends a message with SQL text, or none, or `Terminate`. -/
def CarriesSQLStep (w : Watched Session Unit) : Event → Prop
  | .downstream _ msg => w.next = .running → msg ≠ .terminate → msg.carriesSQL = true
  | _ => True

/-- A session of the read port never buffers a `BEGIN`. -/
def OnReadPort (w : Watched Session Unit) : Prop :=
  w.state.port = .read ∧ w.state.pendingBegin = none

/-- The empty text is a write. -/
theorem readPortKind_nil : readPortKind [] = .write :=
  congrArg Classifier.Class.kind classifyByKeyword_nil

/-- A message without SQL text has the empty text. -/
theorem sql_of_not_carriesSQL {msg : FrontendMessage} (h : msg.carriesSQL = false) : msg.sql = [] := by
  cases msg with
  | query string => cases h
  | parse name sql => cases h
  | _ => rfl

/-- A refused message is answered with the refusal. -/
theorem rejectOnReadPort_refuses (env : Env) (sql : Text) (s : Session) :
    RefusedOnReadPort (rejectOnReadPort env sql s).acts := by
  refine ⟨env.send (.errorResponse "ERROR" "25006" "[grunyas] write attempted on read port"), ?_⟩
  unfold rejectOnReadPort answerWithError sendErrorAndReady sendMessage
  cases env.flush <;> simp [Turn.andThen, Turn.log]

/-- Outside the compat port the upstream is held or acquired, or there is none. -/
theorem Prepares.of_not_compat {env : Env} {s : Session} {msg : FrontendMessage} {h : Handling}
    (hprep : Prepares env s msg h) (hport : s.port ≠ .compat) :
    (h.verdict = .forward ∧ h.sess.upstream ≠ none ∧
        (h.acts = [] ∨ ∃ conn, h.acts = [.acquire conn])) ∨
      ∃ err, h.verdict = .failed err ∧ h.acts = [] ∧ ¬UpstreamAvailable env s := by
  cases hprep with
  | held conn _ hup => exact .inl ⟨rfl, by simp [hup], .inl rfl⟩
  | acquired conn => exact .inl ⟨rfl, Option.some_ne_none _, .inr ⟨conn, rfl⟩⟩
  | refused err _ hup hfailed => exact .inr ⟨err, rfl, rfl, by simp [UpstreamAvailable, hup, hfailed]⟩
  | _ => exact absurd ‹s.port = .compat› hport

/-- A message that the read port does not refuse is forwarded if there is an upstream. -/
theorem Serves.of_not_refused {env : Env} {msg : FrontendMessage} {s : Session} {t : SessionTurn}
    (hserve : Serves env msg s t) (hport : s.port = .read) (hpending : s.pendingBegin = none)
    (hterm : msg ≠ .terminate) (href : readPortRefuses s msg = false) :
    ¬RefusedOnReadPort t.acts ∧ (UpstreamAvailable env s → ForwardedUpstream msg t.acts) := by
  have hcompat : s.port ≠ .compat := by simp [hport]
  have hbuffers : buffersBegin s msg = false := by
    cases msg <;> simp [buffersBegin, hport]
  cases hserve with
  | terminated h => exact absurd h hterm
  | refusedUnflushed h => simp [href] at h
  | refused h => simp [href] at h
  | bufferFailed acts h => simp [hbuffers] at h
  | buffered h => simp [hbuffers] at h
  | revokedUnflushed h err ref hprep _ hp => simp [hprep.frame.pendingBegin, hpending] at hp
  | revoked h err ref hprep _ hp => simp [hprep.frame.pendingBegin, hpending] at hp
  | closed h err hprep hfailed =>
    obtain ⟨hv, -⟩ | ⟨err', -, hacts, havail⟩ := hprep.of_not_compat hcompat
    · simp [hfailed] at hv
    · exact ⟨by simp [RefusedOnReadPort, hacts, fatalError, sendMessage], fun h => absurd h havail⟩
  | handled h hprep hhandled =>
    obtain ⟨hv, -⟩ | ⟨err, hv, -⟩ := hprep.of_not_compat hcompat <;> simp [hhandled] at hv
  | panicked h hprep hforward hnone =>
    obtain ⟨-, hup, -⟩ | ⟨err, hv, -⟩ := hprep.of_not_compat hcompat
    · exact absurd hnone hup
    · simp [hforward] at hv
  | forwarded h conn u hprep hforward hheld hfwd =>
    have hp : h.sess.pendingBegin = none := hprep.frame.pendingBegin.trans hpending
    obtain ⟨c, ok, hmem⟩ := hfwd.forwarded_iff.mpr fun hn => hn.1 hp
    refine ⟨?_, fun _ => ⟨c, ok, List.mem_append_right _ hmem⟩⟩
    rintro ⟨ok', hrefused⟩
    obtain hmem' | hmem' := List.mem_append.mp hrefused
    · obtain ⟨-, -, hacts | ⟨c, hacts⟩⟩ | ⟨err, hv, -⟩ := hprep.of_not_compat hcompat
      · simp [hacts] at hmem'
      · simp [hacts] at hmem'
      · simp [hforward] at hv
    · exact hfwd.send_not_mem hmem'

/-- The contract holds for a message exactly if the message carries SQL text. -/
theorem readPortContract_iff {env : Env} {s : Session} {msg : FrontendMessage}
    (hport : s.port = .read) (hpending : s.pendingBegin = none) (hterm : msg ≠ .terminate) :
    ReadPortContract env s msg ↔ msg.carriesSQL = true := by
  have hrefused : RefusedOnReadPort (turn s (.downstream env msg)).acts ↔
      RefusedOnReadPort (onDownstream env msg s).acts :=
    exists_congr fun _ => mem_turn_acts (by simp)
  have hforwarded : ForwardedUpstream msg (turn s (.downstream env msg)).acts ↔
      ForwardedUpstream msg (onDownstream env msg s).acts :=
    forwardedUpstream_turn s (.downstream env msg) msg
  obtain ⟨slot, hdecode⟩ := decodeMessage_eq s msg
  have hrefuses : readPortRefuses (decodeMessage s msg) msg = (readPortKind msg.sql == .write) := by
    simp [readPortRefuses, readPortKind, hdecode, hport]
  by_cases hwrite : readPortKind msg.sql = .write
  · have hacts : onDownstream env msg s = rejectOnReadPort env msg.sql (decodeMessage s msg) := by
      simp [onDownstream, serveMessage, hterm, hrefuses, hwrite]
    have h := rejectOnReadPort_refuses env msg.sql (decodeMessage s msg)
    simp only [ReadPortContract, hrefused, hacts, h, hwrite, and_true, true_iff]
    exact ⟨fun hc => hc.1, fun hc => ⟨hc, fun hn => absurd hc hn⟩⟩
  · have hserve : Serves env msg (decodeMessage s msg) (onDownstream env msg s) :=
      serve_serves s env msg
    have hsql : msg.carriesSQL = true := by
      by_contra hn
      rw [sql_of_not_carriesSQL (Bool.eq_false_iff.mpr hn)] at hwrite
      exact hwrite readPortKind_nil
    have hkept := hserve.of_not_refused (by simp [hdecode, hport]) (by simp [hdecode, hpending]) hterm
      (by simp [hrefuses, hwrite])
    have havail : UpstreamAvailable env (decodeMessage s msg) ↔ UpstreamAvailable env s := by
      rw [hdecode]
      exact Iff.rfl
    simp only [ReadPortContract, hrefused, hforwarded, hsql, hwrite, and_false, not_false_eq_true,
      forall_const, iff_false, ← havail]
    exact ⟨fun _ => trivial, fun _ => hkept⟩

/-- A session stays on the read port and buffers nothing. -/
theorem onReadPort_step (w : Watched Session Unit) (ev : Event) (hw : OnReadPort w) :
    OnReadPort (loopStep w ev) := by
  apply Watched.step_keeps OnReadPort hw
  intro _
  obtain ⟨hport, hpending⟩ := turn_port w.state ev
  exact ⟨hport.trans hw.1, hpending (by simp [hw.1]) hw.2⟩

/-- In every run on the read port the contract holds at every step exactly if every message the
client sends carries SQL text. -/
theorem readPort_enforced_iff (mode : PoolMode) (conn : ConnId) (windowMs : ℤ) (events : List Event) :
    Throughout loopStep ReadPortStep (Session.start .read mode conn windowMs).loop events ↔
      Throughout loopStep CarriesSQLStep (Session.start .read mode conn windowMs).loop events := by
  apply throughout_congr onReadPort_step
  · intro w ev hw
    cases ev with
    | downstream env msg =>
      exact forall_congr' fun _ => forall_congr' fun hterm => readPortContract_iff hw.1 hw.2 hterm
    | _ => exact Iff.rfl
  · exact ⟨rfl, rfl⟩

/-- The `Bind` of an extended-protocol read is refused. -/
theorem readPort_refuses_bind :
    let env := Env.steady 1 ⟨7, text "node-2", .replica⟩
    let s := (run loopStep (Session.start .read .transaction 0 0).loop
      [.downstream env (.parse [] (text "SELECT 1"))]).state
    RefusedOnReadPort (turn s (.downstream env (.bind [] []))).acts := by
  refine ⟨true, ?_⟩
  decide

end Grunyas.Server
