import Grunyas.Proxy.Admission
import Grunyas.Proxy.IdleSweeper
import Grunyas.Proxy.Sharing

/-!
# The shutdown of the proxy

The accept loop of `Run`, the handler of every accepted connection, the goroutines of every session, the
idle sweeper, and `Shutdown`. A handler is started after the wait group has counted it, lists its
session, runs it and cleans up when its `Run` has returned. `Shutdown` closes the listener, calls `Close`
of every session in the map, and waits until the wait group is empty or its context ends.

A session exists from the start of its handler; its `Run` takes no step before the handler runs it, and
never if the connection is refused. The goroutines that `Shutdown` and the sweeper start to close a
session are among its closers.

This is the proxy of one port. `main` starts one for every port and gives all of them the same topology,
and with it the same pools. A connection that is lent to another port is neither free nor lent here: that
a session of another port takes it is `closes`, and that it gives it back is `opens`. What is lent are the
connections of this port's sessions.

When `Shutdown` has returned without an error nothing is left of the connections that were counted: their
sessions have returned and hold no upstream, and neither the map nor the sweeper has them. At most one
connection can be served afterwards, one that was accepted before the listener was closed
(`shutdown_drained`). The handlers call the sweeper as it expects to be called
(`sweeper_tracks_handled`).
-/

namespace Grunyas.Proxy

open GoText Machine Server

/-- Where the accept loop is. -/
inductive AcceptPc where
  | waiting
  | accepted
  | ended
  deriving DecidableEq, Repr

/-- Where `Shutdown` is; `drained` has the number of handlers started when the wait ended. -/
inductive ShutdownPc where
  | idle
  | closing
  | listing
  | waiting
  | drained (started : ℕ)
  | expired
  deriving DecidableEq, Repr

/-- The proxy of one port, with the pools of the nodes. `asked` are the sessions that `Shutdown` is going
to close. -/
structure Service {backend : ConnId → Text} {maxConns : Text → ℕ} (lib : Lender backend maxConns) where
  conns : Connections
  idle : Sweeper ℕ
  fleet : Fleet lib
  accept : AcceptPc
  lnClosed : Bool
  ctxDone : Bool
  sweeping : Bool
  shutdown : ShutdownPc
  asked : Finset ℕ

/-- One step of one of its goroutines. -/
inductive ServiceStep where
  | connects
  | acceptFails
  | spawn
  | handler (i : ℕ) (now : Time)
  | session (i : ℕ) (step : GoStep) (keep : Bool)
  | opens (conn : ConnId)
  | closes (conn : ConnId)
  | sweeps (now : Time) (lastActive : ℕ → Time)
  | sweeperLeaves
  | cancels
  | watcherCloses
  | shutdownCalled
  | closesListener
  | lists
  | asks (i : ℕ)
  | drains
  | expires

/-- The steps that `Run` of a session takes. -/
def isRun : GoStep → Bool
  | .clientReceives _ _ => false
  | .clientFails => false
  | .clientLeaves => false
  | .leaseReceives _ _ => false
  | .leaseFails _ => false
  | .leaseLeaves _ => false
  | .serverCancels => false
  | .callsClose => false
  | .closer _ => false
  | _ => true

/-- The handler has returned. -/
def Phase.finished : Phase → Bool
  | .refused => true
  | .done => true
  | _ => false

namespace Service

variable {backend : ConnId → Text} {maxConns : Text → ℕ} {lib : Lender backend maxConns}

section Step

variable (port : Port) (cfg : ServerConfig) (maxSessions : ℤ) (s : Service lib)

/-- One step of a handler. It stays in `running` until `Run` of its session has returned. -/
def handlerStep (i : ℕ) (now : Time) : Option (Service lib) :=
  let moved : Service lib := { s with conns := turn maxSessions s.conns (.next i) }
  match s.conns.handlers[i]? with
  | none => none
  | some .refused => none
  | some .done => none
  | some .running => if s.fleet.sessions[i]?.any fun n => n.run = .returned then some moved else none
  | some .tracking => some { moved with idle := s.idle.track now i }
  | some .untracking => some { moved with idle := s.idle.untrack i }
  | some _ => some moved

/-- `Run` of a session takes steps while its handler runs it, and the session's context ends with the
proxy's. -/
def mayStep (i : ℕ) : GoStep → Bool
  | .serverCancels => s.ctxDone
  | step => isRun step → s.conns.handlers[i]? = some .running

/-- One step of the proxy, if it is enabled. -/
def serviceStep : ServiceStep → Option (Service lib)
  | .connects =>
    if s.accept = .waiting ∧ ¬s.lnClosed then some { s with accept := .accepted } else none
  | .acceptFails =>
    if s.accept = .waiting then some (if s.ctxDone then { s with accept := .ended } else s) else none
  | .spawn =>
    if s.accept = .accepted then
      (s.fleet.fleetStep (.connects port cfg)).map fun fleet =>
        { s with conns := turn maxSessions s.conns .accept, fleet := fleet, accept := .waiting }
    else none
  | .handler i now => s.handlerStep maxSessions i now
  | .session i step keep =>
    if s.mayStep i step then
      (s.fleet.fleetStep (.session i step keep)).map fun fleet => { s with fleet := fleet }
    else none
  | .opens conn => (s.fleet.fleetStep (.opens conn)).map fun fleet => { s with fleet := fleet }
  | .closes conn => (s.fleet.fleetStep (.closes conn)).map fun fleet => { s with fleet := fleet }
  | .sweeps now lastActive =>
    if s.sweeping then some { s with idle := (s.idle.expire now lastActive).1 } else none
  | .sweeperLeaves =>
    if s.sweeping ∧ s.ctxDone then some { s with sweeping := false } else none
  | .cancels => some { s with ctxDone := true }
  | .watcherCloses => if s.ctxDone then some { s with lnClosed := true } else none
  | .shutdownCalled => if s.shutdown = .idle then some { s with shutdown := .closing } else none
  | .closesListener =>
    if s.shutdown = .closing then some { s with lnClosed := true, shutdown := .listing } else none
  | .lists =>
    if s.shutdown = .listing then
      some { s with asked := s.conns.sessions, shutdown := .waiting }
    else none
  | .asks i =>
    if i ∈ s.asked then
      (s.fleet.fleetStep (.session i .callsClose true)).map fun fleet =>
        { s with fleet := fleet, asked := s.asked.erase i }
    else none
  | .drains =>
    if s.shutdown = .waiting ∧ s.conns.handlers.all Phase.finished then
      some { s with shutdown := .drained s.conns.handlers.length }
    else none
  | .expires =>
    if s.shutdown = .closing ∨ s.shutdown = .waiting then some { s with shutdown := .expired } else none

end Step

/-- The proxy when its listener is open. -/
def start (timeout : Time) : Service lib where
  conns := {}
  idle := newIdleSweeper ℕ timeout
  fleet := .start
  accept := .waiting
  lnClosed := false
  ctxDone := false
  sweeping := true
  shutdown := .idle
  asked := ∅

end Service

/-- What a step of a handler can lead to. -/
inductive Follows : Phase → Phase → Prop
  | unlimited : Follows .checking .tracking
  | limited : Follows .checking .loading
  | full : Follows .loading .refused
  | loaded (cur : ℤ) : Follows .loading (.swapping cur)
  | swapped (cur : ℤ) : Follows (.swapping cur) .tracking
  | lost (cur : ℤ) : Follows (.swapping cur) .loading
  | tracked : Follows .tracking .listing
  | listed : Follows .listing .counting
  | counted : Follows .counting .running
  | returned : Follows .running .unlisting
  | unlisted : Follows .unlisting .untracking
  | untracked : Follows .untracking .decrementing
  | cleaned : Follows .decrementing .done

/-- A step of a handler that has not returned. -/
theorem handle_follows (maxSessions : ℤ) (s : Connections) (i : ℕ) {phase : Phase}
    (h : phase.finished = false) : ∃ next, Follows phase next ∧
      (handle maxSessions s i phase).handlers = s.handlers.set i next := by
  cases phase with
  | checking =>
    rw [handle]
    split_ifs
    · exact ⟨_, .unlimited, rfl⟩
    · exact ⟨_, .limited, rfl⟩
  | loading =>
    rw [handle]
    split_ifs
    · exact ⟨_, .full, rfl⟩
    · exact ⟨_, .loaded _, rfl⟩
  | swapping cur =>
    rw [handle]
    split_ifs
    · exact ⟨_, .swapped cur, rfl⟩
    · exact ⟨_, .lost cur, rfl⟩
  | tracking => exact ⟨_, .tracked, rfl⟩
  | listing => exact ⟨_, .listed, rfl⟩
  | counting => exact ⟨_, .counted, rfl⟩
  | running => exact ⟨_, .returned, rfl⟩
  | unlisting => exact ⟨_, .unlisted, rfl⟩
  | untracking => exact ⟨_, .untracked, rfl⟩
  | decrementing => exact ⟨_, .cleaned, rfl⟩
  | refused => cases h
  | done => cases h

/-- `Run` of the session has not been called, and no goroutine has been started. -/
structure Dormant (n : Goroutines) : Prop where
  run : n.run = .startup
  client : n.client = none
  leases : n.leases = []
  upstream : n.sess.upstream = none

/-- What the phase of a handler says about its session. -/
def Phase.Agrees : Phase → Goroutines → Prop
  | .running, _ => True
  | .unlisting, n => n.run = .returned
  | .untracking, n => n.run = .returned
  | .decrementing, n => n.run = .returned
  | .done, n => n.run = .returned
  | _, n => Dormant n

/-- The session of the handler may be in the sweeper. -/
def Phase.mayBeTracked : Phase → Bool
  | .listing => true
  | .counting => true
  | .running => true
  | .unlisting => true
  | .untracking => true
  | _ => false

/-- A step of a session that is none of its `Run` leaves `Run` where it is, and starts no goroutine and
acquires nothing. -/
theorem goStep_of_not_isRun {n m : Goroutines} {l : GoStep} (hl : isRun l = false)
    (hstep : n.goStep l = some m) :
    m.run = n.run ∧ m.sess = n.sess ∧ (n.client = none → m.client = none) ∧
      m.leases.length = n.leases.length := by
  cases l with
  | clientReceives msg buffered =>
    simp only [Goroutines.goStep] at hstep
    split_ifs at hstep with hclient <;> cases hstep <;>
      exact ⟨rfl, rfl, fun hnone => by simp [hnone] at hclient, rfl⟩
  | clientFails =>
    simp only [Goroutines.goStep] at hstep
    split_ifs at hstep with hclient
    cases hstep
    exact ⟨rfl, rfl, fun hnone => by simp [hnone] at hclient, rfl⟩
  | clientLeaves =>
    simp only [Goroutines.goStep] at hstep
    split_ifs at hstep with hleaves
    cases hstep
    exact ⟨rfl, rfl, fun hnone => by simp [hnone] at hleaves, rfl⟩
  | leaseReceives lease msg =>
    simp only [Goroutines.goStep] at hstep
    split at hstep <;> cases hstep
    exact ⟨rfl, rfl, id, List.length_set⟩
  | leaseFails lease =>
    simp only [Goroutines.goStep] at hstep
    split at hstep <;> cases hstep
    exact ⟨rfl, rfl, id, List.length_set⟩
  | leaseLeaves lease =>
    simp only [Goroutines.goStep] at hstep
    split at hstep
    · split_ifs at hstep
      cases hstep
      exact ⟨rfl, rfl, id, List.length_set⟩
    · cases hstep
  | serverCancels =>
    simp only [Goroutines.goStep] at hstep
    split_ifs at hstep
    cases hstep
    exact ⟨rfl, rfl, id, List.length_map _⟩
  | callsClose =>
    cases hstep
    exact ⟨rfl, rfl, id, rfl⟩
  | closer i =>
    simp only [Goroutines.goStep, Option.map_eq_some_iff, Option.bind_eq_some_iff] at hstep
    obtain ⟨r, ⟨pc, -, hr⟩, rfl⟩ := hstep
    unfold Goroutines.closeStep at hr
    split at hr
    · split at hr <;> cases hr <;> exact ⟨rfl, rfl, id, rfl⟩
    · cases hr
      exact ⟨rfl, rfl, id, rfl⟩
    · cases hr
      exact ⟨rfl, rfl, id, List.length_map _⟩
    · cases hr
      exact ⟨rfl, rfl, id, rfl⟩
    · split_ifs at hr <;> cases hr <;> exact ⟨rfl, rfl, id, rfl⟩
    · split_ifs at hr
      cases hr
      exact ⟨rfl, rfl, id, rfl⟩
    · cases hr
  | _ => cases hl

/-- `Run` takes no step after it has returned. -/
theorem goStep_of_returned {n m : Goroutines} {l : GoStep} (hrun : n.run = .returned)
    (hstep : n.goStep l = some m) : m.run = .returned := by
  cases hl : isRun l with
  | false => exact (goStep_of_not_isRun hl hstep).1.trans hrun
  | true => cases l <;> simp_all [isRun, Goroutines.goStep]

/-- A session whose `Run` has not been called stays so if `Run` takes no step. -/
theorem Dormant.step {n m : Goroutines} (h : Dormant n) {l : GoStep} (hl : isRun l = false)
    (hstep : n.goStep l = some m) : Dormant m := by
  obtain ⟨hrun, hsess, hclient, hlength⟩ := goStep_of_not_isRun hl hstep
  refine ⟨hrun.trans h.run, hclient h.client, ?_, by rw [hsess]; exact h.upstream⟩
  rw [h.leases, List.length_nil] at hlength
  exact List.eq_nil_of_length_eq_zero hlength

/-- A step of a session keeps what the phase of its handler says about it. -/
theorem Phase.Agrees.step {phase : Phase} {n m : Goroutines} (h : phase.Agrees n) {l : GoStep}
    (hl : isRun l → phase = .running) (hstep : n.goStep l = some m) : phase.Agrees m := by
  have hdormant (hn : Dormant n) (hother : phase ≠ .running) : Dormant m := by
    refine hn.step ?_ hstep
    rw [← Bool.not_eq_true]
    exact fun hrun => hother (hl hrun)
  cases phase with
  | running => trivial
  | unlisting => exact goStep_of_returned h hstep
  | untracking => exact goStep_of_returned h hstep
  | decrementing => exact goStep_of_returned h hstep
  | done => exact goStep_of_returned h hstep
  | _ => exact hdormant h (by simp)

/-- A step of a handler keeps what its phase says about its session, if the session it runs has
returned. -/
theorem Follows.agrees {phase next : Phase} (hfollows : Follows phase next) {n : Goroutines}
    (h : phase.Agrees n) (hreturned : phase = .running → n.run = .returned) : next.Agrees n := by
  cases hfollows with
  | counted => trivial
  | returned => exact hreturned rfl
  | _ => exact h

/-- The sessions that the sweeper has after `Track`. -/
theorem mem_track {w : Sweeper ℕ} (h : w.Consistent) {i : ℕ} (hnew : i ∉ w.entries) (now : Time) {j : ℕ}
    (hj : j ∈ (w.track now i).entries) : j = i ∧ 0 < w.timeout ∨ j ∈ w.entries := by
  rcases le_or_gt w.timeout 0 with htimeout | htimeout
  · rw [Sweeper.track, if_pos htimeout] at hj
    exact .inr hj
  · have hconsistent := h.track now (Finmap.lookup_eq_none.mpr hnew)
    obtain ⟨deadline, hdeadline⟩ := (hconsistent.mem_entries_iff j).mp hj
    rw [h.deadlineOf_track htimeout] at hdeadline
    split_ifs at hdeadline with hsame
    · exact .inl ⟨hsame, htimeout⟩
    · exact .inr ((h.mem_entries_iff j).mpr ⟨deadline, hdeadline⟩)

/-- The sessions that the sweeper has after `Untrack`. -/
theorem mem_untrack {w : Sweeper ℕ} (h : w.Consistent) (htimeout : 0 < w.timeout) {i j : ℕ}
    (hj : j ∈ (w.untrack i).entries) : j ∈ w.entries ∧ j ≠ i := by
  obtain ⟨deadline, hdeadline⟩ := ((h.untrack i).mem_entries_iff j).mp hj
  rw [h.deadlineOf_untrack htimeout] at hdeadline
  split_ifs at hdeadline with hsame
  exact ⟨(h.mem_entries_iff j).mpr ⟨deadline, hdeadline⟩, hsame⟩

/-- The sessions that the sweeper has after `_expire`. -/
theorem mem_expireAt {w : Sweeper ℕ} (h : w.Consistent) {now : Time} {lastActive : ℕ → Time} {j : ℕ}
    (hj : j ∈ (w.expireAt now lastActive).1.entries) : j ∈ w.entries := by
  obtain ⟨deadline, hdeadline⟩ := ((h.expireAt now lastActive).mem_entries_iff j).mp hj
  rw [Sweeper.expireAt,
    Sweeper.deadlineOf_expireLoop now lastActive _ _ [] h List.countP_le_length] at hdeadline
  obtain ⟨old, hold, -⟩ := Option.bind_eq_some_iff.mp hdeadline
  exact (h.mem_entries_iff j).mpr ⟨old, hold⟩

namespace Service

variable {backend : ConnId → Text} {maxConns : Text → ℕ} {lib : Lender backend maxConns}

/-- What holds of the proxy whatever happens. -/
structure Sound (maxSessions : ℤ) (s : Service lib) : Prop where
  fleet : s.fleet.Sound
  conns : ∃ moves, s.conns = run (turn maxSessions) {} moves
  sized : s.fleet.sessions.length = s.conns.handlers.length
  agrees : ∀ (i : ℕ) phase n, s.conns.handlers[i]? = some phase → s.fleet.sessions[i]? = some n →
    phase.Agrees n
  idle : s.idle.Consistent
  tracked : ∀ i ∈ s.idle.entries, 0 < s.idle.timeout ∧
    ∃ phase, s.conns.handlers[i]? = some phase ∧ phase.mayBeTracked
  closed : s.shutdown ≠ .idle → s.shutdown ≠ .closing → s.shutdown ≠ .expired → s.lnClosed
  drained : ∀ k, s.shutdown = .drained k → k ≤ s.conns.handlers.length ∧
    s.conns.handlers.length + (if s.accept = .accepted then 1 else 0) ≤ k + 1 ∧
    ∀ i < k, ∀ phase, s.conns.handlers[i]? = some phase → phase.finished

variable {maxSessions : ℤ} {s t : Service lib}

/-- The flags of the accept loop and of `Shutdown` change. -/
theorem Sound.flags (h : Sound maxSessions s) (hconns : t.conns = s.conns) (hidle : t.idle = s.idle)
    (hfleet : t.fleet = s.fleet)
    (hclosed : t.shutdown ≠ .idle → t.shutdown ≠ .closing → t.shutdown ≠ .expired → t.lnClosed)
    (hdrained : ∀ k, t.shutdown = .drained k → k ≤ s.conns.handlers.length ∧
      s.conns.handlers.length + (if t.accept = .accepted then 1 else 0) ≤ k + 1 ∧
      ∀ i < k, ∀ phase, s.conns.handlers[i]? = some phase → phase.finished) :
    Sound maxSessions t := by
  refine ⟨?_, ?_, ?_, ?_, ?_, ?_, hclosed, ?_⟩
  · rw [hfleet]
    exact h.fleet
  · rw [hconns]
    exact h.conns
  · rw [hfleet, hconns]
    exact h.sized
  · rw [hfleet, hconns]
    exact h.agrees
  · rw [hidle]
    exact h.idle
  · rw [hidle, hconns]
    exact h.tracked
  · rw [hconns]
    exact hdrained

/-- A handler takes a step. -/
theorem Sound.handler (h : Sound maxSessions s) {i : ℕ} {phase : Phase}
    (hi : s.conns.handlers[i]? = some phase) (hopen : phase.finished = false)
    (hreturned : phase = .running → ∀ n, s.fleet.sessions[i]? = some n → n.run = .returned)
    {idle : Sweeper ℕ} (hidle : idle.Consistent)
    (htracked : ∀ next, Follows phase next → ∀ j ∈ idle.entries, 0 < idle.timeout ∧
      ((j = i ∧ next.mayBeTracked) ∨
        (j ≠ i ∧ ∃ other, s.conns.handlers[j]? = some other ∧ other.mayBeTracked))) :
    Sound maxSessions { s with conns := turn maxSessions s.conns (.next i), idle := idle } := by
  obtain ⟨next, hfollows, hset⟩ := handle_follows maxSessions s.conns i hopen
  have hturn : (turn maxSessions s.conns (.next i)).handlers = s.conns.handlers.set i next := by
    rw [turn, hi]
    exact hset
  have hget (j : ℕ) := getElem?_set_of_getElem? hi next j
  refine ⟨h.fleet, ?_, ?_, ?_, hidle, ?_, h.closed, ?_⟩
  · obtain ⟨moves, hmoves⟩ := h.conns
    refine ⟨moves ++ [.next i], ?_⟩
    rw [run_append, ← hmoves]
    rfl
  · simp only [hturn, List.length_set]
    exact h.sized
  · intro j other n hj hn
    simp only [hturn, hget j] at hj
    split_ifs at hj with hsame
    · cases hj
      subst hsame
      exact hfollows.agrees (h.agrees j phase n hi hn) fun hrun => hreturned hrun n hn
    · exact h.agrees j other n hj hn
  · intro j hj
    obtain ⟨htimeout, hphase⟩ := htracked next hfollows j hj
    refine ⟨htimeout, ?_⟩
    simp only [hturn, hget j]
    obtain ⟨rfl, hnext⟩ | ⟨hne, other, hother, hmay⟩ := hphase
    · exact ⟨next, if_pos rfl, hnext⟩
    · exact ⟨other, by rw [if_neg hne]; exact hother, hmay⟩
  · intro k hk
    obtain ⟨hle, hpending, hfinished⟩ := h.drained k hk
    simp only [hturn, List.length_set]
    refine ⟨hle, hpending, ?_⟩
    intro j hj other hother
    rw [hget j] at hother
    split_ifs at hother with hsame
    · -- a handler that has returned takes no step
      subst hsame
      rw [hfinished j hj phase hi] at hopen
      cases hopen
    · exact hfinished j hj other hother

/-- A session takes a step. -/
theorem Sound.session (h : Sound maxSessions s) {i : ℕ} {step : GoStep} {keep : Bool}
    (hrun : isRun step → s.conns.handlers[i]? = some .running) {fleet : Fleet lib}
    (hstep : s.fleet.fleetStep (.session i step keep) = some fleet) {asked : Finset ℕ} :
    Sound maxSessions { s with fleet := fleet, asked := asked } := by
  have hsound := Fleet.sound_fleetStep _ h.fleet hstep
  simp only [Fleet.fleetStep, Option.bind_eq_some_iff, Option.map_eq_some_iff] at hstep
  obtain ⟨n, hn, m, hm, pool, -, rfl⟩ := hstep
  refine ⟨hsound, h.conns, ?_, ?_, h.idle, h.tracked, h.closed, h.drained⟩
  · simp only [List.length_set]
    exact h.sized
  · intro j phase other hj hother
    simp only [getElem?_set_of_getElem? hn] at hother
    split_ifs at hother with hsame
    · cases hother
      subst hsame
      refine (h.agrees j phase n hj hn).step (fun hl => ?_) hm
      exact Option.some.inj (hj.symm.trans (hrun hl))
    · exact h.agrees j phase other hj hother

/-- A pool opens or closes an idle connection. -/
theorem Sound.pool (h : Sound maxSessions s) {fleet : Fleet lib} (hsound : fleet.Sound)
    (hsame : fleet.sessions = s.fleet.sessions) : Sound maxSessions { s with fleet := fleet } := by
  refine ⟨hsound, h.conns, ?_, ?_, h.idle, h.tracked, h.closed, h.drained⟩
  · simp only [hsame]
    exact h.sized
  · simp only [hsame]
    exact h.agrees

/-- A handler and its session are started. -/
theorem Sound.spawn (h : Sound maxSessions s) (port : Port) (cfg : ServerConfig)
    (haccepted : s.accept = .accepted) {fleet : Fleet lib}
    (hstep : s.fleet.fleetStep (.connects port cfg) = some fleet) :
    Sound maxSessions
      { s with conns := turn maxSessions s.conns .accept, fleet := fleet, accept := .waiting } := by
  have hsound := Fleet.sound_fleetStep _ h.fleet hstep
  cases hstep
  refine ⟨hsound, ?_, ?_, ?_, h.idle, ?_, h.closed, ?_⟩
  · obtain ⟨moves, hmoves⟩ := h.conns
    refine ⟨moves ++ [.accept], ?_⟩
    rw [run_append, ← hmoves]
    rfl
  · simp [turn, h.sized]
  · intro i phase n hi hn
    obtain hold | ⟨hlast, rfl⟩ := getElem?_concat_eq_some hi
    · obtain hsame | ⟨hlength, -⟩ := getElem?_concat_eq_some hn
      · exact h.agrees i phase n hold hsame
      · have hlt := (List.getElem?_eq_some_iff.mp hold).1
        have hsized := h.sized
        omega
    · obtain hsame | ⟨-, rfl⟩ := getElem?_concat_eq_some hn
      · have hlt := (List.getElem?_eq_some_iff.mp hsame).1
        have hsized := h.sized
        omega
      · exact ⟨rfl, rfl, rfl, rfl⟩
  · intro i hi
    obtain ⟨htimeout, phase, hphase, hmay⟩ := h.tracked i hi
    exact ⟨htimeout, phase, getElem?_concat_of_getElem? hphase _, hmay⟩
  · intro k hk
    obtain ⟨hle, hpending, hfinished⟩ := h.drained k hk
    rw [if_pos haccepted] at hpending
    simp only [turn, List.length_append, List.length_singleton, reduceCtorEq, if_false]
    refine ⟨by omega, by omega, ?_⟩
    intro i hi phase hphase
    obtain hold | ⟨hlast, -⟩ := getElem?_concat_eq_some hphase
    · exact hfinished i hi phase hold
    · omega

/-- A step of a handler that leaves the sweeper alone. -/
theorem Sound.moved (h : Sound maxSessions s) {i : ℕ} {phase : Phase}
    (hi : s.conns.handlers[i]? = some phase) (hopen : phase.finished = false)
    (hreturned : phase = .running → ∀ n, s.fleet.sessions[i]? = some n → n.run = .returned)
    (hmay : ∀ next, Follows phase next → phase.mayBeTracked → next.mayBeTracked) :
    Sound maxSessions { s with conns := turn maxSessions s.conns (.next i) } := by
  refine h.handler hi hopen hreturned h.idle ?_
  intro next hfollows j hj
  obtain ⟨htimeout, other, hother, htracked⟩ := h.tracked j hj
  refine ⟨htimeout, ?_⟩
  by_cases hsame : j = i
  · subst hsame
    obtain rfl := Option.some.inj (hi.symm.trans hother)
    exact .inl ⟨rfl, hmay next hfollows htracked⟩
  · exact .inr ⟨hsame, other, hother, htracked⟩

/-- Every step of a handler keeps what holds. -/
theorem Sound.handlerStep (h : Sound maxSessions s) {i : ℕ} {now : Time}
    (hstep : s.handlerStep maxSessions i now = some t) : Sound maxSessions t := by
  unfold Service.handlerStep at hstep
  dsimp only at hstep
  split at hstep
  · cases hstep
  · cases hstep
  · cases hstep
  · next hi =>
    split_ifs at hstep with hreturned
    cases hstep
    refine h.moved hi rfl (fun _ n hn => ?_) ?_
    · rw [hn] at hreturned
      simpa using hreturned
    · intro next hfollows _
      cases hfollows
      rfl
  · next hi =>
    cases hstep
    have hnew : i ∉ s.idle.entries := by
      intro hmem
      obtain ⟨-, phase, hphase, hmay⟩ := h.tracked i hmem
      obtain rfl := Option.some.inj (hi.symm.trans hphase)
      cases hmay
    refine h.handler hi rfl (fun hrun => by cases hrun)
      (h.idle.track now (Finmap.lookup_eq_none.mpr hnew)) ?_
    intro next hfollows j hj
    have htimeout : (s.idle.track now i).timeout = s.idle.timeout := h.idle.timeout_call (.track now i)
    rw [htimeout]
    cases hfollows
    obtain ⟨rfl, hpos⟩ | hold := mem_track h.idle hnew now hj
    · exact ⟨hpos, .inl ⟨rfl, rfl⟩⟩
    · obtain ⟨hpos, other, hother, hmay⟩ := h.tracked j hold
      exact ⟨hpos, .inr ⟨fun hsame => hnew (hsame ▸ hold), other, hother, hmay⟩⟩
  · next hi =>
    cases hstep
    refine h.handler hi rfl (fun hrun => by cases hrun) (h.idle.untrack i) ?_
    intro next hfollows j hj
    have htimeout : (s.idle.untrack i).timeout = s.idle.timeout := h.idle.timeout_call (.untrack i)
    rw [htimeout]
    by_cases hpos : 0 < s.idle.timeout
    · obtain ⟨hold, hne⟩ := mem_untrack h.idle hpos hj
      obtain ⟨-, other, hother, hmay⟩ := h.tracked j hold
      exact ⟨hpos, .inr ⟨hne, other, hother, hmay⟩⟩
    · rw [Sweeper.untrack, if_pos (not_lt.mp hpos)] at hj
      exact absurd (h.tracked j hj).1 hpos
  · next phase hrefused hdone hrunning htracking huntracking hi =>
    cases hstep
    refine h.moved hi ?_ (fun hrun => absurd hrun hrunning) ?_
    · cases phase <;> simp_all [Phase.finished]
    · intro next hfollows hmay
      cases hfollows <;> simp_all [Phase.mayBeTracked]

/-- The idle sweeper gives up some of its sessions. -/
theorem Sound.sweeps (h : Sound maxSessions s) (now : Time) (lastActive : ℕ → Time) :
    Sound maxSessions { s with idle := (s.idle.expire now lastActive).1 } := by
  unfold Sweeper.expire
  split_ifs
  · exact h
  · refine ⟨h.fleet, h.conns, h.sized, h.agrees, h.idle.expireAt now lastActive, ?_, h.closed, h.drained⟩
    intro i hi
    have htimeout : (s.idle.expireAt now lastActive).1.timeout = s.idle.timeout :=
      h.idle.timeout_call (.expire now lastActive)
    rw [htimeout]
    exact h.tracked i (mem_expireAt h.idle hi)

/-- `Run` takes no step of a session whose handler does not run it. -/
theorem running_of_mayStep {i : ℕ} {step : GoStep} (h : s.mayStep i step) (hrun : isRun step) :
    s.conns.handlers[i]? = some .running := by
  cases step <;> simp_all [mayStep, isRun]

/-- The wait group is empty. -/
theorem Sound.drains (h : Sound maxSessions s) (hwaiting : s.shutdown = .waiting)
    (hall : s.conns.handlers.all Phase.finished) :
    Sound maxSessions { s with shutdown := .drained s.conns.handlers.length } := by
  refine h.flags rfl rfl rfl (fun _ _ _ => h.closed ?_ ?_ ?_) ?_
  · simp [hwaiting]
  · simp [hwaiting]
  · simp [hwaiting]
  · intro k hk
    cases hk
    refine ⟨le_rfl, by dsimp only; split_ifs <;> omega, ?_⟩
    intro i _ phase hphase
    exact List.all_eq_true.mp hall phase (List.mem_of_getElem? hphase)

/-- Every step of the proxy keeps what holds. -/
theorem sound_serviceStep {port : Port} {cfg : ServerConfig} (l : ServiceStep) (h : Sound maxSessions s)
    (hstep : s.serviceStep port cfg maxSessions l = some t) : Sound maxSessions t := by
  cases l with
  | connects =>
    simp only [serviceStep] at hstep
    split_ifs at hstep with hopen
    cases hstep
    refine h.flags rfl rfl rfl h.closed ?_
    -- the listener is open, so no wait for the handlers has ended
    intro k hk
    have hshutdown : s.shutdown = .drained k := hk
    refine absurd (h.closed ?_ ?_ ?_) hopen.2 <;> simp [hshutdown]
  | acceptFails =>
    simp only [serviceStep] at hstep
    split_ifs at hstep with hwaiting <;> cases hstep
    · refine h.flags rfl rfl rfl h.closed ?_
      intro k hk
      have hdrained := h.drained k hk
      simpa [hwaiting] using hdrained
    · exact h
  | spawn =>
    simp only [serviceStep] at hstep
    split_ifs at hstep with haccepted
    obtain ⟨fleet, hfleet, rfl⟩ := Option.map_eq_some_iff.mp hstep
    exact h.spawn port cfg haccepted hfleet
  | handler i now => exact h.handlerStep hstep
  | session i step keep =>
    simp only [serviceStep] at hstep
    split_ifs at hstep with hmay
    obtain ⟨fleet, hfleet, rfl⟩ := Option.map_eq_some_iff.mp hstep
    exact h.session (running_of_mayStep hmay) hfleet
  | opens conn =>
    obtain ⟨fleet, hfleet, rfl⟩ := Option.map_eq_some_iff.mp hstep
    refine h.pool (Fleet.sound_fleetStep _ h.fleet hfleet) ?_
    obtain ⟨pool, -, rfl⟩ := Option.map_eq_some_iff.mp hfleet
    rfl
  | closes conn =>
    cases hstep
    exact h.pool (Fleet.sound_fleetStep (.closes conn) h.fleet rfl) rfl
  | sweeps now lastActive =>
    simp only [serviceStep] at hstep
    split_ifs at hstep
    cases hstep
    exact h.sweeps now lastActive
  | sweeperLeaves =>
    simp only [serviceStep] at hstep
    split_ifs at hstep
    cases hstep
    exact h.flags rfl rfl rfl h.closed h.drained
  | cancels =>
    cases hstep
    exact h.flags rfl rfl rfl h.closed h.drained
  | watcherCloses =>
    simp only [serviceStep] at hstep
    split_ifs at hstep
    cases hstep
    exact h.flags rfl rfl rfl (fun _ _ _ => rfl) h.drained
  | shutdownCalled =>
    simp only [serviceStep] at hstep
    split_ifs at hstep
    cases hstep
    exact h.flags rfl rfl rfl (by simp) (by simp)
  | closesListener =>
    simp only [serviceStep] at hstep
    split_ifs at hstep
    cases hstep
    exact h.flags rfl rfl rfl (fun _ _ _ => rfl) (by simp)
  | lists =>
    simp only [serviceStep] at hstep
    split_ifs at hstep with hlisting
    cases hstep
    refine h.flags rfl rfl rfl (fun _ _ _ => h.closed ?_ ?_ ?_) (by simp) <;> simp [hlisting]
  | asks i =>
    simp only [serviceStep] at hstep
    split_ifs at hstep
    obtain ⟨fleet, hfleet, rfl⟩ := Option.map_eq_some_iff.mp hstep
    exact h.session (fun hrun => by cases hrun) hfleet
  | drains =>
    simp only [serviceStep] at hstep
    split_ifs at hstep with hends
    cases hstep
    exact h.drains hends.1 hends.2
  | expires =>
    simp only [serviceStep] at hstep
    split_ifs at hstep
    cases hstep
    exact h.flags rfl rfl rfl (by simp) (by simp)

/-- The proxy is in order whatever happens. -/
theorem sound_of_service {port : Port} {cfg : ServerConfig} {timeout : Time} {labels : List ServiceStep}
    (hrun : exec (serviceStep port cfg maxSessions) (start timeout) labels = some s) :
    Sound maxSessions s := by
  refine exec_invariant (fun _ l _ h hstep => sound_serviceStep l h hstep) ?_ hrun
  refine ⟨?_, ⟨[], rfl⟩, rfl, ?_, Sweeper.consistent_new timeout, ?_, ?_, ?_⟩
  · exact ⟨fun _ hn => absurd hn List.not_mem_nil, List.Perm.of_eq lib.empty_lent⟩
  · intro i phase n hi
    simp [start] at hi
  · intro i hi
    exact absurd hi Finmap.notMem_empty
  · simp [start]
  · simp [start]

/-- Nothing is left of a session whose handler has returned. -/
theorem Sound.session_finished (h : Sound maxSessions s) {i : ℕ} {phase : Phase} {n : Goroutines}
    (hi : s.conns.handlers[i]? = some phase) (hfinished : phase.finished)
    (hn : s.fleet.sessions[i]? = some n) : n.loopsEnded ∧ n.held = [] ∧ n.acquired = n.givenBack := by
  have hsound := h.fleet.sessions n (List.mem_of_getElem? hn)
  have hagrees := h.agrees i phase n hi hn
  cases phase with
  | refused =>
    obtain ⟨hrun, hclient, hleases, hupstream⟩ := hagrees
    refine ⟨?_, ?_, ?_⟩
    · simp [Goroutines.loopsEnded, hclient, hleases]
    · simp [Goroutines.held, hrun, RunPc.handing, hupstream]
    · have hledger := hsound.leases.ledger
      simpa [Goroutines.leaseView, hrun, RunPc.handing, hupstream] using hledger
  | done =>
    have hreturned : n.run = .returned := hagrees
    obtain ⟨hloops, -, -, hupstream, hgiven⟩ := hsound.of_returned hreturned
    refine ⟨hloops, ?_, hgiven⟩
    simp [Goroutines.held, hreturned, RunPc.handing, hupstream]
  | _ => cases hfinished

/-- A handler that has returned has its session neither in the map nor in the sweeper. -/
theorem Sound.removed (h : Sound maxSessions s) {i : ℕ} {phase : Phase}
    (hi : s.conns.handlers[i]? = some phase) (hfinished : phase.finished) :
    i ∉ s.conns.sessions ∧ i ∉ s.idle.entries := by
  constructor
  · obtain ⟨moves, hmoves⟩ := h.conns
    have hlisted : s.conns.Listed := by
      rw [hmoves]
      exact listed_run maxSessions moves
    rw [hlisted i]
    intro hmem
    obtain ⟨other, hother, hin⟩ := hmem
    obtain rfl := Option.some.inj (hi.symm.trans hother)
    cases phase <;> simp_all [Phase.inMap, Phase.finished]
  · intro hmem
    obtain ⟨-, other, hother, hmay⟩ := h.tracked i hmem
    obtain rfl := Option.some.inj (hi.symm.trans hother)
    cases phase <;> simp_all [Phase.mayBeTracked, Phase.finished]

/-- When every handler has returned, nothing is lent and no session is counted. -/
theorem Sound.emptied (h : Sound maxSessions s) (hall : ∀ phase ∈ s.conns.handlers, phase.finished) :
    lib.lent s.fleet.pool = [] ∧ s.conns.sessions = ∅ ∧ (∀ i, i ∉ s.idle.entries) ∧
      (0 < maxSessions → s.conns.currentConnectionsCount = 0) := by
  have htracked (i : ℕ) : i ∉ s.idle.entries := by
    intro hmem
    obtain ⟨-, phase, hphase, -⟩ := h.tracked i hmem
    exact (h.removed hphase (hall phase (List.mem_of_getElem? hphase))).2 hmem
  obtain ⟨moves, hmoves⟩ := h.conns
  refine ⟨?_, ?_, htracked, ?_⟩
  · refine List.eq_nil_of_length_eq_zero ?_
    rw [h.fleet.lent.length_eq, List.length_eq_zero_iff, List.flatten_eq_nil_iff]
    intro held hheld
    obtain ⟨n, hn, rfl⟩ := List.mem_map.mp hheld
    obtain ⟨i, hi⟩ := List.mem_iff_getElem?.mp hn
    have hlt : i < s.conns.handlers.length := h.sized ▸ (List.getElem?_eq_some_iff.mp hi).1
    exact (h.session_finished (List.getElem?_eq_getElem hlt) (hall _ (List.getElem_mem hlt)) hi).2.1
  · refine Finset.eq_empty_of_forall_notMem fun i hmem => ?_
    have hlisted : s.conns.Listed := by
      rw [hmoves]
      exact listed_run maxSessions moves
    obtain ⟨phase, hphase, -⟩ := (hlisted i).mp hmem
    exact (h.removed hphase (hall phase (List.mem_of_getElem? hphase))).1 hmem
  · intro hmax
    have hlimited : Limited maxSessions s.conns := by
      rw [hmoves]
      exact limited_run hmax moves
    rw [hlimited.counted, Connections.live, Int.natCast_eq_zero, List.countP_eq_zero]
    intro phase hphase
    have hfinished := hall phase hphase
    cases phase <;> simp_all [Phase.holds, Phase.finished]

/-- When the wait of `Shutdown` has ended, whatever the interleaving and whatever happened since, every
handler that was started by then has returned: its session is neither in the map nor in the sweeper, no
goroutine of it is left and all its upstream connections are given back. At most one handler was started
since; if none was, no connection is lent, no session is listed or tracked and with a limit none is
counted. -/
theorem shutdown_drained (port : Port) (cfg : ServerConfig) (maxSessions : ℤ) (timeout : Time)
    (labels : List ServiceStep)
    (hrun : exec (serviceStep port cfg maxSessions) (start timeout) labels = some s) {k : ℕ}
    (hdrained : s.shutdown = .drained k) :
    (k ≤ s.conns.handlers.length ∧ s.conns.handlers.length ≤ k + 1) ∧
      (∀ i < k, i ∉ s.conns.sessions ∧ i ∉ s.idle.entries ∧ ∃ n, s.fleet.sessions[i]? = some n ∧
        n.loopsEnded ∧ n.held = [] ∧ n.acquired = n.givenBack) ∧
      (s.conns.handlers.length = k → lib.lent s.fleet.pool = [] ∧ s.conns.sessions = ∅ ∧
        (∀ i, i ∉ s.idle.entries) ∧ (0 < maxSessions → s.conns.currentConnectionsCount = 0)) := by
  have h := sound_of_service hrun
  obtain ⟨hle, hpending, hfinished⟩ := h.drained k hdrained
  refine ⟨⟨hle, le_trans (Nat.le_add_right _ _) hpending⟩, ?_, ?_⟩
  · intro i hi
    have hlt : i < s.conns.handlers.length := lt_of_lt_of_le hi hle
    have hphase := List.getElem?_eq_getElem hlt
    obtain ⟨hlisted, htracked⟩ := h.removed hphase (hfinished i hi _ hphase)
    have hsession := List.getElem?_eq_getElem (h.sized ▸ hlt : i < s.fleet.sessions.length)
    exact ⟨hlisted, htracked, _, hsession, h.session_finished hphase (hfinished i hi _ hphase) hsession⟩
  · intro hlength
    refine h.emptied fun phase hphase => ?_
    obtain ⟨i, hi⟩ := List.mem_iff_getElem?.mp hphase
    exact hfinished i (hlength ▸ (List.getElem?_eq_some_iff.mp hi).1) phase hi

/-- A session in session mode is served when `Shutdown` is called. It is in the map, and the call of its
`Close` ends it. -/
def drainedRun : List ServiceStep :=
  let served (steps : List GoStep) : List ServiceStep := steps.map fun step => .session 0 step true
  List.flatten [
    [.connects, .spawn], List.replicate 6 (.handler 0 0),
    served [.startUp ⟨.steady 0 ⟨7, [], .primary⟩, true, .ok (), true, true, false⟩, .greet true, .start],
    [.shutdownCalled, .closesListener, .lists, .asks 0],
    served [.closer 0, .closer 0, .closer 0, .closer 0, .closer 0, .takeDone, .exit, .leaseFails 0,
      .released, .clientFails, .closer 0, .runCloses],
    List.replicate 4 (.handler 0 0), [.drains]]

/-- The session has acquired a connection and given it back. -/
theorem shutdown_drained_one :
    ∃ s : Service (Pool.lender (fun _ => []) (fun _ => 1)),
      exec (serviceStep .write ⟨.session, none⟩ 1) (start 5) drainedRun = some s ∧
        s.fleet.sessions.map Goroutines.acquired = [[7]] ∧ s.fleet.pool.lent = [] ∧
        s.conns.currentConnectionsCount = 0 := by
  have hrun : (exec (serviceStep .write ⟨.session, none⟩ 1)
      (start 5 : Service (Pool.lender (fun _ => []) (fun _ => 1))) drainedRun).map (fun s =>
        (s.shutdown, s.conns.handlers.length, s.fleet.sessions.map Goroutines.acquired)) =
      some (.drained 1, 1, [[7]]) := by
    decide
  obtain ⟨s, hs, hends⟩ := Option.map_eq_some_iff.mp hrun
  obtain ⟨hshutdown, hrest⟩ := Prod.mk.inj hends
  obtain ⟨hlength, hacquired⟩ := Prod.mk.inj hrest
  obtain ⟨hlent, -, -, hcount⟩ := (shutdown_drained .write _ 1 5 drainedRun hs hshutdown).2.2 hlength
  exact ⟨s, hs, hacquired, hlent, hcount one_pos⟩

/-- In every run of the proxy each session is tracked once, so that the sweeper never panics, and it has
no session but those whose handlers are between tracking and untracking them. -/
theorem sweeper_tracks_handled (port : Port) (cfg : ServerConfig) (maxSessions : ℤ) (timeout : Time)
    (labels : List ServiceStep)
    (hrun : exec (serviceStep port cfg maxSessions) (start timeout) labels = some s) :
    s.idle.panicked = false ∧ s.idle.sessions.Nodup ∧
      ∀ i ∈ s.idle.sessions, ∃ phase, s.conns.handlers[i]? = some phase ∧ phase.mayBeTracked := by
  have h := sound_of_service hrun
  refine ⟨h.idle.running, h.idle.nodup_sessions, ?_⟩
  intro i hi
  rw [h.idle.mem_sessions] at hi
  exact (h.tracked i hi).2

/-- A session that is being served is tracked. -/
theorem sweeper_tracks_handled_one :
    ∃ s : Service (Pool.lender (fun _ => []) (fun _ => 1)),
      exec (serviceStep .write ⟨.session, none⟩ 1) (start 5) (drainedRun.take 11) = some s ∧
        s.idle.sessions = [0] ∧ ∃ phase, s.conns.handlers[0]? = some phase ∧ phase.mayBeTracked := by
  have hrun : (exec (serviceStep .write ⟨.session, none⟩ 1)
      (start 5 : Service (Pool.lender (fun _ => []) (fun _ => 1))) (drainedRun.take 11)).map
        (fun s => s.idle.sessions) = some [0] := by
    decide
  obtain ⟨s, hs, hsessions⟩ := Option.map_eq_some_iff.mp hrun
  refine ⟨s, hs, hsessions, (sweeper_tracks_handled .write _ 1 5 _ hs).2.2 0 ?_⟩
  rw [hsessions]
  exact List.mem_singleton.mpr rfl

end Service

end Grunyas.Proxy
