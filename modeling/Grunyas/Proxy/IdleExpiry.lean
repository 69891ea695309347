import Grunyas.Proxy.IdleSweeper
import Mathlib.Algebra.Order.Group.Int
import Mathlib.Algebra.Order.Monoid.Unbundled.MinMax

/-!
# Which sessions expire

The deadlines of the sweeper lag behind the activity of the sessions: a deadline is that of the tracking
of its session or of an activity that an earlier `_expire` has seen. It is never after the last activity
and the timeout, so that `_expire` looks at every session that may have expired, and it asks the session
itself before it gives it up. `expiry_exact` says which sessions it returns.
-/

namespace Grunyas.Proxy

open Machine Grunyas.Server

variable {Session : Type} [DecidableEq Session]

/-- The sweeper, with the time at which each session was tracked last and what the calls of `_expire`
have read of the activity of the sessions. -/
structure Watched (Session : Type) where
  sweeper : Sweeper Session
  trackedAt : Session → Time
  readings : List (Session → Time)

/-- The sweeper after a call. -/
def watchStep (w : Watched Session) (c : SweeperCall Session) : Watched Session where
  sweeper := w.sweeper.call c
  trackedAt :=
    match c with
    | .track now sess => Function.update w.trackedAt sess now
    | _ => w.trackedAt
  readings :=
    match c with
    | .expire _ lastActive => lastActive :: w.readings
    | _ => w.readings

/-- A new sweeper. -/
def watched (Session : Type) (timeout : Time) : Watched Session :=
  ⟨newIdleSweeper Session timeout, fun _ => 0, []⟩

/-- A session is tracked only if it is not tracked already, and no session becomes less active than an
earlier `_expire` has read. -/
def Watched.Admits (w : Watched Session) (c : SweeperCall Session) : Prop :=
  c.TracksNew w.sweeper ∧ ∀ now lastActive, c = .expire now lastActive →
    ∀ reading ∈ w.readings, ∀ sess, reading sess ≤ lastActive sess

/-- Where a deadline comes from: the tracking of the session, or an activity that was read later. -/
structure DeadlineOf (timeout : Time) (w : Watched Session) (sess : Session) (deadline : Time) :
    Prop where
  tracked : w.trackedAt sess + timeout ≤ deadline
  read : deadline = w.trackedAt sess + timeout ∨ ∃ reading ∈ w.readings, deadline = reading sess + timeout

/-- What holds of the deadlines after any calls. -/
structure Deadlines (timeout : Time) (w : Watched Session) : Prop where
  consistent : w.sweeper.Consistent
  configured : w.sweeper.timeout = timeout
  origin : ∀ sess deadline, w.sweeper.deadlineOf sess = some deadline → DeadlineOf timeout w sess deadline

variable {timeout : Time} {w : Watched Session}

/-- A new sweeper has no deadlines. -/
theorem deadlines_watched (Session : Type) [DecidableEq Session] (timeout : Time) :
    Deadlines timeout (watched Session timeout) where
  consistent := Sweeper.consistent_new timeout
  configured := rfl
  origin _ _ h := by cases h

/-- The deadlines after `_expire`. -/
theorem Deadlines.deadlineOf_expireAt (h : Deadlines timeout w) (now : Time) (lastActive : Session → Time)
    (sess : Session) :
    (w.sweeper.expireAt now lastActive).1.deadlineOf sess =
      (w.sweeper.deadlineOf sess).bind (Sweeper.aged now timeout (lastActive sess)) := by
  rw [← h.configured]
  exact Sweeper.deadlineOf_expireLoop now lastActive _ _ [] h.consistent List.countP_le_length sess

/-- `Track` notes the deadline of the tracking. -/
theorem Deadlines.track (h : Deadlines timeout w) (htimeout : 0 < timeout) {now : Time} {sess : Session}
    {other : Session} {deadline : Time}
    (hdeadline : (w.sweeper.track now sess).deadlineOf other = some deadline) :
    DeadlineOf timeout (watchStep w (.track now sess)) other deadline := by
  rw [h.consistent.deadlineOf_track (h.configured ▸ htimeout), h.configured] at hdeadline
  have htracked : (watchStep w (.track now sess)).trackedAt other =
      if other = sess then now else w.trackedAt other := Function.update_apply ..
  split_ifs at hdeadline htracked with hother
  · obtain rfl := Option.some.inj hdeadline
    exact ⟨by rw [htracked], Or.inl (by rw [htracked])⟩
  · obtain ⟨hafter, hread⟩ := h.origin other deadline hdeadline
    rw [← htracked] at hafter hread
    exact ⟨hafter, hread⟩

/-- `_expire` notes the deadline of an activity, and only where the deadline before it has passed. -/
theorem Deadlines.expire (h : Deadlines timeout w) {now : Time} {lastActive : Session → Time}
    {sess : Session} {deadline : Time}
    (hdeadline : (w.sweeper.expireAt now lastActive).1.deadlineOf sess = some deadline) :
    DeadlineOf timeout (watchStep w (.expire now lastActive)) sess deadline := by
  rw [h.deadlineOf_expireAt] at hdeadline
  obtain ⟨old, hold, haged⟩ := Option.bind_eq_some_iff.mp hdeadline
  obtain ⟨hafter, hread⟩ := h.origin sess old hold
  by_cases hlater : now < old
  · rw [Sweeper.aged_of_lt hlater] at haged
    obtain rfl := Option.some.inj haged
    refine ⟨hafter, hread.imp_right ?_⟩
    rintro ⟨reading, hmem, hsame⟩
    exact ⟨reading, List.mem_cons_of_mem _ hmem, hsame⟩
  · by_cases hactive : now < lastActive sess + timeout
    · rw [Sweeper.aged_of_active hlater hactive] at haged
      obtain rfl := Option.some.inj haged
      refine ⟨hafter.trans ?_, Or.inr ⟨lastActive, List.mem_cons_self, rfl⟩⟩
      exact (not_lt.mp hlater).trans hactive.le
    · rw [Sweeper.aged_eq_none_iff.mpr ⟨not_lt.mp hlater, not_lt.mp hactive⟩] at haged
      cases haged

/-- Every call keeps the origins of the deadlines. -/
theorem Deadlines.step (h : Deadlines timeout w) (htimeout : 0 < timeout) {c : SweeperCall Session}
    (hc : w.Admits c) : Deadlines timeout (watchStep w c) where
  consistent := h.consistent.call hc.1
  configured := (h.consistent.timeout_call c).trans h.configured
  origin sess deadline hdeadline := by
    cases c with
    | track now tracked => exact h.track htimeout hdeadline
    | untrack gone =>
      have hkept := h.consistent.deadlineOf_untrack (h.configured ▸ htimeout) gone sess
      split_ifs at hkept
      · cases hkept.symm.trans hdeadline
      · obtain ⟨hafter, hread⟩ := h.origin sess deadline (hkept.symm.trans hdeadline)
        exact ⟨hafter, hread⟩
    | expire now lastActive => exact h.expire hdeadline

omit [DecidableEq Session] in
/-- A deadline is given up exactly if the timeout has passed since the tracking and the last activity. -/
theorem DeadlineOf.aged_eq_none_iff {sess : Session} {deadline : Time}
    (h : DeadlineOf timeout w sess deadline) {now : Time} {lastActive : Session → Time}
    (hlater : ∀ reading ∈ w.readings, reading sess ≤ lastActive sess) :
    Sweeper.aged now timeout (lastActive sess) deadline = none ↔
      max (w.trackedAt sess) (lastActive sess) + timeout ≤ now := by
  rw [Sweeper.aged_eq_none_iff, ← max_add_add_right, max_le_iff]
  rcases h.read with hdeadline | ⟨reading, hmem, hdeadline⟩
  · rw [hdeadline]
  · have hread : deadline ≤ lastActive sess + timeout :=
      hdeadline.trans_le (Int.add_le_add_right (hlater reading hmem) timeout)
    exact and_congr_left fun hactive => ⟨h.tracked.trans, fun _ => hread.trans hactive⟩

/-- For every timeout and all calls of the sweeper that track only sessions that are not tracked, with
readings of the activity that do not decrease: `_expire` ends by itself; it returns each session at most
once, and exactly the tracked ones for which the timeout has passed since they were tracked and since
they were active; exactly these are removed, and every other one keeps its deadline or has one that lies
ahead. -/
theorem expiry_exact (timeout : Time) (htimeout : 0 < timeout) (calls : List (SweeperCall Session))
    (hcalls : Throughout watchStep Watched.Admits (watched Session timeout) calls) (now : Time)
    (lastActive : Session → Time)
    (hexpire : (run watchStep (watched Session timeout) calls).Admits (.expire now lastActive)) :
    let w := run watchStep (watched Session timeout) calls
    let after := w.sweeper.expireAt now lastActive
    (∀ turns, w.sweeper.heap.length ≤ turns →
      Sweeper.expireLoop now lastActive turns w.sweeper [] = after) ∧
    after.1.due now = 0 ∧ after.2.Nodup ∧
    (∀ sess, sess ∈ after.2 ↔
      sess ∈ w.sweeper.entries ∧ max (w.trackedAt sess) (lastActive sess) + timeout ≤ now) ∧
    (∀ sess, sess ∈ after.1.entries ↔ sess ∈ w.sweeper.entries ∧ sess ∉ after.2) ∧
    ∀ sess ∈ after.1.entries, ∃ deadline, after.1.deadlineOf sess = some deadline ∧
      (now < deadline ∨ w.sweeper.deadlineOf sess = some deadline) := by
  intro w after
  have hw : Deadlines timeout w :=
    run_invariant (fun w c h hc => h.step htimeout hc) (deadlines_watched Session timeout) hcalls
  have hlater (sess : Session) : ∀ reading ∈ w.readings, reading sess ≤ lastActive sess :=
    fun reading hmem => hexpire.2 now lastActive rfl reading hmem sess
  have hdue : w.sweeper.due now ≤ w.sweeper.heap.length := List.countP_le_length
  have hconsistent : after.1.Consistent := hw.consistent.expireAt now lastActive
  have hdeadline := hw.deadlineOf_expireAt now lastActive
  obtain ⟨gone, hgone, hnodup, hmem⟩ :=
    Sweeper.expired_expireLoop now lastActive _ w.sweeper [] hw.consistent hdue
  obtain rfl : after.2 = gone := hgone
  simp only [Sweeper.GivenUp, hw.configured] at hmem
  have hexpired (sess : Session) : sess ∈ after.2 ↔
      sess ∈ w.sweeper.entries ∧ max (w.trackedAt sess) (lastActive sess) + timeout ≤ now := by
    rw [hmem, hw.consistent.mem_entries_iff, exists_and_right.symm]
    refine exists_congr fun deadline => and_congr_right fun hold => ?_
    exact (hw.origin sess deadline hold).aged_eq_none_iff (hlater sess)
  refine ⟨?_, hw.consistent.due_expireAt now lastActive, hnodup, hexpired, ?_, ?_⟩
  · intro turns hturns
    exact Sweeper.expireLoop_eq_of_le now lastActive hturns w.sweeper [] hw.consistent hdue
  · intro sess
    rw [hconsistent.mem_entries_iff, hw.consistent.mem_entries_iff, hmem]
    change (∃ deadline, (w.sweeper.expireAt now lastActive).1.deadlineOf sess = _) ↔ _
    rw [hdeadline]
    cases w.sweeper.deadlineOf sess with
    | none => simp
    | some old => simp [Option.ne_none_iff_exists']
  · intro sess hsess
    obtain ⟨deadline, hnew⟩ := (hconsistent.mem_entries_iff sess).mp hsess
    exact ⟨deadline, hnew, Or.inl (hconsistent.lt_of_due_eq_zero
      (hw.consistent.due_expireAt now lastActive) hnew)⟩

/-- The second of two sessions is active at a time, and the first one never. -/
def secondActive (time : Time) (sess : ℕ) : Time := if sess = 2 then time else 0

/-- Two sessions are tracked with a timeout of five; the second one, which is active twice, outlives the
first one. -/
theorem expiry_exact_two :
    let calls : List (SweeperCall ℕ) := [.track 3 1, .track 1 2, .expire 7 (secondActive 4)]
    let w := run watchStep (watched ℕ 5) calls
    w.sweeper.entries.lookup 1 = some 0 ∧
      ∀ sess, sess ∈ (w.sweeper.expireAt 9 (secondActive 6)).2 ↔
        sess ∈ w.sweeper.entries ∧ max (w.trackedAt sess) (secondActive 6 sess) + 5 ≤ 9 := by
  intro calls w
  have hcalls : Throughout watchStep Watched.Admits (watched ℕ 5) calls := by
    refine ⟨⟨by decide, fun _ _ h => ?_⟩, ⟨by decide, fun _ _ h => ?_⟩, ⟨trivial, fun _ _ _ _ h => ?_⟩,
      trivial⟩
    · cases h
    · cases h
    · cases h
  have hexpire : w.Admits (.expire 9 (secondActive 6)) := by
    refine ⟨trivial, ?_⟩
    rintro now lastActive ⟨⟩ reading hreading sess
    obtain rfl := List.mem_singleton.mp hreading
    unfold secondActive
    split_ifs <;> decide
  exact ⟨by decide, (expiry_exact 5 (by decide) calls hcalls 9 (secondActive 6) hexpire).2.2.2.1⟩

end Grunyas.Proxy
