import Grunyas.Machine.Run
import Grunyas.Machine.Threads
import Mathlib.Data.Finset.Basic
import Mathlib.Tactic.Tauto

/-!
# The admission of connections

Every accepted connection is handled by a goroutine of its own. It is admitted by a loop that loads the
number of sessions and swaps in the next one, serves the session, and runs a deferred cleanup that
takes the session off the count. Without a limit the loop is skipped, and with it the increment, but
not the decrement of the cleanup: `count_exact_iff`.
-/

namespace Grunyas.Proxy

open Machine

/-- What the goroutine of a connection does next. `done` is a handler whose cleanup has run. -/
inductive Phase where
  | checking
  | loading
  | swapping (cur : ℤ)
  | refused
  | tracking
  | listing
  | counting
  | running
  | unlisting
  | untracking
  | decrementing
  | done
  deriving DecidableEq, Repr

/-- The connection is admitted and its cleanup has not run. -/
def Phase.holds : Phase → Bool
  | .tracking | .listing | .counting | .running | .unlisting | .untracking | .decrementing => true
  | _ => false

/-- The connection is admitted and its cleanup has run. -/
def Phase.cleaned : Phase → Bool
  | .done => true
  | _ => false

/-- The session is in the map of the proxy. -/
def Phase.inMap : Phase → Bool
  | .counting | .running | .unlisting => true
  | _ => false

/-- The counters and the map of the sessions, with one entry for every accepted connection. -/
structure Connections where
  currentConnectionsCount : ℤ := 0
  lifetimeConnectionsCount : ℕ := 0
  sessions : Finset ℕ := ∅
  handlers : List Phase := []
  deriving DecidableEq

/-- What happens next: a connection is accepted, or a goroutine takes its next step. -/
inductive Move where
  | accept
  | next (i : ℕ)
  deriving DecidableEq, Repr

/-- Let a goroutine go on with another step. -/
def Connections.goto (s : Connections) (i : ℕ) (phase : Phase) : Connections :=
  { s with handlers := s.handlers.set i phase }

/-- The atomic steps of `handleNewIncomingConnection`, with those of `canAcceptNewConnection` up to
`refused` and `tracking`. A running session ends when it wants to. The tracking of idle sessions is
left out. -/
def handle (maxSessions : ℤ) (s : Connections) (i : ℕ) : Phase → Connections
  | .checking => if maxSessions ≤ 0 then s.goto i .tracking else s.goto i .loading
  | .loading =>
    if maxSessions ≤ s.currentConnectionsCount then s.goto i .refused
    else s.goto i (.swapping s.currentConnectionsCount)
  | .swapping cur =>
    if s.currentConnectionsCount = cur then
      { s with currentConnectionsCount := cur + 1 }.goto i .tracking
    else s.goto i .loading
  | .tracking => s.goto i .listing
  | .listing => { s with sessions := insert i s.sessions }.goto i .counting
  | .counting =>
    { s with lifetimeConnectionsCount := s.lifetimeConnectionsCount + 1 }.goto i .running
  | .running => s.goto i .unlisting
  | .unlisting => { s with sessions := s.sessions.erase i }.goto i .untracking
  | .untracking => s.goto i .decrementing
  | .decrementing =>
    { s with currentConnectionsCount := s.currentConnectionsCount - 1 }.goto i .done
  | .refused => s
  | .done => s

/-- One step of the proxy. -/
def turn (maxSessions : ℤ) (s : Connections) : Move → Connections
  | .accept => { s with handlers := s.handlers ++ [.checking] }
  | .next i =>
    match s.handlers[i]? with
    | some phase => handle maxSessions s i phase
    | none => s

/-- The admitted sessions whose cleanup has not run. -/
def Connections.live (s : Connections) : ℕ := s.handlers.countP Phase.holds

/-- The sessions whose cleanup has run. -/
def Connections.ended (s : Connections) : ℕ := s.handlers.countP Phase.cleaned

/-- The sessions that were admitted. -/
def Connections.admitted (s : Connections) : ℕ := s.live + s.ended

/-- What holds with a limit: the count is exact and within the limit, and so is every value that is to
be swapped in. -/
structure Limited (maxSessions : ℤ) (s : Connections) : Prop where
  counted : s.currentConnectionsCount = s.live
  le : s.currentConnectionsCount ≤ maxSessions
  swaps : ∀ phase ∈ s.handlers, ∀ cur, phase = .swapping cur → cur < maxSessions

/-- What holds without a limit: nothing is counted but the ended sessions. -/
structure Unlimited (s : Connections) : Prop where
  count : s.currentConnectionsCount = -s.ended
  swaps : ∀ phase ∈ s.handlers, phase ≠ .loading ∧ ∀ cur, phase ≠ .swapping cur

variable {maxSessions : ℤ} {s : Connections} {i : ℕ} {old : Phase}

/-- A step of a goroutine keeps the count exact if it changes it by what the step changes. -/
theorem Limited.of_set (h : Limited maxSessions s) (hold : s.handlers[i]? = some old)
    {s' : Connections} {new : Phase} (hset : s'.handlers = s.handlers.set i new)
    (hcount : s'.currentConnectionsCount + old.holds.toNat =
      s.currentConnectionsCount + new.holds.toNat)
    (hle : s'.currentConnectionsCount ≤ maxSessions)
    (hswap : ∀ cur, new = .swapping cur → cur < maxSessions) : Limited maxSessions s' where
  counted := by
    have hlive := countP_set_add Phase.holds hold new
    have hcounted := h.counted
    simp only [Connections.live, hset] at hcounted ⊢
    omega
  le := hle
  swaps := by
    rw [hset]
    exact forall_mem_set h.swaps hswap

/-- The steps of a goroutine keep the count exact and within the limit. -/
theorem Limited.handle (h : Limited maxSessions s) (hmax : 0 < maxSessions)
    (hold : s.handlers[i]? = some old) : Limited maxSessions (handle maxSessions s i old) := by
  cases old with
  | checking =>
    rw [Proxy.handle, if_neg (not_le.mpr hmax)]
    exact h.of_set hold rfl rfl h.le (by simp)
  | loading =>
    rw [Proxy.handle]
    split_ifs with hfull
    · exact h.of_set hold rfl rfl h.le (by simp)
    · refine h.of_set hold rfl rfl h.le ?_
      intro cur hcur
      cases hcur
      exact not_le.mp hfull
  | swapping cur =>
    rw [Proxy.handle]
    split_ifs with hsame
    · -- the loaded value was below the limit, and it is still the count
      have hcur := h.swaps _ (List.mem_of_getElem? hold) cur rfl
      refine h.of_set hold rfl ?_ hcur (by simp)
      simp [Connections.goto, Phase.holds, hsame]
    · exact h.of_set hold rfl rfl h.le (by simp)
  | decrementing =>
    have hle := h.le
    refine h.of_set hold rfl ?_ ?_ (by simp)
    · simp [Proxy.handle, Connections.goto, Phase.holds]
    · simp only [Proxy.handle, Connections.goto]
      omega
  | refused => exact h
  | done => exact h
  | _ => exact h.of_set hold rfl rfl h.le (by simp)

/-- A step of a goroutine that does not enter the loop keeps the count of the ended sessions. -/
theorem Unlimited.of_set (h : Unlimited s) (hold : s.handlers[i]? = some old) {s' : Connections}
    {new : Phase} (hset : s'.handlers = s.handlers.set i new)
    (hcount : s'.currentConnectionsCount + new.cleaned.toNat =
      s.currentConnectionsCount + old.cleaned.toNat)
    (hswap : new ≠ .loading ∧ ∀ cur, new ≠ .swapping cur) : Unlimited s' where
  count := by
    have hended := countP_set_add Phase.cleaned hold new
    have hcounted := h.count
    simp only [Connections.ended, hset] at hcounted ⊢
    omega
  swaps := by
    rw [hset]
    exact forall_mem_set h.swaps hswap

/-- Without a limit the steps of a goroutine count the ended sessions downwards. -/
theorem Unlimited.handle (h : Unlimited s) (hmax : maxSessions ≤ 0)
    (hold : s.handlers[i]? = some old) : Unlimited (handle maxSessions s i old) := by
  have hloop := h.swaps old (List.mem_of_getElem? hold)
  cases old with
  | checking =>
    rw [Proxy.handle, if_pos hmax]
    exact h.of_set hold rfl rfl (by simp)
  | loading => exact absurd rfl hloop.1
  | swapping cur => exact absurd rfl (hloop.2 cur)
  | decrementing =>
    refine h.of_set hold rfl ?_ (by simp)
    simp [Proxy.handle, Connections.goto, Phase.cleaned]
  | refused => exact h
  | done => exact h
  | _ => exact h.of_set hold rfl rfl (by simp)

/-- With a limit every step keeps the count exact and within the limit. -/
theorem Limited.turn (h : Limited maxSessions s) (hmax : 0 < maxSessions) (move : Move) :
    Limited maxSessions (turn maxSessions s move) := by
  cases move with
  | accept =>
    refine ⟨?_, h.le, ?_⟩
    · simpa [Proxy.turn, Connections.live, Phase.holds] using h.counted
    · intro phase hmem cur hcur
      rcases List.mem_append.mp hmem with hold | hnew
      · exact h.swaps phase hold cur hcur
      · cases List.mem_singleton.mp hnew
        cases hcur
  | next i =>
    simp only [Proxy.turn]
    cases hold : s.handlers[i]? with
    | none => exact h
    | some phase => exact h.handle hmax hold

/-- Without a limit every step counts the ended sessions downwards. -/
theorem Unlimited.turn (h : Unlimited s) (hmax : maxSessions ≤ 0) (move : Move) :
    Unlimited (turn maxSessions s move) := by
  cases move with
  | accept =>
    constructor
    · simpa [Proxy.turn, Connections.ended, Phase.cleaned] using h.count
    · intro phase hmem
      rcases List.mem_append.mp hmem with hold | hnew
      · exact h.swaps phase hold
      · cases List.mem_singleton.mp hnew
        simp
  | next i =>
    simp only [Proxy.turn]
    cases hold : s.handlers[i]? with
    | none => exact h
    | some phase => exact h.handle hmax hold

/-- With a limit the count is exact and within the limit in every state reached. -/
theorem limited_run (hmax : 0 < maxSessions) (moves : List Move) :
    Limited maxSessions (run (turn maxSessions) {} moves) := by
  refine run_invariant (fun _ _ h _ => Limited.turn h hmax _) ?_
    (throughout_of_forall (Q := fun _ => True) fun _ _ => trivial)
  exact ⟨rfl, hmax.le, by simp⟩

/-- Without a limit the count is the negative of the number of ended sessions in every state reached. -/
theorem unlimited_run (hmax : maxSessions ≤ 0) (moves : List Move) :
    Unlimited (run (turn maxSessions) {} moves) := by
  refine run_invariant (fun _ _ h _ => Unlimited.turn h hmax _) ?_
    (throughout_of_forall (Q := fun _ => True) fun _ _ => trivial)
  exact ⟨rfl, by simp⟩

/-- The map has the sessions of the goroutines that are between listing and unlisting them. -/
def Connections.Listed (s : Connections) : Prop :=
  ∀ i, i ∈ s.sessions ↔ ∃ phase, s.handlers[i]? = some phase ∧ phase.inMap = true

/-- A step of a goroutine keeps the map if it lists or unlists its own session where it has to. -/
theorem Connections.Listed.of_set (h : s.Listed) (hold : s.handlers[i]? = some old)
    {s' : Connections} {new : Phase} (hset : s'.handlers = s.handlers.set i new)
    (hothers : ∀ j, j ≠ i → (j ∈ s'.sessions ↔ j ∈ s.sessions))
    (hown : i ∈ s'.sessions ↔ new.inMap = true) : s'.Listed := by
  intro j
  rw [hset, List.getElem?_set]
  by_cases hj : i = j
  · subst hj
    obtain ⟨hlt, -⟩ := List.getElem?_eq_some_iff.mp hold
    simp [hlt, hown]
  · rw [if_neg hj, hothers j (Ne.symm hj), h j]

/-- A step of a goroutine that neither lists nor unlists its session keeps the map. -/
theorem Connections.Listed.of_set_same (h : s.Listed) (hold : s.handlers[i]? = some old)
    {s' : Connections} {new : Phase} (hset : s'.handlers = s.handlers.set i new)
    (hsessions : s'.sessions = s.sessions) (hsame : new.inMap = old.inMap) : s'.Listed := by
  refine h.of_set hold hset (fun j _ => by rw [hsessions]) ?_
  rw [hsessions, h i, hold, hsame]
  simp

/-- The steps of a goroutine keep the map. -/
theorem Connections.Listed.handle (h : s.Listed) (hold : s.handlers[i]? = some old) :
    (handle maxSessions s i old).Listed := by
  cases old with
  | checking =>
    rw [Proxy.handle]
    split_ifs <;> exact h.of_set_same hold rfl rfl rfl
  | loading =>
    rw [Proxy.handle]
    split_ifs <;> exact h.of_set_same hold rfl rfl rfl
  | swapping cur =>
    rw [Proxy.handle]
    split_ifs <;> exact h.of_set_same hold rfl rfl rfl
  | listing =>
    refine h.of_set hold rfl (fun j hj => ?_) ?_
    · simp [Proxy.handle, Connections.goto, hj]
    · simp [Proxy.handle, Connections.goto, Phase.inMap]
  | unlisting =>
    refine h.of_set hold rfl (fun j hj => ?_) ?_
    · simp [Proxy.handle, Connections.goto, hj]
    · simp [Proxy.handle, Connections.goto, Phase.inMap]
  | refused => exact h
  | done => exact h
  | _ => exact h.of_set_same hold rfl rfl rfl

/-- Every step keeps the map. -/
theorem Connections.Listed.turn (h : s.Listed) (move : Move) : (turn maxSessions s move).Listed := by
  cases move with
  | accept =>
    intro j
    simp only [Proxy.turn, List.getElem?_append, h j]
    split_ifs with hj
    · rfl
    · have hnone : s.handlers[j]? = none := List.getElem?_eq_none (not_lt.mp hj)
      cases hk : j - s.handlers.length <;> simp [hnone, Phase.inMap]
  | next i =>
    simp only [Proxy.turn]
    cases hold : s.handlers[i]? with
    | none => exact h
    | some phase => exact h.handle hold

/-- In every state reached the map has exactly the sessions that are listed and not yet unlisted. -/
theorem listed_run (maxSessions : ℤ) (moves : List Move) :
    (run (turn maxSessions) {} moves).Listed := by
  refine run_invariant (fun _ _ h _ => Connections.Listed.turn h _) ?_
    (throughout_of_forall (Q := fun _ => True) fun _ _ => trivial)
  simp [Connections.Listed]

/-- For every limit and every interleaving of the steps of any number of goroutines, in every state
reached: the count is the number of admitted sessions whose cleanup has not run exactly if there is a
limit or no session was admitted so far, and with a limit it is never exceeded. -/
theorem count_exact_iff (maxSessions : ℤ) (moves : List Move) :
    ((run (turn maxSessions) {} moves).currentConnectionsCount =
        (run (turn maxSessions) {} moves).live ↔
      0 < maxSessions ∨ (run (turn maxSessions) {} moves).admitted = 0) ∧
    (0 < maxSessions → (run (turn maxSessions) {} moves).currentConnectionsCount ≤ maxSessions) := by
  rcases lt_or_ge 0 maxSessions with hmax | hmax
  · have h := limited_run hmax moves
    exact ⟨iff_of_true h.counted (.inl hmax), fun _ => h.le⟩
  · have hcount := (unlimited_run hmax moves).count
    refine ⟨?_, fun h => absurd h (not_lt.mpr hmax)⟩
    rw [hcount, Connections.admitted]
    omega

/-- Without a limit an admitted session is not counted, and the count is negative when it has ended. -/
theorem unlimited_count_negative :
    (run (turn 0) {} [.accept, .next 0, .next 0, .next 0, .next 0]).handlers = [.running] ∧
      (run (turn 0) {} [.accept, .next 0, .next 0, .next 0, .next 0]).currentConnectionsCount = 0 ∧
      (run (turn 0) {} [.accept, .next 0, .next 0, .next 0, .next 0, .next 0, .next 0, .next 0,
        .next 0]).handlers = [.done] ∧
      (run (turn 0) {} [.accept, .next 0, .next 0, .next 0, .next 0, .next 0, .next 0, .next 0,
        .next 0]).currentConnectionsCount = -1 := by
  decide

end Grunyas.Proxy
