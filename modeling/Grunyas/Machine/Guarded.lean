import Mathlib.Data.List.Basic

/-!
# Machines whose steps may be disabled

A step function that answers `none` where a label is not enabled: a process that cannot take its step
waits. A run is a sequence of steps each of which is enabled. Safety over runs reduces to one step
(`exec_invariant`). Runs that cannot go on for ever and cannot stall early are those of a machine that
settles; a measure that every step lowers, and progress until the end, are enough (`settles_of_measure`).
-/

namespace Machine

variable {State Label : Type*} (step : State → Label → Option State)

/-- The state after a sequence of steps, if each of them is enabled. -/
def exec : State → List Label → Option State
  | s, [] => some s
  | s, l :: rest => (step s l).bind fun t => exec t rest

/-- Steps of the given kind cannot go on for ever, and where none of them is enabled the goal is
reached. -/
structure Settles (own : Label → Prop) (goal : State → Prop) (bound : ℕ) (s : State) : Prop where
  bounded : ∀ labels t, (∀ l ∈ labels, own l) → exec step s labels = some t → labels.length ≤ bound
  ends : ∀ labels t, (∀ l ∈ labels, own l) → exec step s labels = some t →
    (∀ l, own l → step t l = none) → goal t

variable {step} {s t : State} {labels : List Label} {I : State → Prop}

/-- A run is a first step and the run from where it leads. -/
theorem exec_cons {l : Label} :
    exec step s (l :: labels) = some t ↔ ∃ u, step s l = some u ∧ exec step u labels = some t := by
  rw [exec, Option.bind_eq_some_iff]

/-- An invariant that every enabled step keeps holds at the end of every run. -/
theorem exec_invariant (hstep : ∀ s l t, I s → step s l = some t → I t) (hs : I s)
    (h : exec step s labels = some t) : I t := by
  induction labels generalizing s with
  | nil =>
    cases h
    exact hs
  | cons l labels ih =>
    obtain ⟨u, hu, hrest⟩ := exec_cons.mp h
    exact ih (hstep s l u hs hu) hrest

/-- A machine settles if its steps keep an invariant and lower a measure, and if a state with the
invariant in which none is enabled is a goal. -/
theorem settles_of_measure {own : Label → Prop} {goal : State → Prop} {measure : State → ℕ}
    (hstep : ∀ s l t, I s → own l → step s l = some t → I t ∧ measure t < measure s)
    (hprogress : ∀ s, I s → (∀ l, own l → step s l = none) → goal s) (hs : I s) :
    Settles step own goal (measure s) s := by
  have hrun : ∀ (labels : List Label) (s t : State), I s → (∀ l ∈ labels, own l) →
      exec step s labels = some t → I t ∧ labels.length + measure t ≤ measure s := by
    intro labels
    induction labels with
    | nil =>
      intro s t hs _ h
      cases h
      exact ⟨hs, by simp⟩
    | cons l labels ih =>
      intro s t hs hown h
      obtain ⟨u, hu, hrest⟩ := exec_cons.mp h
      obtain ⟨hIu, hlower⟩ := hstep s l u hs (hown l List.mem_cons_self) hu
      obtain ⟨hIt, hle⟩ := ih u t hIu (fun k hk => hown k (List.mem_cons_of_mem _ hk)) hrest
      refine ⟨hIt, ?_⟩
      rw [List.length_cons]
      omega
  constructor
  · intro labels t hown h
    have hle := (hrun labels s t hs hown h).2
    omega
  · intro labels t hown h hstuck
    exact hprogress t (hrun labels s t hs hown h).1 hstuck

end Machine
