import Mathlib.Algebra.BigOperators.Group.List.Basic
import Mathlib.Algebra.GroupWithZero.Nat

/-!
# Interleaved threads and additive views

A thread is the list of the atomic steps it has still to take. `Interleaved` merges threads in any
order that keeps the order of each. What all steps add to a view of the state does not depend on the
order (`Interleaved.view_eq`).
-/

namespace Machine

variable {Step State : Type*}

/-- The steps of the threads, in some order that keeps the one of every thread. -/
inductive Interleaved : List (List Step) → List Step → Prop
  | finished {threads : List (List Step)} (done : ∀ thread ∈ threads, thread = []) :
    Interleaved threads []
  | turn {before after : List (List Step)} {first : Step} {thread steps : List Step}
      (rest : Interleaved (before ++ thread :: after) steps) :
    Interleaved (before ++ (first :: thread) :: after) (first :: steps)

/-- Every step of every thread is taken once. -/
theorem Interleaved.perm {threads : List (List Step)} {steps : List Step}
    (h : Interleaved threads steps) : steps.Perm threads.flatten := by
  induction h with
  | finished done => rw [List.flatten_eq_nil_iff.mpr done]
  | @turn before after first thread steps _ ih =>
    simp only [List.flatten_append, List.flatten_cons, List.cons_append] at ih ⊢
    exact (ih.cons first).trans List.perm_middle.symm

/-- A thread without steps changes nothing. -/
theorem Interleaved.cons_nil {threads : List (List Step)} {steps : List Step}
    (h : Interleaved threads steps) : Interleaved ([] :: threads) steps := by
  induction h with
  | finished done => exact .finished fun thread hthread => (List.mem_cons.mp hthread).elim id (done thread)
  | @turn before after first thread steps _ ih =>
    have hturn : Interleaved (([] :: before) ++ thread :: after) steps := ih
    exact hturn.turn

/-- The threads may run one after the other. -/
theorem Interleaved.sequential (threads : List (List Step)) : Interleaved threads threads.flatten := by
  induction threads with
  | nil => exact .finished fun _ hthread => absurd hthread List.not_mem_nil
  | cons thread rest ih =>
    induction thread with
    | nil => exact ih.cons_nil
    | cons first thread ihthread =>
      have hturn : Interleaved ([] ++ thread :: rest) (thread :: rest).flatten := ihthread
      exact hturn.turn

/-- Of two threads the second may run first. -/
theorem Interleaved.swapped (thread other : List Step) :
    Interleaved [thread, other] (other ++ thread) := by
  induction other with
  | nil => simpa using Interleaved.sequential [thread, []]
  | cons first other ih =>
    have hturn : Interleaved ([thread] ++ other :: []) (other ++ thread) := ih
    exact hturn.turn

/-- A view to which every step adds its weight has all the weights added at the end of a run. -/
theorem foldl_view_eq {step : State → Step → State} {view : State → ℕ} {weight : Step → ℕ}
    (hstep : ∀ s a, view (step s a) = view s + weight a) (s : State) (steps : List Step) :
    view (steps.foldl step s) = view s + (steps.map weight).sum := by
  induction steps generalizing s with
  | nil => rfl
  | cons a rest ih =>
    rw [List.foldl_cons, ih, hstep, List.map_cons, List.sum_cons, Nat.add_assoc]

/-- An additive view depends on what the threads add, not on their order. -/
theorem Interleaved.view_eq {threads : List (List Step)} {steps : List Step}
    (h : Interleaved threads steps) {step : State → Step → State} {view : State → ℕ}
    {weight : Step → ℕ} (hstep : ∀ s a, view (step s a) = view s + weight a) (s : State) :
    view (steps.foldl step s) =
      view s + (threads.map fun thread => (thread.map weight).sum).sum := by
  rw [foldl_view_eq hstep, (h.perm.map weight).sum_eq, List.map_flatten, List.sum_flatten,
    List.map_map]
  rfl

end Machine
