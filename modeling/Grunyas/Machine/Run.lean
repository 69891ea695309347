import Mathlib.Data.List.Basic

/-!
# Runs of a step function

A machine is a step function on states and inputs. A property of the steps of a run judges every
input in the state in which it is taken: `Throughout`. Safety over whole runs reduces to one
step by the two rules below, `run_invariant` for states and `throughout_of_invariant` for steps;
both carry a side condition that every step of the run is assumed to meet.
-/

namespace Machine

variable {State Input : Type*} (step : State → Input → State)

/-- The state after a sequence of inputs. -/
def run (s : State) (inputs : List Input) : State := inputs.foldl step s

/-- Every input of the run meets the condition in the state in which it is taken. -/
def Throughout (ok : State → Input → Prop) : State → List Input → Prop
  | _, [] => True
  | s, i :: rest => ok s i ∧ Throughout ok (step s i) rest

instance Throughout.decidable (ok : State → Input → Prop) [∀ s i, Decidable (ok s i)] :
    (s : State) → (inputs : List Input) → Decidable (Throughout step ok s inputs)
  | _, [] => isTrue trivial
  | s, i :: rest => @instDecidableAnd _ _ _ (Throughout.decidable ok (step s i) rest)

variable {step} {ok P : State → Input → Prop} {I : State → Prop}

/-- Running a first input and then the rest. -/
@[simp] theorem run_cons (s : State) (i : Input) (rest : List Input) :
    run step s (i :: rest) = run step (step s i) rest := rfl

/-- The empty run ends where it starts. -/
@[simp] theorem run_nil (s : State) : run step s [] = s := rfl

/-- Running two sequences of inputs, one after the other. -/
theorem run_append (s : State) (first rest : List Input) :
    run step s (first ++ rest) = run step (run step s first) rest := List.foldl_append

/-- A condition holds throughout two runs, one after the other. -/
theorem throughout_append {s : State} (first rest : List Input) :
    Throughout step ok s (first ++ rest) ↔
      Throughout step ok s first ∧ Throughout step ok (run step s first) rest := by
  induction first generalizing s with
  | nil => simp [Throughout]
  | cons i first ih => simp [Throughout, ih, and_assoc]

/-- A condition on the inputs alone holds throughout a run exactly if it holds of every input. -/
theorem throughout_iff_forall {Q : Input → Prop} {s : State} {inputs : List Input} :
    Throughout step (fun _ i => Q i) s inputs ↔ ∀ i ∈ inputs, Q i := by
  induction inputs generalizing s with
  | nil => simp [Throughout]
  | cons i rest ih => simp [Throughout, ih]

/-- A condition on the inputs alone holds throughout a run of such inputs. -/
theorem throughout_of_forall {Q : Input → Prop} {s : State} {inputs : List Input}
    (h : ∀ i ∈ inputs, Q i) : Throughout step (fun _ i => Q i) s inputs :=
  throughout_iff_forall.mpr h

/-- Two conditions hold throughout a run exactly when their conjunction does. -/
theorem throughout_and {s : State} {inputs : List Input} :
    Throughout step (fun s i => ok s i ∧ P s i) s inputs ↔
      Throughout step ok s inputs ∧ Throughout step P s inputs := by
  induction inputs generalizing s with
  | nil => simp [Throughout]
  | cons i rest ih =>
    simp only [Throughout, ih]
    tauto

/-- An invariant that every admissible step keeps holds at the end of every admissible run. -/
theorem run_invariant {s : State} {inputs : List Input}
    (hstep : ∀ s i, I s → ok s i → I (step s i)) (hs : I s)
    (hok : Throughout step ok s inputs) : I (run step s inputs) := by
  induction inputs generalizing s with
  | nil => exact hs
  | cons i rest ih => exact ih (hstep s i hs hok.1) hok.2

/-- Under an invariant kept by every admissible step, what holds of each such step holds
throughout the run. -/
theorem throughout_of_invariant {s : State} {inputs : List Input}
    (hstep : ∀ s i, I s → ok s i → I (step s i)) (hprop : ∀ s i, I s → ok s i → P s i) (hs : I s)
    (hok : Throughout step ok s inputs) : Throughout step P s inputs := by
  induction inputs generalizing s with
  | nil => trivial
  | cons i rest ih => exact ⟨hprop s i hs hok.1, ih (hstep s i hs hok.1) hok.2⟩

/-- In a run of admissible steps, conditions that agree on every step in states satisfying the invariant
agree, if the steps that meet them keep it. -/
theorem throughout_congr_of_admissible {admissible : State → Input → Prop} {s : State}
    {inputs : List Input} (hstep : ∀ s i, I s → admissible s i → ok s i → I (step s i))
    (hiff : ∀ s i, I s → admissible s i → (ok s i ↔ P s i)) (hs : I s)
    (hadmissible : Throughout step admissible s inputs) :
    Throughout step ok s inputs ↔ Throughout step P s inputs := by
  induction inputs generalizing s with
  | nil => exact Iff.rfl
  | cons i rest ih =>
    obtain ⟨hi, hrest⟩ := hadmissible
    constructor
    · intro hok
      exact ⟨(hiff s i hs hi).mp hok.1, (ih (hstep s i hs hi hok.1) hrest).mp hok.2⟩
    · intro hP
      have hok := (hiff s i hs hi).mpr hP.1
      exact ⟨hok, (ih (hstep s i hs hi hok) hrest).mpr hP.2⟩

/-- Conditions that agree on every step in states satisfying the invariant agree on runs, if the steps
that meet them keep it. -/
theorem throughout_congr_of_ok {s : State} {inputs : List Input}
    (hstep : ∀ s i, I s → ok s i → I (step s i)) (hiff : ∀ s i, I s → (ok s i ↔ P s i)) (hs : I s) :
    Throughout step ok s inputs ↔ Throughout step P s inputs :=
  throughout_congr_of_admissible (fun s i h _ => hstep s i h) (fun s i h _ => hiff s i h) hs
    (throughout_of_forall (Q := fun _ => True) fun _ _ => trivial)

/-- Conditions that agree on every step in states satisfying the invariant agree on runs. -/
theorem throughout_congr {s : State} {inputs : List Input}
    (hstep : ∀ s i, I s → I (step s i)) (hiff : ∀ s i, I s → (ok s i ↔ P s i)) (hs : I s) :
    Throughout step ok s inputs ↔ Throughout step P s inputs :=
  throughout_congr_of_ok (fun s i h _ => hstep s i h) hiff hs

end Machine
