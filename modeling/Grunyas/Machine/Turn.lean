import Grunyas.Machine.Run

/-!
# Turns of an event loop

A turn takes a state through a sequence of calls to the outside, logs each of them and may leave
the loop early. Turns compose like statements: the second one starts only if the first is still
running. What a turn does is judged together with a ledger that is updated at every logged
action; `Watched.step_keeps` reduces a condition on loop and ledger to where a turn ends.
-/

namespace Machine

/-- Whether the loop goes on, has returned, or has panicked. -/
inductive Next where
  | running
  | returned
  | panicked
  deriving DecidableEq, Repr

/-- The result of a turn: the state, the actions in order, and whether the loop goes on. -/
structure Turn (State Action : Type*) where
  state : State
  acts : List Action
  next : Next
  deriving DecidableEq, Repr

variable {State Action Ledger : Type*}

/-- Log actions and go on. -/
def Turn.log (acts : List Action) (s : State) : Turn State Action := ⟨s, acts, .running⟩

/-- Log one action and go on exactly if it succeeded. -/
def Turn.attempt (act : Action) (ok : Bool) (s : State) : Turn State Action :=
  ⟨s, [act], if ok then .running else .returned⟩

/-- Return from the loop. -/
def Turn.leave (s : State) : Turn State Action := ⟨s, [], .returned⟩

/-- Continue with a second turn if the first one is still running. -/
def Turn.andThen (t : Turn State Action) (f : State → Turn State Action) : Turn State Action :=
  match t.next with
  | .running => ⟨(f t.state).state, t.acts ++ (f t.state).acts, (f t.state).next⟩
  | .returned => t
  | .panicked => t

/-- Logging first puts its actions before those of the turn that follows. -/
theorem Turn.log_andThen (acts : List Action) (s : State) (f : State → Turn State Action) :
    (Turn.log acts s).andThen f = ⟨(f s).state, acts ++ (f s).acts, (f s).next⟩ := rfl

/-- The turn, observed by a ledger, ends in a state, ledger and outcome of the given kind. -/
def Turn.Ends (record : Ledger → Action → Ledger) (l : Ledger) (t : Turn State Action)
    (Q : State → Ledger → Next → Prop) : Prop :=
  Q t.state (t.acts.foldl record l) t.next

variable {record : Ledger → Action → Ledger}

/-- An event loop with its ledger. -/
structure Watched (State Ledger : Type*) where
  state : State
  ledger : Ledger
  next : Next
  deriving DecidableEq, Repr

variable {Input : Type*} {turn : State → Input → Turn State Action}
  {note : Ledger → State → Input → Ledger}

/-- Take one input: the ledger notes it and then every action of the turn. A loop that has left
takes no further input. -/
def Watched.step (turn : State → Input → Turn State Action)
    (note : Ledger → State → Input → Ledger) (record : Ledger → Action → Ledger)
    (w : Watched State Ledger) (i : Input) : Watched State Ledger :=
  match w.next with
  | .running =>
    ⟨(turn w.state i).state, (turn w.state i).acts.foldl record (note w.ledger w.state i),
      (turn w.state i).next⟩
  | .returned => w
  | .panicked => w

/-- The step of a running loop. -/
theorem Watched.step_of_running {w : Watched State Ledger} (h : w.next = .running) (i : Input) :
    Watched.step turn note record w i =
      ⟨(turn w.state i).state, (turn w.state i).acts.foldl record (note w.ledger w.state i),
        (turn w.state i).next⟩ := by
  simp [Watched.step, h]

/-- A loop that has left stays as it is. -/
theorem Watched.step_of_not_running {w : Watched State Ledger} (h : w.next ≠ .running) (i : Input) :
    Watched.step turn note record w i = w := by
  cases hn : w.next <;> simp_all [Watched.step]

/-- A loop that runs after a step ran before it. -/
theorem Watched.running_of_step {w : Watched State Ledger} {i : Input}
    (h : (Watched.step turn note record w i).next = .running) : w.next = .running := by
  by_contra hw
  rw [Watched.step_of_not_running hw] at h
  exact hw h

/-- A loop that runs at the end of a run ran at its start. -/
theorem Watched.running_of_run {w : Watched State Ledger} {inputs : List Input}
    (h : (run (Watched.step turn note record) w inputs).next = .running) : w.next = .running := by
  induction inputs generalizing w with
  | nil => exact h
  | cons i inputs ih => exact Watched.running_of_step (ih h)

/-- A condition holds after a step if it held before and every turn of a running loop ends in it. -/
theorem Watched.step_keeps (I : Watched State Ledger → Prop) {w : Watched State Ledger} {i : Input}
    (hw : I w)
    (hturn : w.next = .running →
      (turn w.state i).Ends record (note w.ledger w.state i) fun s l n => I ⟨s, l, n⟩) :
    I (Watched.step turn note record w i) := by
  by_cases h : w.next = .running
  · rw [Watched.step_of_running h]
    exact hturn h
  · rw [Watched.step_of_not_running h]
    exact hw

section Observe

variable {Ledger' Input' : Type*} {turn' : State → Input' → Turn State Action}
  {note' : Ledger' → State → Input' → Ledger'} {record' : Ledger' → Action → Ledger'}

/-- A loop seen through a part of its ledger. -/
def Watched.observe (view : Ledger → Ledger') (w : Watched State Ledger) : Watched State Ledger' :=
  ⟨w.state, view w.ledger, w.next⟩

/-- A part of a ledger that notes and records on its own is itself the ledger of the loop. -/
theorem Watched.observe_step (view : Ledger → Ledger') (input : Input → Input')
    (hturn : ∀ s i, turn s i = turn' s (input i))
    (hnote : ∀ l s i, view (note l s i) = note' (view l) s (input i))
    (hrecord : ∀ l act, view (record l act) = record' (view l) act)
    (w : Watched State Ledger) (i : Input) :
    (Watched.step turn note record w i).observe view =
      Watched.step turn' note' record' (w.observe view) (input i) := by
  have hfold (acts : List Action) (l : Ledger) :
      view (acts.foldl record l) = acts.foldl record' (view l) := by
    induction acts generalizing l with
    | nil => rfl
    | cons act acts ih => rw [List.foldl_cons, ih, hrecord, List.foldl_cons]
  cases hnext : w.next <;> simp [Watched.step, Watched.observe, hnext, hturn, hfold, hnote]

end Observe

end Machine
