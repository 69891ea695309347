import Grunyas.Machine.Run
import Grunyas.Policy.Transitions

/-!
# The events of the transitions

An engine with a bus publishes an event for every change of the state of a policy for a node. The
map of instances is visited in any order, and every visit reads the clock again.
`transitions_replay_state` says that the events of a policy and a node lead from clean to the state
that the engine reports. `engine_publishStep` says that the engine without its bus is the one of the
rest of the development.
-/

namespace Grunyas.Policy

open GoText GoMap Grunyas.Server Grunyas.Cluster Machine

/-- The name of a state in an event. -/
def State.string : State → Text
  | .clean => text "clean"
  | .pending => text "pending"
  | .active => text "active"
  | .releasing => text "releasing"

/-- The name of a template. -/
def Template.string : Template → Text
  | .healthFilter => text "health-filter"
  | .lagFilter => text "lag-filter"
  | .poolSaturation => text "pool-saturation-rejection"
  | .other name => name

/-- A transition of a policy for a node. The bus stamps an identifier, a time and a version on it. -/
structure TransitionEvent where
  policyName : Text
  template : Text
  scope : Text
  nodeID : Text
  fromState : Text
  toState : Text
  reason : Text
  deriving DecidableEq, Repr

/-- An engine with its counter and the events it has published on its bus, the first one first. -/
structure Publisher where
  engine : Engine
  published : List TransitionEvent
  transitionsPublished : ℕ

/-- The event of a change from one state to another, if they differ. -/
def transitionEvent (inst : Instance) (nodeID reason : Text) (oldState newState : State) :
    List TransitionEvent :=
  if newState ≠ oldState then
    [⟨inst.name, inst.template.string, inst.scope, nodeID, oldState.string, newState.string, reason⟩]
  else []

/-- Judge a node by one instance, and publish what changes. -/
def Publisher.judge (now : Time) (nv : NodeView) (poolSaturated : Bool) (p : Publisher)
    (inst : Instance) : Publisher :=
  match inst.evaluate nv poolSaturated with
  | some (reject, reason) =>
    let old := (p.engine.perNodeState inst.name nv.id).getD .clean
    let events := transitionEvent inst nv.id reason old.state
      (old.transition inst now reject reason).state
    { engine := p.engine.record inst.name nv.id (.transition inst now reject reason)
      published := p.published ++ events
      transitionsPublished := p.transitionsPublished + events.length }
  | none => p

/-- A call of `EvaluateNode`: the order in which the instances are visited, the time that the clock
shows at each of them, and the node. -/
structure Visits (policies : List Instance) where
  order : List (Instance × Time)
  perm : (order.map Prod.fst).Perm (engineInstances policies)
  view : NodeView
  poolSaturated : Bool

section

variable {policies : List Instance}

/-- The engine after a call. -/
def publishStep (p : Publisher) (v : Visits policies) : Publisher :=
  v.order.foldl (fun p visit => p.judge visit.2 v.view v.poolSaturated visit.1) p

/-- A new engine with a bus. -/
def publisher (policies : List Instance) : Publisher := ⟨newEngine policies, [], 0⟩

/-- The steps between states. -/
def transitionSteps : List (Text × Text) :=
  [(text "clean", text "pending"), (text "clean", text "active"), (text "pending", text "active"),
    (text "pending", text "clean"), (text "active", text "releasing"), (text "releasing", text "active"),
    (text "releasing", text "clean")]

/-- The events lead from one state to another, each from where the one before it led to, in the steps
there are. -/
def Replays : Text → List TransitionEvent → Text → Prop
  | start, [], stop => start = stop
  | start, event :: rest, stop => event.fromState = start ∧
      (event.fromState, event.toState) ∈ transitionSteps ∧ Replays event.toState rest stop

/-- The events about a policy and a node. -/
def eventsOf (policyName nodeID : Text) (published : List TransitionEvent) : List TransitionEvent :=
  published.filter fun event => event.policyName = policyName ∧ event.nodeID = nodeID

/-- Events that are published one after the other lead on. -/
theorem Replays.append {start middle stop : Text} {first rest : List TransitionEvent}
    (h : Replays start first middle) (hrest : Replays middle rest stop) :
    Replays start (first ++ rest) stop := by
  induction first generalizing start with
  | nil =>
    obtain rfl : start = middle := h
    exact hrest
  | cons event first ih => exact ⟨h.1, h.2.1, ih h.2.2⟩

/-- A transition makes one of the steps, or none. -/
theorem PerNodeState.state_transition (inst : Instance) (now : Time) (reject : Bool) (reason : Text)
    (pns : PerNodeState) (h : (pns.transition inst now reject reason).state ≠ pns.state) :
    (pns.state.string, (pns.transition inst now reject reason).state.string) ∈ transitionSteps := by
  unfold PerNodeState.transition at h ⊢
  cases hstate : pns.state with
  | clean =>
    simp only [hstate] at h ⊢
    split_ifs at h ⊢
    · simp [transitionSteps, State.string]
    · simp [transitionSteps, State.string]
    · exact absurd hstate h
  | pending =>
    simp only [hstate] at h ⊢
    split_ifs at h ⊢
    · simp [transitionSteps, State.string]
    · exact absurd hstate h
    · simp [transitionSteps, State.string]
  | active =>
    simp only [hstate] at h ⊢
    split_ifs at h ⊢
    · exact absurd hstate h
    · simp [transitionSteps, State.string]
  | releasing =>
    simp only [hstate] at h ⊢
    split_ifs at h ⊢
    · simp [transitionSteps, State.string]
    · simp [transitionSteps, State.string]
    · exact absurd hstate h

/-- The event of a transition leads from the old state to the new one. -/
theorem replays_transitionEvent (inst : Instance) (nodeID : Text) (now : Time) (reject : Bool)
    (reason : Text) (pns : PerNodeState) :
    Replays pns.state.string
      (transitionEvent inst nodeID reason pns.state (pns.transition inst now reject reason).state)
      (pns.transition inst now reject reason).state.string := by
  unfold transitionEvent
  split_ifs with hchanged
  · exact ⟨rfl, pns.state_transition inst now reject reason hchanged, rfl⟩
  · rw [not_not.mp hchanged]
    rfl

/-- The events of a transition are about its policy and its node. -/
theorem eventsOf_transitionEvent (policyName node : Text) (inst : Instance) (nodeID reason : Text)
    (oldState newState : State) :
    eventsOf policyName node (transitionEvent inst nodeID reason oldState newState) =
      if inst.name = policyName ∧ nodeID = node then
        transitionEvent inst nodeID reason oldState newState
      else [] := by
  unfold transitionEvent eventsOf
  split_ifs <;> simp_all

/-- What holds after every visit. -/
structure Published (p : Publisher) : Prop where
  replays : ∀ policyName nodeID, Replays (text "clean") (eventsOf policyName nodeID p.published)
    ((p.engine.perNodeState policyName nodeID).getD .clean).state.string
  counted : p.transitionsPublished = p.published.length

/-- A visit publishes what it changes. -/
theorem Published.judge {p : Publisher} (h : Published p) (now : Time) (nv : NodeView)
    (poolSaturated : Bool) (inst : Instance) : Published (p.judge now nv poolSaturated inst) := by
  unfold Publisher.judge
  split
  next reject reason hjudged =>
    refine ⟨fun policyName nodeID => ?_, ?_⟩
    · have hbefore := h.replays policyName nodeID
      dsimp only
      rw [eventsOf, List.filter_append]
      refine hbefore.append ?_
      rw [← eventsOf, eventsOf_transitionEvent, Engine.perNodeState_record]
      by_cases habout : inst.name = policyName ∧ nv.id = nodeID
      · obtain ⟨rfl, rfl⟩ := habout
        rw [if_pos ⟨rfl, rfl⟩, if_pos ⟨rfl, rfl⟩]
        exact replays_transitionEvent inst nv.id now reject reason _
      · rw [if_neg habout, if_neg fun hsame => habout ⟨hsame.1.symm, hsame.2.symm⟩]
        rfl
    · simp [h.counted]
  next => exact h

/-- A call publishes what it changes. -/
theorem Published.step {p : Publisher} (h : Published p) (v : Visits policies) :
    Published (publishStep p v) := by
  unfold publishStep
  induction v.order generalizing p with
  | nil => exact h
  | cons visit rest ih => exact ih (h.judge visit.2 v.view v.poolSaturated visit.1)

/-- The engine of a visit is the one without its bus. -/
theorem engine_judge (now : Time) (nv : NodeView) (poolSaturated : Bool) (p : Publisher)
    (inst : Instance) :
    (p.judge now nv poolSaturated inst).engine = p.engine.judge now nv poolSaturated inst := by
  unfold Publisher.judge Engine.judge
  cases inst.evaluate nv poolSaturated <;> rfl

/-- The engine of a call whose visits see one time is the one without its bus, whatever the order. -/
theorem engine_publishStep {p : Publisher} (hinst : p.engine.instances = engineInstances policies)
    (v : Visits policies) {now : Time} (hclock : ∀ visit ∈ v.order, visit.2 = now) :
    (publishStep p v).engine = p.engine.evaluateNode now v.view v.poolSaturated := by
  have hvisits (order : List (Instance × Time)) (horder : ∀ visit ∈ order, visit.2 = now)
      (p : Publisher) :
      (order.foldl (fun p visit => p.judge visit.2 v.view v.poolSaturated visit.1) p).engine =
        (order.map Prod.fst).foldl (Engine.judge now v.view v.poolSaturated) p.engine := by
    induction order generalizing p with
    | nil => rfl
    | cons visit rest ih =>
      rw [List.foldl_cons, ih fun other hother => horder other (List.mem_cons_of_mem _ hother),
        engine_judge, horder visit List.mem_cons_self]
      rfl
  rw [publishStep, hvisits v.order hclock]
  exact (p.engine.evaluateNode_eq_of_perm now v.view v.poolSaturated (hinst ▸ v.perm)).symm

end

/-- For every sequence of evaluations of any nodes, in any order of the instances and with any clock:
the events about a policy and a node lead in steps from clean to the state that the engine reports, and
as many events were published as the counter says. -/
theorem transitions_replay_state (policies : List Instance) (calls : List (Visits policies))
    (policyName nodeID : Text) :
    let p := run publishStep (publisher policies) calls
    Replays (text "clean") (eventsOf policyName nodeID p.published)
        (p.engine.candidateState policyName nodeID).1.string ∧
      p.transitionsPublished = p.published.length := by
  intro p
  have hall : Throughout publishStep (fun _ _ => True) (publisher policies) calls :=
    throughout_of_forall fun _ _ => trivial
  have hpublished : Published p :=
    run_invariant (fun p v h _ => h.step v) ⟨fun _ _ => rfl, rfl⟩ hall
  refine ⟨?_, hpublished.counted⟩
  have hreplays := hpublished.replays policyName nodeID
  unfold Engine.candidateState
  cases hstate : p.engine.perNodeState policyName nodeID with
  | none => rwa [hstate] at hreplays
  | some pns => rwa [hstate] at hreplays

end Grunyas.Policy
