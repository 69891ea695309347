import Grunyas.Go.Utf8
import Grunyas.Server.Types
import Mathlib.Data.Finmap

/-!
# The policy engine

A policy instance excludes a node from routing while it holds the node in state active or
releasing. The engine keeps one state per instance and node; a pair it never evaluated is clean.
-/

namespace Grunyas.Policy

open GoText Grunyas.Server

/-- The state of a policy instance for one node. -/
inductive State where
  | clean
  | pending
  | active
  | releasing
  deriving DecidableEq, Repr

/-- What a policy instance evaluates; a name that is no template evaluates nothing. -/
inductive Template where
  | healthFilter
  | lagFilter
  | poolSaturation
  | other (name : Text)
  deriving DecidableEq, Repr

/-- A configured policy. -/
structure Instance where
  name : Text
  template : Template
  scope : Text
  parameters : List (Text × ℤ)
  dwellMs : ℤ
  releaseMs : ℤ
  deriving DecidableEq, Repr

/-- The recorded state of one instance for one node. -/
structure PerNodeState where
  state : State
  enteredAt : Time
  lastCondition : Text
  deriving DecidableEq, Repr

/-- The engine. Its map of instances is given by the values in the order of their names, which is
the order in which `Instances` returns them. -/
structure Engine where
  instances : List Instance
  sorted : instances.Pairwise fun first second => first.name < second.name
  states : Finmap (fun _ : Text => Finmap (fun _ : Text => PerNodeState))

/-- The recorded state of a policy for a node, if there is one. -/
def Engine.perNodeState (e : Engine) (policyName nodeID : Text) : Option PerNodeState :=
  (e.states.lookup policyName).bind fun perNode => perNode.lookup nodeID

/-- The state of a policy for a node, when it was entered and the last condition. -/
def Engine.candidateState (e : Engine) (policyName nodeID : Text) : State × Time × Text :=
  match e.perNodeState policyName nodeID with
  | some pns => (pns.state, pns.enteredAt, pns.lastCondition)
  | none => (.clean, 0, [])

/-- Whether a policy leaves a node eligible, and the last condition it recorded. -/
def Engine.evaluatePolicyState (e : Engine) (policyName nodeID : Text) : Bool × Text :=
  match e.perNodeState policyName nodeID with
  | some pns => (pns.state != .active && pns.state != .releasing, pns.lastCondition)
  | none => (true, [])

/-- The name of the first instance of a template, or the default. -/
def Engine.nameOrFirst (e : Engine) (template : Template) (default : Text) : Text :=
  match e.instances.find? (fun inst => inst.template == template) with
  | some inst => inst.name
  | none => default

/-- The health policy that routing consults. -/
def policyDefaultHealthNameOrFirst (e : Engine) : Text :=
  e.nameOrFirst .healthFilter (text "default-health-filter")

/-- The lag policy that routing consults. -/
def policyDefaultLagNameOrFirst (e : Engine) : Text :=
  e.nameOrFirst .lagFilter (text "default-lag-filter")

/-- The saturation policy that routing consults. -/
def policyDefaultSatNameOrFirst (e : Engine) : Text :=
  e.nameOrFirst .poolSaturation (text "default-pool-saturation-rejection")

end Grunyas.Policy
