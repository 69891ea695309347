import Grunyas.Classifier.Classify

/-!
# Decision events

The record of one routing decision. The identifier, the timestamp and the schema version are
stamped by the bus and not part of it. Where the source leaves a field at the zero value of its
type until it is known, the field has that value as its default.
-/

namespace Grunyas.Decisions

open GoText Grunyas.Server Grunyas.Classifier

/-- How a statement was classified. -/
structure Classification where
  type : Kind
  source : Source
  sql : Text
  deriving DecidableEq, Repr

/-- A node considered for routing, with the reasons that exclude it. -/
structure Candidate where
  nodeID : Text
  eligible : Bool
  reasons : List Text
  deriving DecidableEq, Repr

/-- The kind of an outcome; `empty` is the zero value of Go's string type. -/
inductive OutcomeKind where
  | empty
  | leased
  | rejected
  | fallback
  deriving DecidableEq, Repr

/-- The result of a routing decision. -/
structure Outcome where
  kind : OutcomeKind := .empty
  nodeID : Text := []
  sqlState : String := ""
  reason : Text := []
  deriving DecidableEq, Repr

/-- The consistency modes. -/
inductive Mode where
  | linearizable
  | boundedStaleness
  | postWriteWindow
  deriving DecidableEq, Repr

/-- The consistency guarantee a decision applies. -/
structure Consistency where
  mode : Mode
  windowRemainingMs : Option ℤ := none
  deriving DecidableEq, Repr

/-- A routing decision. -/
structure Event where
  port : Port
  poolMode : PoolMode
  leaseType : Text
  source : Text
  classification : Option Classification := none
  candidates : List Candidate := []
  outcome : Outcome := {}
  consistency : Option Consistency := none
  policiesActive : List Text := []
  deriving DecidableEq, Repr

end Grunyas.Decisions
