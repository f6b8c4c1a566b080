import Workflow.Execution

/-! What the subscribers of a run hear, and where in the run it happened. -/

namespace Workflow

inductive Event where
  | runStarted (run graph : Uuid)
  | nodeStarted (run : Uuid) (node : String)
  | nodeSucceeded (run : Uuid) (node : String)
  | nodeFailed (run : Uuid) (node : String) (message : String)
  | runFinished (run : Uuid) (status : RunStatus)
deriving DecidableEq, Repr

def Event.run : Event → Uuid
  | .runStarted run _ | .nodeStarted run _ | .nodeSucceeded run _ | .nodeFailed run _ _
  | .runFinished run _ => run

/-- One way from an activation to another: from a run to a node at which it
starts, along a connection that leaves a node, or from a loop into its body.
`index` counts the ways that are open at the same time. -/
inductive Step where
  | start (index : Nat)
  | follow (index : Nat) (connection : Connection)
  | body (round index : Nat) (connection : Connection)
deriving DecidableEq, Repr

/-- How an activation was reached.  A nested run goes on from the activation that
it is part of, so the steps before the last one are the depth. -/
abbrev Path := List Step

/-- An event and the activation that it tells of; the events of a whole run have
the path at which the run begins. -/
structure Traced where
  path : Path
  event : Event
deriving DecidableEq, Repr

structure Call where
  path : Path
  template : String
  input : Json
deriving Repr

namespace Event

/-- The least power of two that is not below `n`; `fuel` is at least its
exponent. -/
def powerOfTwoFrom (n : Nat) : (fuel : Nat) → Nat → Nat
  | 0, power => power
  | fuel + 1, power => if n ≤ power then power else powerOfTwoFrom n fuel (2 * power)

/-- The number of events that a subscriber's buffer holds: capacities are powers
of two, and at least one. -/
def bufferSize (capacity : Nat) : Nat :=
  powerOfTwoFrom capacity capacity 1

/-- What a subscriber receives that starts to listen after all events were sent:
how many were lost, and those that were not. -/
def received (capacity : Nat) (events : List Event) : Nat × List Event :=
  let lost := events.length - bufferSize capacity
  (lost, events.drop lost)

end Event

end Workflow
