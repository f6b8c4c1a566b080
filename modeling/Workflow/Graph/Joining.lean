import Workflow.Graph

/-! Which ports may be joined.

A connection runs from an output to an input, an input takes one connection,
and the types of both ends agree unless one of them is `any`.
-/

namespace Workflow

inductive JoinError where
  | sameDirection (direction : Direction)
  | wrongDirection
  | inputTaken (nodeId portId : String)
  | typeMismatch (source target : String)
  | unknownNode (nodeId : String)
  | unknownPort (nodeId port : String)
deriving DecidableEq, Repr

def JoinError.message : JoinError → String
  | .sameDirection direction => s!"cannot connect two {direction.word} ports"
  | .wrongDirection => "connections must run from an output port to an input port"
  | .inputTaken nodeId portId =>
      s!"input port '{portId}' on node '{nodeId}' is already connected"
  | .typeMismatch source target => s!"type mismatch: '{source}' cannot feed '{target}'"
  | .unknownNode nodeId => s!"unknown node '{nodeId}'"
  | .unknownPort nodeId port => s!"node '{nodeId}' has no port '{port}'"

namespace Port

/-- Whether what leaves `source` may enter `target`. -/
def feeds (source target : Port) : Bool :=
  source.acceptsAny || target.acceptsAny || source.dataType = target.dataType

/-- Checks a connection from `source` to the port `target` of a node.  Of several
reasons against it, directions come first and types last. -/
def checkJoin (source : Port) (targetNode : String) (target : Port) : Except JoinError Unit :=
  match source.direction, target.direction with
  | .input, .input => .error (.sameDirection .input)
  | .output, .output => .error (.sameDirection .output)
  | .input, .output => .error .wrongDirection
  | .output, .input =>
      if target.connected then .error (.inputTaken targetNode target.id)
      else if source.feeds target then .ok ()
      else .error (.typeMismatch source.dataType target.dataType)

/-- The type that a connection between two ports carries: the narrower one. -/
def joinedType (source target : Port) : String :=
  if source.acceptsAny then target.dataType else source.dataType

end Port

end Workflow
