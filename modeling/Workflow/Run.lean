import Workflow.Branching
import Workflow.Graph.Check
import Workflow.Limits
import Workflow.Run.State
import Workflow.Subflow

/-! Running graphs.

A run starts at the triggers of a graph.  An activation of a node does what the
node's kind says and then starts an activation at the end of every connection
that leaves an output it fires.  Activations take turns; a failure ends its own
activation and no other.
-/

namespace Workflow

inductive NodeError where
  | nodeNotFound (node : String)
  | depthExceeded (limit : Nat)
  | timeout (node : String) (millis : Nat)
  | noImplementation (node template : String)
  | panicked (node : String)
  | delegate (node : String) (error : DelegateError)
  | branch (node : String) (error : BranchError)
  | subflowIdMissing (node : String)
  | subflowNotFound (subflow : String)
  | subflowNotReusable (node subflow : String) (uses : Nat)
  | subflowFailed (node subflow : String) (first : String)
  | undeclaredOutput (node subflow key : String)

namespace NodeError

/-- What is wrong with one node, as opposed to the run around it. -/
def detail? : NodeError → Option (String × String)
  | .noImplementation node template =>
      some (node, s!"no implementation registered for template '{template}'")
  | .panicked node => some (node, "implementation panicked")
  | .delegate node error => some (node, error.message)
  | .branch node error => some (node, error.message)
  | .subflowIdMissing node => some (node, "invalid config: subflowId is required")
  | .subflowNotReusable node subflow uses =>
      some (node, s!"subflow '{subflow}' is not reusable but is used by {uses} nodes")
  | .subflowFailed node subflow first => some (node, s!"subflow '{subflow}' failed: {first}")
  | .undeclaredOutput node subflow key =>
      some (node, s!"invalid config: node has no output '{key}' declared by subflow '{subflow}'")
  | _ => none

def message (error : NodeError) : String :=
  match error with
  | .nodeNotFound node => s!"node '{node}' not found"
  | .depthExceeded limit => s!"maximum execution depth {limit} exceeded"
  | .timeout node millis => s!"node '{node}' timed out after {durationText millis}"
  | .subflowNotFound subflow => s!"subflow '{subflow}' not found"
  | error =>
      match error.detail? with
      | some (node, detail) => s!"node '{node}' failed: {detail}"
      | none => ""

end NodeError

structure Engine where
  registry : Registry
  library : Library
  limits : Limits

/-- Where a run starts: at its triggers alone, or, if there are none, at every
node that no connection leads to. -/
inductive Entry where
  | triggers
  | triggersOrRoots
deriving DecidableEq, Repr

namespace Entry

def starts (entry : Entry) (graph : Graph) (report : Graph.Report) : List String :=
  match entry with
  | .triggers => report.triggers
  | .triggersOrRoots => if report.triggers.isEmpty then graph.roots else report.triggers

end Entry

/-- Activates a node of a graph with an input, and everything downstream of it.
Gives the payload of the node, or nothing if it failed. -/
abbrev Visit := Graph → Path → String → Json → Running (Option Json)

namespace Run

def fail (path : Path) (node : String) (error : NodeError) : Running Unit := do
  let now := (← Running.world).instant
  Running.record fun execution =>
    (execution.setStatus node .error).recordError (some node) error.message now
  Running.log (some node) .error error.message none
  Running.publish path fun run => .nodeFailed run node error.message

def start (path : Path) (node : Node) : Running Unit := do
  Running.record fun execution => execution.enter node.id
  Running.publish path fun run => .nodeStarted run node.id
  Running.log (some node.id) .info s!"node '{node.title}' ({node.templateId}) started" none

def succeed (path : Path) (node : Node) (outcome : Outcome) : Running Unit := do
  Running.record fun execution => execution.setStatus node.id .success
  Running.publish path fun run => .nodeSucceeded run node.id
  Running.log (some node.id) .info s!"node '{node.title}' finished"
    (some (.object [("ports", Json.strings outcome.ports)]))

/-- The connections that leave the fired outputs, output by output.  An output
that the node does not have leaves a warning. -/
def branches (graph : Graph) (node : Node) : List String → Running (List Connection)
  | [] => return []
  | key :: keys => do
      match node.output? key with
      | some port =>
          let rest ← branches graph node keys
          return graph.outgoing ⟨node.id, port.id⟩ ++ rest
      | none =>
          Running.log (some node.id) .warn s!"node '{node.title}' has no output port '{key}'" none
          branches graph node keys

/-- Starts an activation at the end of every connection that leaves a fired
output.  Where there is none, the run ends on the node. -/
def follow (visit : Visit) (graph : Graph) (path : Path) (node : Node) (outcome : Outcome) :
    Running Unit := do
  let connections ← branches graph node outcome.ports
  if connections.isEmpty then Running.endOn node.id outcome.payload
  else
    discard <| Activity.all <| connections.mapIdx fun index connection =>
      visit graph (path ++ [.follow index connection]) connection.target.nodeId outcome.payload

/-- Visits the targets of a loop's output one after another. -/
def runBody (visit : Visit) (graph : Graph) (path : Path) (node : Node) (round : Nat)
    (key : String) (payload : Json) : Running (List (Option Json)) :=
  match node.output? key with
  | none => return []
  | some port =>
      let connections := graph.outgoing ⟨node.id, port.id⟩
      connections.zipIdx.mapM fun (connection, index) =>
        visit graph (path ++ [.body round index connection]) connection.target.nodeId payload

/-- What a branching node finds around itself in a run. -/
def surroundings (visit : Visit) (graph : Graph) (path : Path) (node : Node) :
    Surroundings (Activity RunState) where
  body := runBody visit graph path node
  warn message := Running.log (some node.id) .warn message none

/-- What a call of a delegate comes to.  One that takes longer than allowed is
given up at the limit. -/
def callResult (limit : Nat) (node : Node) (reply : Reply) : Except NodeError Json :=
  if reply.delay ≤ limit then
    match reply.ending with
    | .returned output => .ok output
    | .failed error => .error (.delegate node.id error)
    | .panicked => .error (.panicked node.id)
  else .error (.timeout node.id limit)

/-- Hands the input to the delegate of the node's template. -/
def callDelegate (engine : Engine) (path : Path) (node : Node) (input : Json) :
    Running (Except NodeError Json) := do
  match Fields.get? engine.registry node.templateId with
  | none => return .error (.noImplementation node.id node.templateId)
  | some delegate =>
      Running.noteCall ⟨path, node.templateId, input⟩
      let reply := delegate node input
      Running.sleep (min reply.delay engine.limits.nodeTimeout)
      return callResult engine.limits.nodeTimeout node reply

def openRecord {ο : Type} (path : Path) (graph : Graph) : Activity (World × ο) Execution :=
  Activity.modifyGet fun (world, outer) =>
    let (id, world) := world.freshId
    let execution := Execution.start id graph.id world.instant
    (execution, world.publish path (.runStarted id graph.id), outer)

def closeRecord {ο : Type} (path : Path) (tally : Tally) : Activity (World × ο) Tally :=
  Activity.modifyGet fun (world, outer) =>
    let execution := tally.execution.finish world.instant
    let world := world.publish path (.runFinished execution.id execution.status)
    ({ tally with execution }, world.keep path execution, outer)

/-- What a run does, with `visit` for its starting nodes.  A graph that does not
pass its check fails without an activation. -/
def attempt (visit : Visit) (path : Path) (graph : Graph) (input : Json) (entry : Entry) :
    Running Unit := do
  match graph.check with
  | .error error =>
      Running.log none .error s!"graph validation failed: {error.message}" none
      let now := (← Running.world).instant
      Running.record fun execution => execution.recordError none error.message now
  | .ok report =>
      discard <| Activity.all <| (entry.starts graph report).mapIdx fun index node =>
        visit graph (path ++ [.start index]) node input

/-- Runs a graph as a run of its own. -/
def wholeGraph {ο : Type} (visit : Visit) (path : Path) (graph : Graph) (input : Json)
    (entry : Entry) : Activity (World × ο) Tally := do
  let execution ← openRecord path graph
  let (_, tally) ← (attempt visit path graph input entry).within (⟨execution, []⟩ : Tally)
  closeRecord path tally

/-- The outputs that a nested run fires which ended on the given body nodes. -/
def firedOutputs (node : Node) (definition : Subflow) (reached : List String) :
    Except NodeError (List String) :=
  if definition.outputs.isEmpty then
    .ok (node.outputKeys.filter fun key => key != errorPort)
  else
    let fired := definition.declaredOutputs.filter fun port =>
      match Fields.get? definition.outputSources port.key with
      | some source => reached.contains source
      | none => true
    fired.mapM fun port =>
      if (node.output? port.key).isSome then .ok port.key
      else .error (.undeclaredOutput node.id definition.id port.key)

/-- What a nested run ended on: the only payload, or an object with the payloads
under the ids of their nodes. -/
def terminalPayload (terminal : List (String × Json)) : Json :=
  match terminal with
  | [(_, payload)] => payload
  | terminal => Json.record terminal

/-- What a nested run gives to the node that stands for it. -/
def nestedOutcome (node : Node) (definition : Subflow) (input : Json) (tally : Tally) :
    Except NodeError Outcome :=
  if tally.execution.status = .failed then
    let messages := tally.execution.errors.map (·.message)
    let first := messages.headD "unknown error"
    if (node.output? errorPort).isSome then
      .ok ⟨[errorPort], .object
        [("error", .string first), ("errors", Json.strings messages), ("input", input)]⟩
    else .error (.subflowFailed node.id definition.id first)
  else do
    let ports ← firedOutputs node definition (tally.terminal.map (·.1))
    return ⟨ports, definition.outputMapping.apply (terminalPayload tally.terminal)⟩

/-- The definition that a node stands for.  One that is not reusable stands
behind at most one node of a graph. -/
def definitionOf (engine : Engine) (graph : Graph) (node : Node) : Except NodeError Subflow :=
  let id := (node.configText? "subflowId").getD ""
  if id.isEmpty then .error (.subflowIdMissing node.id)
  else
    match Fields.get? engine.library id with
    | none => .error (.subflowNotFound id)
    | some definition =>
        let users := graph.nodes.filter fun other =>
          other.templateId = subflowTemplate && other.configText? "subflowId" = some id
        if !definition.reusable && 1 < users.length then
          .error (.subflowNotReusable node.id id users.length)
        else .ok definition

/-- Runs the definition behind a node as a run of its own. -/
def callSubflow (engine : Engine) (visit : Visit) (graph : Graph) (path : Path) (node : Node)
    (input : Json) : Running (Except NodeError Outcome) := do
  match definitionOf engine graph node with
  | .error error => return .error error
  | .ok definition =>
      let id ← Activity.modifyGet fun (world, tally) =>
        let (id, world) := world.freshId
        (id, world, tally)
      let tally ← wholeGraph visit path (definition.toGraph id)
        (definition.inputMapping.apply input) .triggersOrRoots
      match nestedOutcome node definition input tally with
      | .error error => return .error error
      | .ok outcome =>
          let nested := tally.execution
          Running.log (some node.id) .info
            s!"subflow run {nested.id.text} finished as {nested.status.word}"
            (some (.object
              [ ("executedNodes", .nat nested.executedNodes.length),
                ("status", .string nested.status.word),
                ("subflowExecutionId", .string nested.id.text)]))
          return .ok outcome

def perform (engine : Engine) (visit : Visit) (graph : Graph) (path : Path) (node : Node)
    (input : Json) : Running (Except NodeError Outcome) := do
  match node.kind with
  | .trigger => return .ok (.all node input)
  | .condition =>
      if Branching.isLoop node.templateId then
        Running.record fun execution => execution.setStatus node.id .waiting
      let result ← Branching.evaluate (surroundings visit graph path node)
        engine.limits.maxWhileIterations node input
      return result.mapError (.branch node.id)
  | .action | .data =>
      if node.templateId = subflowTemplate then
        callSubflow engine visit graph path node input
      else
        let result ← callDelegate engine path node input
        return result.map (.all node)

/-- One activation: it starts, lets the others have their turns, does its work
and starts what follows. -/
def activate (engine : Engine) (visit : Visit) (graph : Graph) (path : Path) (node : Node)
    (input : Json) : Running (Option Json) := do
  start path node
  Activity.pause
  match ← perform engine visit graph path node input with
  | .error error =>
      fail path node.id error
      return none
  | .ok outcome =>
      succeed path node outcome
      follow visit graph path node outcome
      return some outcome.payload

/-- Activates a node from which `left` more activations may follow one another,
itself among them. -/
def visit (engine : Engine) : (left : Nat) → Visit
  | 0, graph, path, node, _ => do
      match graph.node? node with
      | none => fail path node (.nodeNotFound node)
      | some _ => fail path node (.depthExceeded engine.limits.maxDepth)
      return none
  | left + 1, graph, path, node, input => do
      match graph.node? node with
      | none =>
          fail path node (.nodeNotFound node)
          return none
      | some node => activate engine (visit engine left) graph path node input

end Run

namespace Engine

def run (engine : Engine) (graph : Graph) (input : Json) (entry : Entry) (world : World) :
    World × Execution :=
  let activity : Activity (World × Unit) Tally :=
    Run.wholeGraph (Run.visit engine engine.limits.maxDepth) [] graph input entry
  let ((world, _), tally) :=
    activity.run (fun time (world, rest) => (world.advance time, rest)) (world, ())
  (world, tally.execution)

/-- Does the work of one node alone, with nothing connected to it. -/
def runNode (engine : Engine) (node : Node) (input : Json) (world : World) :
    World × Except NodeError Outcome :=
  let (graphId, world) := world.freshId
  let (id, world) := world.freshId
  let graph : Graph := ⟨graphId, "node test", [node], []⟩
  let tally : Tally := ⟨Execution.start id graphId world.instant, []⟩
  let activity :=
    Run.perform engine (Run.visit engine (engine.limits.maxDepth - 1)) graph [] node input
  let ((world, _), result) :=
    activity.run (fun time (world, tally) => (world.advance time, tally)) (world, tally)
  (world, result)

end Engine

end Workflow
