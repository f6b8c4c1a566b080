import Workflow.Expr.Eval
import Workflow.Graph.Instance
import Workflow.Json.Shape

/-! What branching nodes do.

A branching node chooses one of its outputs.  Loops first run what hangs on
their body output, once per round and never two rounds at a time.  A condition
that cannot be evaluated counts as false and leaves a warning.
-/

namespace Workflow

/-- The result of a node: its payload and the outputs it fires. -/
structure Outcome where
  ports : List String
  payload : Json
deriving Repr

namespace Outcome

def single (port : String) (payload : Json) : Outcome :=
  ⟨[port], payload⟩

def all (node : Node) (payload : Json) : Outcome :=
  ⟨node.outputKeys, payload⟩

end Outcome

inductive BranchError where
  | badCases (reason : ShapeError)
  | badRules (reason : ShapeError)
  | missingPort (port : String)
  | notAnArray (found : Json)
  | badIterationCap (found : Json)
  | unknownTemplate (template : String)

def BranchError.message : BranchError → String
  | .badCases reason => s!"invalid config: cases: {reason.message}"
  | .badRules reason => s!"invalid config: rules: {reason.message}"
  | .missingPort port => s!"invalid config: no output port '{port}' for the selected route"
  | .notAnArray found => s!"invalid config: for-loop needs an array, got {found.render}"
  | .badIterationCap found =>
      "invalid config: maxIterations must be a non-negative integer in range, got " ++
        found.render
  | .unknownTemplate template => s!"unknown condition template '{template}'"

/-- What a branching node needs from the run it is part of: running everything
connected to one of its outputs, in the given round, with one result per target
and `none` for a target that failed; and leaving a warning. -/
structure Surroundings (m : Type → Type) where
  body : (round : Nat) → (port : String) → Json → m (List (Option Json))
  warn : String → m Unit

namespace Branching

variable {m : Type → Type} [Monad m]

/-- The fields of a payload with others on top; what is no object has none. -/
def spread (payload : Json) (extra : Fields Json) : Json :=
  .object (Fields.merge payload.fields extra)

def holds (surroundings : Surroundings m) (condition : String) (payload : Json) : m Bool :=
  match Expr.holds condition payload with
  | .ok result => pure result
  | .error failure => do
      surroundings.warn
        s!"condition '{condition}' failed to evaluate, treating as false: {failure.message}"
      pure false

def route (node : Node) (port : String) (payload : Json) : Except BranchError Outcome :=
  if (node.output? port).isSome then .ok (.single port payload) else .error (.missingPort port)

def ifElse (surroundings : Surroundings m) (node : Node) (input : Json) : m Outcome := do
  let condition := (node.configText? "condition").getD "false"
  let port := if ← holds surroundings condition input then "true" else "false"
  return .single port input

/-- The values that the cases of a switch stand for. -/
def caseValues (node : Node) : Except BranchError (List Json) :=
  match Fields.get? node.config "cases" with
  | none => .ok []
  | some raw =>
      let case (value : Json) : Except ShapeError Json :=
        (Json.expectRecord "SwitchCase" [("value", .ok)] value).map fun found =>
          found.headD .null
      (Json.expectList case raw).mapError .badCases

/-- The port of the first case that is the same as the subject. -/
def casePort (cases : List Json) (subject : Json) : String :=
  match cases.findIdx? fun value => value.same subject with
  | some i => s!"case{i + 1}"
  | none => "default"

/-- Compares the input, or what the configured field expression makes of it, with
the cases in turn.  An expression without a value goes to the default output. -/
def switch (surroundings : Surroundings m) (node : Node) (input : Json) :
    m (Except BranchError Outcome) :=
  match caseValues node with
  | .error error => pure (.error error)
  | .ok cases =>
      let field := (node.configText? "field").getD ""
      if field.isEmpty then pure (route node (casePort cases input) input)
      else
        match Expr.value field input with
        | .ok subject => pure (route node (casePort cases subject) input)
        | .error failure => do
            surroundings.warn
              s!"switch field '{field}' failed to evaluate: {failure.message}"
            return .ok (.single "default" input)

/-- The value that a for-loop goes over: that of the configured expression, or
else the input itself or its field `items`. -/
def itemSource (surroundings : Surroundings m) (node : Node) (input : Json) : m Json :=
  let path := (node.configText? "items").getD ""
  if path.isEmpty then
    match input with
    | .array items => pure (.array items)
    | other => pure ((other.field? "items").getD .null)
  else
    match Expr.value path input with
    | .ok value => pure value
    | .error failure => do
        surroundings.warn s!"for-loop items '{path}' failed to evaluate: {failure.message}"
        pure .null

def items : Json → Except BranchError (List Json)
  | .array items => .ok items
  | .null => .ok []
  | other => .error (.notAnArray other)

/-- The result of a round: what its only target gave, an array of what its
targets gave, or the payload itself if there is no target.  Null stands for a
failure. -/
def roundResult (payload : Json) (outputs : List (Option Json)) : Json :=
  match outputs with
  | [] => payload
  | [output] => output.getD .null
  | outputs => .array (outputs.map fun output => output.getD .null)

def itemPayload (input item : Json) (index : Nat) : Json :=
  spread input [("index", .nat index), ("item", item)]

def forEach (surroundings : Surroundings m) (input : Json) : Nat → List Json → m (List Json)
  | _, [] => pure []
  | index, item :: rest => do
      let payload := itemPayload input item index
      let outputs ← surroundings.body index "item" payload
      let results ← forEach surroundings input (index + 1) rest
      return roundResult payload outputs :: results

def forLoop (surroundings : Surroundings m) (node : Node) (input : Json) :
    m (Except BranchError Outcome) := do
  match items (← itemSource surroundings node input) with
  | .error error => return .error error
  | .ok items =>
      let results ← forEach surroundings input 0 items
      return .ok (.single "complete"
        (spread input [("count", .nat results.length), ("results", .array results)]))

/-- The object results of a round on top of its payload, in target order. -/
def accumulate (payload : Json) (outputs : List (Option Json)) : Json :=
  outputs.foldl
    (fun payload output =>
      match output with
      | some (.object fields) => spread payload fields
      | _ => payload)
    payload

def roundPayload (payload : Json) (round : Nat) : Json :=
  spread payload [("iteration", .nat round)]

/-- Repeats the body at most `left` more times, as long as the condition holds.
Returns the payload at the end and the number of rounds. -/
def repeatWhile (surroundings : Surroundings m) (condition : String) :
    (left : Nat) → (round : Nat) → Json → m (Json × Nat)
  | 0, round, payload => pure (payload, round)
  | left + 1, round, payload => do
      if ← holds surroundings condition payload then
        let start := roundPayload payload round
        let outputs ← surroundings.body round "loop" start
        repeatWhile surroundings condition left (round + 1) (accumulate start outputs)
      else return (payload, round)

def iterationCap (node : Node) (default : Nat) : Except BranchError Nat :=
  match Fields.get? node.config "maxIterations" with
  | none | some .null => .ok default
  | some value =>
      match value.natural? with
      | some cap => .ok cap
      | none => .error (.badIterationCap value)

def whileLoop (surroundings : Surroundings m) (node : Node) (input : Json) (default : Nat) :
    m (Except BranchError Outcome) := do
  match iterationCap node default with
  | .error error => return .error error
  | .ok cap =>
      let condition := (node.configText? "condition").getD "false"
      let (payload, rounds) ← repeatWhile surroundings condition cap 0 input
      if rounds = cap ∧ 0 < cap then
        surroundings.warn s!"while-loop stopped at its cap of {cap} iterations"
      return .ok (.single "exit" (spread payload [("iterations", .nat rounds)]))

/-- The rules of a router: conditions and the outputs they choose. -/
def routeRules (node : Node) : Except BranchError (List (String × String)) :=
  match Fields.get? node.config "rules" with
  | none => .ok []
  | some raw =>
      let rule (value : Json) : Except ShapeError (String × String) :=
        (Json.expectRecord "RouteRule"
          [("condition", Json.expectText), ("output", Json.expectText)] value).map
          fun found => (found.getD 0 "", found.getD 1 "")
      (Json.expectList rule raw).mapError .badRules

/-- The output of the first rule whose condition holds. -/
def firstRoute (surroundings : Surroundings m) (default : String) (payload : Json) :
    List (String × String) → m String
  | [] => pure default
  | (condition, output) :: rest => do
      if ← holds surroundings condition payload then return output
      else firstRoute surroundings default payload rest

def router (surroundings : Surroundings m) (node : Node) (input : Json) :
    m (Except BranchError Outcome) := do
  match routeRules node with
  | .error error => return .error error
  | .ok rules =>
      let default := (node.configText? "defaultOutput").getD "default"
      let port ← firstRoute surroundings default input rules
      return route node port input

/-- Whether nodes of a template run a body of their own. -/
def isLoop (template : String) : Bool :=
  template = forTemplate || template = whileTemplate

/-- Runs a branching node.  `maxIterations` bounds while-loops that name no bound
of their own. -/
def evaluate (surroundings : Surroundings m) (maxIterations : Nat) (node : Node) (input : Json) :
    m (Except BranchError Outcome) :=
  if node.templateId = ifTemplate then Except.ok <$> ifElse surroundings node input
  else if node.templateId = switchTemplate then switch surroundings node input
  else if node.templateId = forTemplate then forLoop surroundings node input
  else if node.templateId = whileTemplate then whileLoop surroundings node input maxIterations
  else if node.templateId = routerTemplate then router surroundings node input
  else pure (.error (.unknownTemplate node.templateId))

end Branching

end Workflow
