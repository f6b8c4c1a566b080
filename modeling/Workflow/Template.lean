import Workflow.Json

/-! Node templates: plain data from which the nodes of a graph are made. -/

namespace Workflow

inductive Kind where
  | trigger
  | action
  | condition
  | data
deriving DecidableEq, Repr, Inhabited

inductive Category where
  | triggers
  | actions
  | conditions
  | data
  | integrations
  | ai
deriving DecidableEq, Repr, Inhabited

inductive Direction where
  | input
  | output
deriving DecidableEq, Repr, Inhabited

def Direction.word : Direction → String
  | .input => "input"
  | .output => "output"

/-- The type of a port that takes and gives anything. -/
def anyType : String := "any"

/-- A port that every node of a template has. -/
structure PortTemplate where
  key : String
  direction : Direction
  dataType : String
deriving DecidableEq, Repr

structure Template where
  id : String
  kind : Kind
  category : Category
  title : String
  description : String
  ports : List PortTemplate
  defaultConfig : Fields Json
deriving Repr

namespace Template

def portsOf (template : Template) (direction : Direction) : List PortTemplate :=
  template.ports.filter fun port => port.direction = direction

def outputs (template : Template) : List PortTemplate :=
  template.portsOf .output

def inputs (template : Template) : List PortTemplate :=
  template.portsOf .input

end Template

end Workflow
