import Workflow.Delegate

/-! Stand-ins for delegates, to try a graph without the services it needs. -/

namespace Workflow.Delegate

/-- The fields of the input, the name of the stand-in under `node`, and the
fields of a fixed value on top. -/
def tagged (name : String) (value input : Json) : Json :=
  .object (Fields.merge (Fields.insert "node" (.string name) input.fields) value.fields)

def returning (name : String) (value : Json) : Delegate := fun _ input =>
  ⟨0, .returned (tagged name value input)⟩

def failing (message : String) : Delegate := fun _ _ =>
  ⟨0, .failed (.fatal message)⟩

def delayed (name : String) (millis : Nat) (value : Json) : Delegate := fun _ input =>
  ⟨millis, .returned (tagged name value input)⟩

def panicking : Delegate := fun _ _ =>
  ⟨0, .panicked⟩

end Workflow.Delegate
