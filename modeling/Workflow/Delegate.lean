import Workflow.Graph

/-! Delegates: what action and data nodes hand their work to. -/

namespace Workflow

inductive DelegateError where
  | invalidConfig (message : String)
  | fatal (message : String)
deriving DecidableEq, Repr

def DelegateError.message : DelegateError → String
  | .invalidConfig message => s!"invalid node config: {message}"
  | .fatal message => s!"node failed: {message}"

inductive Ending where
  | returned (output : Json)
  | failed (error : DelegateError)
  | panicked

/-- How a call ends, and after how many milliseconds. -/
structure Reply where
  delay : Nat
  ending : Ending

/-- The reply to a call is a function of the node and the input alone: a delegate does not
know of the calls before or of the time.  Only what compares two runs, `Proofs.Reference`
and `Proofs.Isolation`, needs that equal calls get equal replies; whatever else is proved
of runs takes each reply as it comes. -/
abbrev Delegate := Node → Json → Reply

abbrev Registry := Fields Delegate

namespace Delegate

def prompt (respond : Node → Json → Except DelegateError Json) : Delegate := fun node input =>
  match respond node input with
  | .ok output => ⟨0, .returned output⟩
  | .error error => ⟨0, .failed error⟩

end Delegate

end Workflow
