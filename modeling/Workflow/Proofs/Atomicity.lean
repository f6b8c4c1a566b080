import Workflow.Proofs.ConsistentSessions
import Workflow.Workspace

/-! Commands are atomic.

A command takes several steps, and any of them may fail.  But every step that can fail comes
before all that change anything, so that a command does all it is to do or nothing at all:
`Workspace.carryOut_eq` says that it does what the editor does at once, and
`Workspace.carryOut_atomic` what becomes of the graph, its history and the subscribers.
-/

namespace Workflow

theorem Editor.perform_limit {editor after : Editor} {command : Command} {ids later : Ids}
    {change : Change} (performed : editor.perform command ids = (.ok (after, change), later)) :
    after.history.limit = editor.history.limit := by
  by_cases edits : command.edits
  · obtain ⟨graph, rfl, _⟩ := perform_edits edits performed
    rfl
  · have outcome := congrArg Prod.fst performed
    cases command with
    | undo =>
        simp only [perform, undo, History.undo] at outcome
        cases past : editor.history.past <;> rw [past] at outcome <;> cases outcome
        rfl
    | redo =>
        simp only [perform, redo, History.redo] at outcome
        cases future : editor.history.future <;> rw [future] at outcome <;> cases outcome
        rfl
    | applyStatuses =>
        cases outcome
        rfl
    | _ => contradiction

namespace Workspace

namespace Task

variable {α β : Type} (workspace : Workspace)

theorem get_bind (next : Workspace → Task α) :
    ((get : Task Workspace) >>= next) workspace = next workspace workspace :=
  rfl

/-- What is required and not there ends the task, and nothing has changed by it. -/
theorem require_bind (found : Option α) (error : EditError) (next : α → Task β) :
    (require found error >>= next) workspace =
      match found with
      | none => (.error error, workspace)
      | some value => next value workspace := by
  cases found <;> rfl

end Task

/-- Step by step, a command comes to the same as at once, and the change is told. -/
theorem carryOut_eq (workspace : Workspace) (command : Command) :
    workspace.carryOut command =
      match workspace.editor.perform command workspace.ids with
      | (.error error, later) => (.error error, { workspace with ids := later })
      | (.ok (after, change), later) =>
          (.ok change, ⟨after.graph, after.history, later, workspace.told ++ [change]⟩) := by
  cases command with
  | addSubflow | applyStatuses => rfl
  | add template position =>
      simp only [carryOut, Task.ofCommand, Task.require_bind, Editor.perform, Editor.add]
      cases Catalog.find? template <;> rfl
  | remove id =>
      simp only [carryOut, Task.ofCommand, Task.get_bind, Task.require_bind, Editor.perform,
        Editor.remove, editor]
      cases workspace.graph.node? id <;> rfl
  | duplicate id =>
      simp only [carryOut, Task.ofCommand, Task.get_bind, Task.require_bind, Editor.perform,
        Editor.duplicate, editor]
      cases workspace.graph.node? id <;> rfl
  | configure id key value =>
      simp only [carryOut, Task.ofCommand, Task.get_bind, Task.require_bind, Editor.perform,
        Editor.configure, editor]
      cases workspace.graph.node? id <;> rfl
  | retitle id title =>
      simp only [carryOut, Task.ofCommand, Task.get_bind, Task.require_bind, Editor.perform,
        Editor.retitle, editor]
      cases workspace.graph.node? id <;> rfl
  | connect sourceNode sourcePort targetNode targetPort =>
      simp only [carryOut, Task.ofCommand, Task.get_bind, Editor.perform, Editor.connect, editor]
      cases Editor.resolve workspace.graph sourceNode sourcePort targetNode targetPort <;> rfl
  | disconnect id =>
      simp only [carryOut, Task.ofCommand, Task.get_bind, Task.require_bind, Editor.perform,
        Editor.disconnect, editor]
      cases workspace.graph.connections.find? fun connection => connection.id = id <;> rfl
  | undo =>
      simp only [carryOut, Task.ofCommand, Task.travel, Task.get_bind, Task.require_bind,
        Editor.perform, Editor.undo, editor]
      cases workspace.history.undo workspace.graph.snapshot <;> rfl
  | redo =>
      simp only [carryOut, Task.ofCommand, Task.travel, Task.get_bind, Task.require_bind,
        Editor.perform, Editor.redo, editor]
      cases workspace.history.redo workspace.graph.snapshot <;> rfl

/-- A command that fails leaves all as it was: the graph, both sides of the history, the
supply, and what the subscribers know.  One that succeeds tells them of one change; if it
edits, the state before it becomes the latest of the past, as far as the limit has room, and
nothing is left to redo. -/
theorem carryOut_atomic (workspace : Workspace) (command : Command) :
    match workspace.editor.perform command workspace.ids with
    | (.error error, _) => workspace.carryOut command = (.error error, workspace)
    | (.ok (after, change), later) =>
        workspace.carryOut command =
          (.ok change, ⟨after.graph, after.history, later, workspace.told ++ [change]⟩) ∧
        after.history.limit = workspace.history.limit ∧
        (command.edits →
          after.history.past =
            (workspace.graph.snapshot :: workspace.history.past).take workspace.history.limit ∧
          after.history.future = []) := by
  have same := workspace.carryOut_eq command
  rcases performed : workspace.editor.perform command workspace.ids with
    ⟨error | ⟨after, change⟩, later⟩
  · rw [performed, Editor.perform_fails performed] at same
    exact same
  · rw [performed] at same
    refine ⟨same, Editor.perform_limit performed, fun edits => ?_⟩
    obtain ⟨graph, rfl, _⟩ := Editor.perform_edits edits performed
    exact ⟨rfl, rfl⟩

end Workspace

end Workflow
