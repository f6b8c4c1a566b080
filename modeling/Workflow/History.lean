/-! Bounded undo and redo.

The history of a document keeps states that it was in before (`past`, the latest
first) and states that were undone (`future`, the next one first).  The present
state is no part of it.  At most `limit` states of the past are kept.
-/

namespace Workflow

structure History (α : Type u) where
  past : List α
  future : List α
  limit : Nat
deriving Repr

namespace History

variable {α : Type u}

/-- Nothing to undo or redo.  At least one state is kept, whatever the limit. -/
def empty (limit : Nat) : History α :=
  ⟨[], [], max limit 1⟩

/-- Adds a state to the past; of too many the oldest goes. -/
def push (history : History α) (state : α) : History α :=
  { history with past := (state :: history.past).take history.limit }

/-- Notes the state before an edit.  What was undone cannot be redone then. -/
def record (history : History α) (before : α) : History α :=
  { history.push before with future := [] }

/-- The state before the last edit, and the history in that state. -/
def undo (history : History α) (present : α) : Option (α × History α) :=
  match history.past with
  | [] => none
  | before :: past =>
      some (before, { history with past, future := present :: history.future })

/-- The state that was undone last, and the history in that state. -/
def redo (history : History α) (present : α) : Option (α × History α) :=
  match history.future with
  | [] => none
  | after :: future => some (after, { history.push present with future })

def canUndo (history : History α) : Bool :=
  !history.past.isEmpty

def canRedo (history : History α) : Bool :=
  !history.future.isEmpty

theorem undo_isSome (history : History α) (present : α) :
    (history.undo present).isSome = history.canUndo := by
  cases past : history.past <;> simp [undo, canUndo, past]

theorem redo_isSome (history : History α) (present : α) :
    (history.redo present).isSome = history.canRedo := by
  cases future : history.future <;> simp [redo, canRedo, future]

end History

end Workflow
