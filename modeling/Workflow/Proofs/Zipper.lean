import Workflow.Proofs.Session

/-! Undo and redo as moves through a line of states.

A zipper is a present state between the states of the past and those of the
future.  An editor is one, with a bound on its past that a redo never meets:
`Editor.session_moves` says so for every session.
-/

namespace Workflow

/-- A present state between those before and those after it, the nearest first. -/
structure Zipper (α : Type u) where
  past : List α
  present : α
  future : List α

inductive Zipper.Move (α : Type u) where
  | edit (after : α)
  | undo
  | redo
  | mark (after : α)
  | stay

/-- The state that a move brings in. -/
def Zipper.Move.brings {α : Type u} : Move α → Option α
  | .edit after | .mark after => some after
  | .undo | .redo | .stay => none

namespace Zipper

variable {α : Type u}

/-- Of more states than the limit the last one goes. -/
def dropOldest (limit : Nat) (states : List α) : List α :=
  if limit < states.length then states.dropLast else states

/-- An edit makes the present past and ends the future; undo and redo move by one
state; a mark changes the present alone. -/
def move (limit : Nat) : Zipper α → Move α → Zipper α
  | ⟨past, present, _⟩, .edit after => ⟨dropOldest limit (present :: past), after, []⟩
  | ⟨before :: past, present, future⟩, .undo => ⟨past, before, present :: future⟩
  | ⟨past, present, after :: future⟩, .redo => ⟨present :: past, after, future⟩
  | ⟨past, _, future⟩, .mark after => ⟨past, after, future⟩
  | zipper, _ => zipper

section

variable (limit : Nat) (zipper : Zipper α) (after : α)

@[simp] theorem move_edit :
    zipper.move limit (.edit after) =
      ⟨dropOldest limit (zipper.present :: zipper.past), after, []⟩ := by
  obtain ⟨_ | _, _, _ | _⟩ := zipper <;> rfl

@[simp] theorem move_mark :
    zipper.move limit (.mark after) = { zipper with present := after } := by
  obtain ⟨_ | _, _, _ | _⟩ := zipper <;> rfl

@[simp] theorem move_stay : zipper.move limit .stay = zipper := by
  obtain ⟨_ | _, _, _ | _⟩ := zipper <;> rfl

end

def All (holds : α → Prop) (zipper : Zipper α) : Prop :=
  (∀ state ∈ zipper.past, holds state) ∧ holds zipper.present ∧
    ∀ state ∈ zipper.future, holds state

theorem All.mono {holds weaker : α → Prop} {zipper : Zipper α} (all : zipper.All holds)
    (implies : ∀ state, holds state → weaker state) : zipper.All weaker :=
  ⟨fun state member => implies state (all.1 state member), implies _ all.2.1,
    fun state member => implies state (all.2.2 state member)⟩

theorem dropOldest_subset (limit : Nat) (states : List α) :
    dropOldest limit states ⊆ states := by
  unfold dropOldest
  split
  · exact (List.dropLast_sublist states).subset
  · exact List.Subset.refl _

theorem All.move {holds : α → Prop} {zipper : Zipper α} (all : zipper.All holds) (limit : Nat)
    {move : Move α} (brought : ∀ after, move.brings = some after → holds after) :
    (zipper.move limit move).All holds := by
  cases move with
  | edit after =>
      rw [move_edit]
      refine ⟨fun state member => ?_, brought after rfl, by simp⟩
      rcases List.mem_cons.mp (dropOldest_subset limit _ member) with rfl | old
      · exact all.2.1
      · exact all.1 state old
  | mark after =>
      rw [move_mark]
      exact ⟨all.1, brought after rfl, all.2.2⟩
  | stay =>
      rw [move_stay]
      exact all
  | undo =>
      obtain ⟨_ | ⟨before, past⟩, present, future⟩ := zipper
      · exact all
      · obtain ⟨old, here, new⟩ := all
        have moved : (⟨past, before, present :: future⟩ : Zipper α).All holds :=
          ⟨fun state member => old state (by simp [member]), old before (by simp),
            List.forall_mem_cons.mpr ⟨here, new⟩⟩
        cases future <;> exact moved
  | redo =>
      obtain ⟨past, present, _ | ⟨after, future⟩⟩ := zipper
      · cases past <;> exact all
      · obtain ⟨old, here, new⟩ := all
        have moved : (⟨present :: past, after, future⟩ : Zipper α).All holds :=
          ⟨List.forall_mem_cons.mpr ⟨here, old⟩, new after (by simp),
            fun state member => new state (by simp [member])⟩
        cases past <;> exact moved

end Zipper

namespace History

variable {α : Type u} {history : History α}

def Bounded (history : History α) : Prop :=
  history.past.length + history.future.length ≤ history.limit

theorem empty_bounded (limit : Nat) : (empty limit : History α).Bounded := by
  simp [Bounded, empty]

theorem push_past (bounded : history.Bounded) (state : α) :
    (history.push state).past = Zipper.dropOldest history.limit (state :: history.past) := by
  unfold Bounded at bounded
  simp only [push, Zipper.dropOldest]
  split
  · rename_i exceeds
    rw [List.dropLast_eq_take]
    congr 1
    simp only [List.length_cons] at exceeds ⊢
    omega
  · rename_i enough
    exact List.take_of_length_le (by omega)

/-- A redo has room for the state that it leaves. -/
theorem push_past_of_future (bounded : history.Bounded) (state : α) (ahead : history.future ≠ []) :
    (history.push state).past = state :: history.past := by
  have some := List.length_pos_iff.mpr ahead
  rw [push_past bounded, Zipper.dropOldest, if_neg]
  unfold Bounded at bounded
  simp only [List.length_cons]
  omega

theorem record_bounded (history : History α) (before : α) : (history.record before).Bounded := by
  simp only [Bounded, record, push, List.length_nil, Nat.add_zero]
  exact List.length_take_le _ _

end History

/-- A graph without what runs made of its nodes. -/
def Graph.unmarked (graph : Graph) : Graph :=
  { graph with nodes := graph.nodes.map fun node => { node with status := .idle } }

theorem Graph.modifyNode_unmarked (graph : Graph) (id : String) (status : Status) :
    (graph.modifyNode id fun node => { node with status }).unmarked = graph.unmarked := by
  have go (nodes : List Node) :
      (modifyNode.go id (fun node => { node with status }) nodes).map
        (fun node => { node with status := Status.idle }) =
      nodes.map fun node => { node with status := Status.idle } := by
    induction nodes with
    | nil => rfl
    | cons node rest ih =>
        simp only [modifyNode.go]
        split <;> simp [ih]
  simp only [unmarked, modifyNode, go]

theorem Graph.setStatuses_unmarked (graph : Graph) (statuses : Fields Status) :
    (graph.setStatuses statuses).unmarked = graph.unmarked := by
  unfold setStatuses
  induction statuses generalizing graph with
  | nil => rfl
  | cons entry rest ih =>
      rw [List.foldl_cons, ih]
      exact graph.modifyNode_unmarked entry.1 entry.2

namespace Editor

def zipper (editor : Editor) : Zipper Snapshot :=
  ⟨editor.history.past, editor.graph.snapshot, editor.history.future⟩

/-- What a command does to the states, as far as it succeeds. -/
def move (editor : Editor) (command : Command) (ids : Ids) : Zipper.Move Snapshot :=
  match (editor.perform command ids).1 with
  | .error _ => .stay
  | .ok (after, _) =>
      match command with
      | .undo => .undo
      | .redo => .redo
      | .applyStatuses _ => .mark after.graph.snapshot
      | _ => .edit after.graph.snapshot

/-- What a session does to the states. -/
def moves (editor : Editor) : List Command → Ids → List (Zipper.Move Snapshot)
  | [], _ => []
  | command :: rest, ids =>
      let (after, later) := editor.step command ids
      editor.move command ids :: after.moves rest later

variable {editor after : Editor} {change : Change}

theorem undo_eq (editor : Editor) :
    editor.undo =
      match editor.history.past with
      | [] => .error .nothingToUndo
      | before :: past =>
          .ok (⟨editor.graph.restore before, { editor.history with
            past, future := editor.graph.snapshot :: editor.history.future }⟩, .restored) := by
  unfold undo History.undo
  cases editor.history.past <;> rfl

theorem redo_eq (bounded : editor.history.Bounded) :
    editor.redo =
      match editor.history.future with
      | [] => .error .nothingToRedo
      | after :: future =>
          .ok (⟨editor.graph.restore after, { editor.history with
            past := editor.graph.snapshot :: editor.history.past, future }⟩, .restored) := by
  unfold redo History.redo
  cases ahead : editor.history.future with
  | nil => rfl
  | cons after future =>
      have room := History.push_past_of_future bounded editor.graph.snapshot (by simp [ahead])
      simp only [History.push] at room ⊢
      rw [room]

theorem bounded_of_undo (bounded : editor.history.Bounded)
    (undone : editor.undo = .ok (after, change)) :
    after.history.Bounded ∧ after.history.limit = editor.history.limit ∧
      ∀ limit, after.zipper = editor.zipper.move limit .undo := by
  rw [undo_eq] at undone
  cases before : editor.history.past with
  | nil =>
      rw [before] at undone
      contradiction
  | cons state past =>
      rw [before] at undone
      cases undone
      refine ⟨?_, rfl, fun limit => ?_⟩
      · simp only [History.Bounded, before, List.length_cons] at bounded ⊢
        omega
      · simp [zipper, before, Zipper.move, Graph.snapshot, Graph.restore]

theorem bounded_of_redo (bounded : editor.history.Bounded)
    (redone : editor.redo = .ok (after, change)) :
    after.history.Bounded ∧ after.history.limit = editor.history.limit ∧
      ∀ limit, after.zipper = editor.zipper.move limit .redo := by
  rw [redo_eq bounded] at redone
  cases ahead : editor.history.future with
  | nil =>
      rw [ahead] at redone
      contradiction
  | cons state future =>
      rw [ahead] at redone
      cases redone
      refine ⟨?_, rfl, fun limit => ?_⟩
      · simp only [History.Bounded, ahead, List.length_cons] at bounded ⊢
        omega
      · cases past : editor.history.past <;>
          simp [zipper, ahead, past, Zipper.move, Graph.snapshot, Graph.restore]

/-- What was undone can be redone, and then all is as it was. -/
theorem redo_of_undo (bounded : editor.history.Bounded)
    (undone : editor.undo = .ok (after, change)) : after.redo = .ok (editor, .restored) := by
  rw [redo_eq (bounded_of_undo bounded undone).1]
  rw [undo_eq] at undone
  obtain ⟨graph, past, future, limit⟩ := editor
  cases past with
  | nil => contradiction
  | cons before past =>
      cases undone
      rfl

theorem undo_of_redo (bounded : editor.history.Bounded)
    (redone : editor.redo = .ok (after, change)) : after.undo = .ok (editor, .restored) := by
  rw [redo_eq bounded] at redone
  rw [undo_eq]
  obtain ⟨graph, past, future, limit⟩ := editor
  cases future with
  | nil => contradiction
  | cons ahead future =>
      cases redone
      rfl

theorem step_eq (editor : Editor) (command : Command) (ids : Ids) :
    editor.step command ids =
      match editor.perform command ids with
      | (.ok (after, _), later) => (after, later)
      | (.error _, later) => (editor, later) := by
  unfold step
  simp only [bind, StateT.bind]
  rcases editor.perform command ids with ⟨_ | ⟨_, _⟩, _⟩ <;> rfl

theorem move_of_edits {command : Command} {ids later : Ids} (edits : command.edits)
    (performed : editor.perform command ids = (.ok (after, change), later)) :
    editor.move command ids = .edit after.graph.snapshot := by
  unfold move
  rw [performed]
  cases command with
  | undo | redo | applyStatuses => contradiction
  | _ => rfl

theorem step_moves (bounded : editor.history.Bounded) (command : Command) (ids : Ids) :
    (editor.step command ids).1.history.Bounded ∧
    (editor.step command ids).1.history.limit = editor.history.limit ∧
    (editor.step command ids).1.zipper =
      editor.zipper.move editor.history.limit (editor.move command ids) := by
  rw [step_eq]
  cases performed : editor.perform command ids with
  | mk outcome later =>
      cases outcome with
      | error error => exact ⟨bounded, rfl, by simp [move, performed]⟩
      | ok result =>
          obtain ⟨after, change⟩ := result
          dsimp only
          by_cases edits : command.edits
          · obtain ⟨graph, rfl, _⟩ := perform_edits edits performed
            rw [move_of_edits edits performed, Zipper.move_edit]
            refine ⟨History.record_bounded _ _, rfl, ?_⟩
            simp only [zipper, commit, History.record, History.push_past bounded]
          · cases command with
            | undo =>
                have undone : editor.undo = .ok (after, change) := congrArg Prod.fst performed
                obtain ⟨kept, same, moves⟩ := bounded_of_undo bounded undone
                exact ⟨kept, same, by rw [moves editor.history.limit, move, performed]⟩
            | redo =>
                have redone : editor.redo = .ok (after, change) := congrArg Prod.fst performed
                obtain ⟨kept, same, moves⟩ := bounded_of_redo bounded redone
                exact ⟨kept, same, by rw [moves editor.history.limit, move, performed]⟩
            | applyStatuses statuses =>
                have applied := Except.ok.inj (congrArg Prod.fst performed)
                obtain ⟨rfl, _⟩ := Prod.mk.inj applied
                refine ⟨bounded, rfl, ?_⟩
                rw [move, performed, Zipper.move_mark]
                rfl
            | _ => contradiction

/-- What holds of an editor at any time: undo and redo work as far as there are states
to go to, take each other back, and drop none; what fails changes nothing; and a
run's statuses are all that a mark changes. -/
structure Reversible (editor : Editor) : Prop where
  bounded : editor.zipper.past.length + editor.zipper.future.length ≤ editor.history.limit
  canUndo : (∃ after, editor.undo = .ok after) ↔ editor.history.canUndo
  canRedo : (∃ after, editor.redo = .ok after) ↔ editor.history.canRedo
  undone : ∀ after change, editor.undo = .ok (after, change) → after.redo = .ok (editor, .restored)
  redone : ∀ after change, editor.redo = .ok (after, change) → after.undo = .ok (editor, .restored)
  failed : ∀ command ids error later, editor.perform command ids = (.error error, later) →
    editor.step command ids = (editor, later)
  marked : ∀ statuses,
    (editor.applyStatuses statuses).1.history = editor.history ∧
    (editor.applyStatuses statuses).1.graph.unmarked = editor.graph.unmarked

theorem reversible_of_bounded (bounded : editor.history.Bounded) : editor.Reversible where
  bounded := bounded
  canUndo := by
    rw [undo_eq, History.canUndo]
    cases editor.history.past <;> simp
  canRedo := by
    rw [redo_eq bounded, History.canRedo]
    cases editor.history.future <;> simp
  undone _ _ := redo_of_undo bounded
  redone _ _ := undo_of_redo bounded
  failed command ids error later failed := by rw [step_eq, failed]
  marked statuses := ⟨rfl, editor.graph.setStatuses_unmarked statuses⟩

/-- A session with a new editor is a walk with a zipper, whose past is bounded. -/
theorem session_moves (graph : Graph) (limit : Nat) (commands : List Command) (ids : Ids) :
    ((new graph limit).session commands ids).1.zipper =
      ((new graph limit).moves commands ids).foldl (Zipper.move (max limit 1))
        ⟨[], graph.snapshot, []⟩ ∧
    ((new graph limit).session commands ids).1.history.limit = max limit 1 ∧
    ((new graph limit).session commands ids).1.Reversible := by
  have walk (editor : Editor) (bounded : editor.history.Bounded) :
      (editor.session commands ids).1.history.Bounded ∧
      (editor.session commands ids).1.history.limit = editor.history.limit ∧
      (editor.session commands ids).1.zipper =
        (editor.moves commands ids).foldl (Zipper.move editor.history.limit) editor.zipper := by
    induction commands generalizing editor ids with
    | nil => exact ⟨bounded, rfl, rfl⟩
    | cons command rest ih =>
        obtain ⟨kept, same, moved⟩ := step_moves bounded command ids
        obtain ⟨keeps, still, moves⟩ := ih (editor.step command ids).2 _ kept
        refine ⟨keeps, still.trans same, ?_⟩
        rw [same, moved] at moves
        exact moves
  obtain ⟨bounded, same, moves⟩ := walk (new graph limit) (History.empty_bounded limit)
  exact ⟨moves, same, reversible_of_bounded bounded⟩

end Editor

end Workflow
