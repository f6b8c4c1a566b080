import Mathlib.Data.List.DropRight
import Workflow.Proofs.Consistency
import Workflow.Storage

/-! Tables are what was written to them last.

Whatever is asked of empty tables, a look-up and a listing afterwards can be told from the calls
alone: an execution record is the one that was inserted last with its id, and a graph is as it
was saved last, and as old as the first saving since it was deleted.
`Storage.tables_tell_calls` says so.
-/

namespace Workflow

namespace Instant

theorem le_iff {a b : Instant} :
    a.le b = true ↔ a.seconds < b.seconds ∨ a.seconds = b.seconds ∧ a.nanos ≤ b.nanos := by
  simp [le]

theorem le_trans (a b c : Instant) (first : a.le b = true) (second : b.le c = true) :
    a.le c = true := by
  rw [le_iff] at *
  omega

theorem le_total (a b : Instant) : (a.le b || b.le a) = true := by
  rw [Bool.or_eq_true, le_iff, le_iff]
  omega

end Instant

/-- What writes to the tables of graphs and of execution records. -/
inductive TableCall where
  | insertExecution (row : ExecutionRow)
  | saveGraph (id : Uuid) (name : String) (definition : Json) (now : Instant)
  | deleteGraph (id : Uuid)

/-- A graph as it was saved once. -/
structure GraphVersion where
  name : String
  definition : Json
  savedAt : Instant

namespace TableCall

/-- The record that a call inserts, if it has the given id. -/
def record? (id : Uuid) : TableCall → Option ExecutionRow
  | .insertExecution row => if row.id = id then some row else none
  | _ => none

/-- How a call saves the graph with the given id, if it does. -/
def version? (id : Uuid) : TableCall → Option GraphVersion
  | .saveGraph saved name definition now =>
      if saved = id then some ⟨name, definition, now⟩ else none
  | _ => none

def deletes (id : Uuid) : TableCall → Bool
  | .deleteGraph deleted => deleted = id
  | _ => false

end TableCall

namespace Storage

/-- What a call leaves of the tables.  One that fails leaves them as they are. -/
def perform (storage : Storage) : TableCall → Storage
  | .insertExecution row => storage.insertExecution row
  | .saveGraph id name definition now => (storage.saveGraph id name definition now).2
  | .deleteGraph id =>
      match storage.deleteGraph id with
      | .ok after => after
      | .error _ => storage

/-- What some calls make of empty tables. -/
def ofCalls (calls : List TableCall) : Storage :=
  calls.foldl perform empty

/-- The last record that was inserted with an id. -/
def lastRecord? (calls : List TableCall) (id : Uuid) : Option ExecutionRow :=
  (calls.filterMap (·.record? id)).getLast?

/-- How a graph was saved since it was deleted last, in order. -/
def versions (calls : List TableCall) (id : Uuid) : List GraphVersion :=
  (calls.rtakeWhile fun call => !call.deletes id).filterMap (·.version? id)

/-- The row that a graph should have: the last version of it, created with the first. -/
def lastGraph? (calls : List TableCall) (id : Uuid) : Option GraphRow := do
  let first ← (versions calls id).head?
  let last ← (versions calls id).getLast?
  return ⟨id, last.name, last.definition, first.savedAt, last.savedAt⟩

section Rows

variable {α : Type} {key : α → Uuid} {rows : List α}

/-- Without the rows of one key, those of all others are found as before. -/
theorem find?_filter_ne (key : α → Uuid) (rows : List α) (id other : Uuid) :
    (rows.filter fun row => key row ≠ id).find? (fun row => key row = other) =
      if id = other then none else rows.find? fun row => key row = other := by
  rw [List.find?_filter]
  split
  next same =>
    subst same
    simp
  next apart =>
    congr 1
    funext row
    by_cases here : key row = other
    · simp [here, Ne.symm apart]
    · simp [here]

/-- Where keys do not repeat, the rows are those that are found. -/
theorem mem_iff_find? (distinct : (rows.map key).Nodup) (row : α) :
    row ∈ rows ↔ rows.find? (fun other => key other = key row) = some row :=
  ⟨Graph.find?_of_nodup distinct, List.mem_of_find?_eq_some⟩

theorem filter_ne_of_find? (key : α → Uuid) {id : Uuid}
    (missing : rows.find? (fun row => key row = id) = none) :
    (rows.filter fun row => key row ≠ id) = rows :=
  List.filter_eq_self.mpr fun row member => by simpa using List.find?_eq_none.mp missing row member

end Rows

section Writing

variable (storage : Storage) (row : ExecutionRow) (id other : Uuid) (name : String)
  (definition : Json) (now : Instant)

theorem execution?_insertExecution :
    (storage.insertExecution row).execution? row.id = some row := by
  rw [execution?, insertExecution, List.find?_append, find?_filter_ne ExecutionRow.id]
  simp

theorem execution?_insertExecution_ne {row : ExecutionRow} {id : Uuid} (other : row.id ≠ id) :
    (storage.insertExecution row).execution? id = storage.execution? id := by
  rw [execution?, insertExecution, List.find?_append, find?_filter_ne ExecutionRow.id]
  simp [execution?, other]

theorem graph?_saveGraph :
    (storage.saveGraph id name definition now).2.graph? other =
      if id = other then
        some ⟨id, name, definition, ((storage.graph? id).map (·.createdAt)).getD now, now⟩
      else storage.graph? other := by
  simp only [saveGraph, graph?, List.find?_cons, find?_filter_ne GraphRow.id]
  by_cases same : id = other
  · subst same
    cases storage.graphs.find? fun row => row.id = id <;> simp
  · simp [same]

/-- Deleting fails exactly where there is no row, and then there is none to take out. -/
theorem deleteGraph_eq_error_iff :
    storage.deleteGraph id = .error .rowNotFound ↔ storage.graph? id = none := by
  unfold deleteGraph
  cases storage.graph? id <;> simp

theorem perform_deleteGraph :
    storage.perform (.deleteGraph id) =
      { storage with graphs := storage.graphs.filter fun row => row.id ≠ id } := by
  rw [perform, deleteGraph]
  cases found : storage.graph? id with
  | none => rw [filter_ne_of_find? GraphRow.id found]
  | some row => rfl

end Writing

theorem lastRecord?_append (calls : List TableCall) (call : TableCall) (id : Uuid) :
    lastRecord? (calls ++ [call]) id = (call.record? id).or (lastRecord? calls id) := by
  rw [lastRecord?, List.filterMap_append]
  cases inserted : call.record? id <;> simp [lastRecord?, inserted]

theorem versions_append (calls : List TableCall) (call : TableCall) (id : Uuid) :
    versions (calls ++ [call]) id =
      if call.deletes id then [] else versions calls id ++ (call.version? id).toList := by
  rw [versions, List.rtakeWhile_concat]
  cases call.deletes id with
  | true => simp
  | false => cases saved : call.version? id <;> simp [versions, List.filterMap_append, saved]

/-- A graph that has versions keeps the date of the first one when it is saved again. -/
theorem lastGraph?_save (calls : List TableCall) (id : Uuid) (name : String) (definition : Json)
    (now : Instant) :
    lastGraph? (calls ++ [.saveGraph id name definition now]) id =
      some ⟨id, name, definition, ((lastGraph? calls id).map (·.createdAt)).getD now, now⟩ := by
  rw [lastGraph?, lastGraph?, versions_append]
  cases saved : versions calls id with
  | nil => simp [TableCall.deletes, TableCall.version?]
  | cons first rest =>
      have before : (first :: rest).getLast? = some _ := List.getLast?_eq_some_getLast (by simp)
      have after (version : GraphVersion) :
          (first :: (rest ++ [version])).getLast? = some version := by
        rw [← List.cons_append, List.getLast?_concat]
      simp [TableCall.deletes, TableCall.version?, before, after]

/-- Calls that neither save a graph nor delete it leave it as it is. -/
theorem lastGraph?_other (calls : List TableCall) {call : TableCall} {id : Uuid}
    (keeps : call.deletes id = false) (saves : call.version? id = none) :
    lastGraph? (calls ++ [call]) id = lastGraph? calls id := by
  simp [lastGraph?, versions_append, keeps, saves]

theorem lastGraph?_delete (calls : List TableCall) (id : Uuid) :
    lastGraph? (calls ++ [.deleteGraph id]) id = none := by
  simp [lastGraph?, versions_append, TableCall.deletes]

/-- The tables hold what the calls have left in them, no row twice. -/
structure Keeps (storage : Storage) (calls : List TableCall) : Prop where
  executions : ∀ id, storage.execution? id = lastRecord? calls id
  graphs : ∀ id, storage.graph? id = lastGraph? calls id
  executionIds : (storage.executions.map (·.id)).Nodup
  graphIds : (storage.graphs.map (·.id)).Nodup

namespace Keeps

variable {storage : Storage} {calls : List TableCall}

theorem empty : Keeps Storage.empty [] :=
  ⟨fun _ => rfl, fun _ => rfl, .nil, .nil⟩

theorem insertExecution (keeps : storage.Keeps calls) (row : ExecutionRow) :
    (storage.perform (.insertExecution row)).Keeps (calls ++ [.insertExecution row]) where
  executions id := by
    rw [lastRecord?_append, TableCall.record?]
    by_cases same : row.id = id
    · rw [if_pos same, ← same]
      exact storage.execution?_insertExecution row
    · rw [if_neg same, ← keeps.executions]
      exact storage.execution?_insertExecution_ne same
  graphs id := by
    rw [lastGraph?_other calls rfl rfl]
    exact keeps.graphs id
  executionIds := by
    have others := keeps.executionIds.sublist
      ((List.filter_sublist (p := fun other : ExecutionRow => other.id ≠ row.id)).map (·.id))
    simp only [perform, Storage.insertExecution, List.map_append, List.map_cons, List.map_nil]
    refine others.append (List.nodup_singleton _) (List.disjoint_singleton.mpr ?_)
    simp
  graphIds := keeps.graphIds

theorem saveGraph (keeps : storage.Keeps calls) (id : Uuid) (name : String) (definition : Json)
    (now : Instant) :
    (storage.perform (.saveGraph id name definition now)).Keeps
      (calls ++ [.saveGraph id name definition now]) where
  executions other := by
    rw [lastRecord?_append]
    exact keeps.executions other
  graphs other := by
    rw [perform, graph?_saveGraph, keeps.graphs id, keeps.graphs other]
    by_cases same : id = other
    · rw [if_pos same, ← same, lastGraph?_save]
    · have saves : (TableCall.saveGraph id name definition now).version? other = none :=
        if_neg same
      rw [if_neg same, lastGraph?_other calls rfl saves]
  executionIds := keeps.executionIds
  graphIds := by
    have others := keeps.graphIds.sublist
      ((List.filter_sublist (p := fun other : GraphRow => other.id ≠ id)).map (·.id))
    simp only [perform, Storage.saveGraph, List.map_cons]
    refine others.cons ?_
    simp

theorem deleteGraph (keeps : storage.Keeps calls) (id : Uuid) :
    (storage.perform (.deleteGraph id)).Keeps (calls ++ [.deleteGraph id]) where
  executions other := by
    rw [lastRecord?_append, perform_deleteGraph]
    exact keeps.executions other
  graphs other := by
    rw [perform_deleteGraph, graph?, find?_filter_ne GraphRow.id]
    by_cases same : id = other
    · rw [if_pos same, ← same, lastGraph?_delete]
    · have stays : (TableCall.deleteGraph id).deletes other = false := decide_eq_false same
      rw [if_neg same, lastGraph?_other calls stays rfl]
      exact keeps.graphs other
  executionIds := by
    rw [perform_deleteGraph]
    exact keeps.executionIds
  graphIds := by
    rw [perform_deleteGraph]
    exact keeps.graphIds.sublist (List.filter_sublist.map _)

/-- Whatever is called, the tables hold what the calls have left in them. -/
theorem ofCalls (calls : List TableCall) : (Storage.ofCalls calls).Keeps calls := by
  induction calls using List.reverseRecOn with
  | nil => exact .empty
  | append_singleton calls call ih =>
      rw [Storage.ofCalls, List.foldl_append]
      cases call with
      | insertExecution row => exact ih.insertExecution row
      | saveGraph id name definition now => exact ih.saveGraph id name definition now
      | deleteGraph id => exact ih.deleteGraph id

end Keeps

/-- A listing: the wanted rows, every id once, the latest first. -/
structure Lists {α : Type} (rows : List α) (id : α → Uuid) (date : α → Instant)
    (wanted : α → Prop) : Prop where
  members : ∀ row, row ∈ rows ↔ wanted row
  distinct : (rows.map id).Nodup
  latest : rows.Pairwise fun earlier later => (date later).le (date earlier)

theorem lists_mergeSort {α : Type} {rows : List α} {id : α → Uuid} (date : α → Instant)
    {wanted : α → Prop} (distinct : (rows.map id).Nodup)
    (members : ∀ row, row ∈ rows ↔ wanted row) :
    Lists (rows.mergeSort fun a b => (date b).le (date a)) id date wanted where
  members row := by rw [List.mem_mergeSort, members]
  distinct := ((List.mergeSort_perm rows _).map id).nodup_iff.mpr distinct
  latest := List.pairwise_mergeSort
    (fun a b c first second => Instant.le_trans (date c) (date b) (date a) second first)
    (fun a b => Instant.le_total (date b) (date a)) rows

/-- After any calls, a look-up finds the record that was inserted last with its id, and the graph
as it was saved last, created when it was first saved since it was deleted last.  Listings have
exactly these rows, each once and the latest first.  Deleting fails exactly where there is no
such graph, and then changes nothing. -/
theorem tables_tell_calls (calls : List TableCall) :
    (∀ id, (ofCalls calls).execution id = found (lastRecord? calls id)) ∧
    (∀ graphId, Lists ((ofCalls calls).listExecutions graphId) (·.id) (·.startedAt) fun row =>
      lastRecord? calls row.id = some row ∧ row.graphId = graphId) ∧
    (∀ id, (ofCalls calls).graph id = found (lastGraph? calls id)) ∧
    Lists (ofCalls calls).listGraphs (·.id) (·.createdAt) (fun row =>
      lastGraph? calls row.id = some row) ∧
    ∀ id,
      ((ofCalls calls).deleteGraph id = .error .rowNotFound ↔ lastGraph? calls id = none) ∧
      (lastGraph? calls id = none →
        (ofCalls calls).perform (.deleteGraph id) = ofCalls calls) := by
  have keeps := Keeps.ofCalls calls
  refine ⟨fun id => ?_, fun graphId => ?_, fun id => ?_, ?_, fun id => ⟨?_, fun missing => ?_⟩⟩
  · rw [execution, keeps.executions]
  · refine lists_mergeSort ExecutionRow.startedAt
      (keeps.executionIds.sublist (List.filter_sublist.map _)) fun row => ?_
    rw [List.mem_filter, mem_iff_find? keeps.executionIds, ← keeps.executions, execution?,
      decide_eq_true_iff]
  · rw [graph, keeps.graphs]
  · refine lists_mergeSort GraphRow.createdAt keeps.graphIds fun row => ?_
    rw [mem_iff_find? keeps.graphIds, ← keeps.graphs, graph?]
  · rw [deleteGraph_eq_error_iff, keeps.graphs]
  · have absent : (ofCalls calls).graph? id = none := by rw [keeps.graphs, missing]
    rw [perform_deleteGraph, filter_ne_of_find? GraphRow.id absent]

end Storage

end Workflow
