import Mathlib.Data.List.Perm.Subperm
import Mathlib.Logic.Relation
import Workflow.Proofs.WellFormed

/-! Where no two connections lead to one node.

Then the way back from a node is the only one, and what is reached from where no
connection leads is reached after one number of steps.  It is on no cycle, and
the number of steps is smaller than the number of nodes.
-/

namespace Workflow.Graph

variable {graph : Graph} {start other middle name : String} {count steps : Nat}

def Leads (graph : Graph) (source target : String) : Prop :=
  ∃ connection ∈ graph.connections,
    connection.source.nodeId = source ∧ connection.target.nodeId = target

def Solitary (graph : Graph) : Prop :=
  ∀ first ∈ graph.connections, ∀ second ∈ graph.connections,
    first.target.nodeId = second.target.nodeId → first = second

def Initial (graph : Graph) (name : String) : Prop :=
  ∀ connection ∈ graph.connections, connection.target.nodeId ≠ name

/-- The node with the last name is so many connections behind the one with the first. -/
inductive Below (graph : Graph) : Nat → String → String → Prop
  | here (name : String) : Below graph 0 name name
  | step {count : Nat} {first middle last : String} (below : Below graph count first middle)
      (leads : graph.Leads middle last) : Below graph (count + 1) first last

theorem Solitary.leads_unique (solitary : graph.Solitary) (leads : graph.Leads start name)
    (again : graph.Leads other name) : start = other := by
  obtain ⟨first, one, rfl, rfl⟩ := leads
  obtain ⟨second, two, rfl, same⟩ := again
  rw [solitary first one second two same.symm]

namespace Below

theorem trans (below : graph.Below count start middle) (further : graph.Below steps middle name) :
    graph.Below (count + steps) start name := by
  induction further with
  | here => exact below
  | step _ leads ih => exact (ih below).step leads

theorem origin_unique (solitary : graph.Solitary) (below : graph.Below count start name)
    (again : graph.Below count other name) : start = other := by
  induction count generalizing name with
  | zero =>
      cases below
      cases again
      rfl
  | succ count ih =>
      cases below with
      | step below leads =>
          cases again with
          | step again leadsAgain =>
              obtain rfl := solitary.leads_unique leads leadsAgain
              exact ih below again

/-- Going back from a node ends where no connection leads, after one number of steps. -/
theorem count_unique (solitary : graph.Solitary) (initial : graph.Initial start)
    (alike : graph.Initial other) (below : graph.Below count start name)
    (again : graph.Below steps other name) : count = steps := by
  induction count generalizing name steps with
  | zero =>
      cases below
      cases again with
      | here => rfl
      | step _ leads =>
          obtain ⟨connection, inside, _, ends⟩ := leads
          exact absurd ends (initial connection inside)
  | succ count ih =>
      cases below with
      | step below leads =>
          cases again with
          | here =>
              obtain ⟨connection, inside, _, ends⟩ := leads
              exact absurd ends (alike connection inside)
          | step again leadsAgain =>
              obtain rfl := solitary.leads_unique leads leadsAgain
              rw [ih below again]

theorem of_transGen (cycle : Relation.TransGen graph.Leads start name) :
    ∃ count, graph.Below (count + 1) start name := by
  induction cycle with
  | single leads => exact ⟨0, (here start).step leads⟩
  | tail _ leads ih =>
      obtain ⟨count, below⟩ := ih
      exact ⟨count + 1, below.step leads⟩

theorem not_cyclic (solitary : graph.Solitary) (initial : graph.Initial start)
    (below : graph.Below count start name) : ¬ Relation.TransGen graph.Leads name name := by
  intro cycle
  obtain ⟨round, around⟩ := of_transGen cycle
  have same := count_unique solitary initial initial below (below.trans around)
  omega

theorem known (reaches : ∀ connection ∈ graph.connections,
      (graph.node? connection.target.nodeId).isSome)
    (known : (graph.node? start).isSome) (below : graph.Below count start name) :
    (graph.node? name).isSome := by
  cases below with
  | here => exact known
  | step _ leads =>
      obtain ⟨connection, inside, _, rfl⟩ := leads
      exact reaches connection inside

/-- The nodes on the way to a node are different ones. -/
theorem count_lt_length (solitary : graph.Solitary)
    (reaches : ∀ connection ∈ graph.connections,
      (graph.node? connection.target.nodeId).isSome)
    (initial : graph.Initial start) (known : (graph.node? start).isSome)
    (below : graph.Below count start name) : count < graph.nodes.length := by
  -- the nodes on the way, of which each lies fewer steps down than the next
  have way : ∃ names : List String, names.length = count + 1 ∧ names.Nodup ∧
      ∀ name ∈ names, name ∈ graph.nodes.map (·.id) ∧
        ∃ steps ≤ count, graph.Below steps start name := by
    induction below with
    | here name =>
        refine ⟨[name], rfl, by simp, fun other member => ?_⟩
        obtain rfl := List.mem_singleton.mp member
        exact ⟨mem_ids_of_node? known, 0, Nat.le_refl 0, .here other⟩
    | @step count first middle last below leads ih =>
        obtain ⟨names, length, distinct, all⟩ := ih initial known
        have further := below.step leads
        have new : last ∉ names := by
          intro old
          obtain ⟨_, steps, fewer, sooner⟩ := all last old
          have same := count_unique solitary initial initial sooner further
          omega
        refine ⟨last :: names, by simp [length], List.nodup_cons.mpr ⟨new, distinct⟩, ?_⟩
        intro name member
        rcases List.mem_cons.mp member with rfl | old
        · exact ⟨mem_ids_of_node? (further.known reaches known), count + 1, Nat.le_refl _, further⟩
        · obtain ⟨here, steps, fewer, sooner⟩ := all name old
          exact ⟨here, steps, Nat.le_succ_of_le fewer, sooner⟩
  obtain ⟨names, length, distinct, all⟩ := way
  have bound := (List.subperm_of_subset distinct fun name member => (all name member).1).length_le
  rw [List.length_map] at bound
  omega

end Below

end Workflow.Graph
