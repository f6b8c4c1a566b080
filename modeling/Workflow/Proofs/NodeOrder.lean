import Mathlib.Data.Fintype.EquivFin
import Mathlib.Data.Fintype.Sets
import Mathlib.Data.List.Perm.Subperm
import Workflow.Proofs.Ancestry

/-! The order of nodes is right.

`Graph.Taking` are the states of the loop that orders nodes, one settled connection at a
time: the nodes taken, the counts, the targets still to be settled for the node taken last,
and the queue.  In each of them the counts say which connections are open, so none is
lowered that is not positive, and when the queue is empty, a node that was not taken waits
for another one that was not.
-/

namespace Workflow

namespace Graph

theorem Waiting.count_add (waiting : Waiting) (id other : String) (amount : Int) :
    (waiting.add id amount).count other =
      waiting.count other + if id = other then amount else 0 := by
  by_cases same : id = other
  · subst same
    simp [count, add]
  · simp [count, add, Fields.get?_insert_ne same, same]

variable {graph : Graph}

def ids (graph : Graph) : List String :=
  graph.nodes.map (·.id)

/-- The nodes that the queue starts with. -/
def unawaited (graph : Graph) : List String :=
  graph.ids.filter fun id => graph.initialWaiting.count id = 0

/-- The states that the loop goes through. -/
inductive Taking (graph : Graph) : (taken : List String) → Waiting →
    (targets queue : List String) → Prop
  | start : Taking graph [] graph.initialWaiting [] graph.unawaited
  | take {taken : List String} {waiting : Waiting} {id : String} {queue : List String}
      (taking : Taking graph taken waiting [] (id :: queue)) :
      Taking graph (taken ++ [id]) waiting (graph.successors id) queue
  | settle {taken : List String} {waiting : Waiting} {target : String}
      {targets queue : List String}
      (taking : Taking graph taken waiting (target :: targets) queue) :
      Taking graph taken (waiting.add target (-1)) targets
        (queue ++ if (waiting.add target (-1)).count target = 0 then [target] else [])

/-- The number of connections to a node from nodes that were not taken. -/
def openTo (graph : Graph) (taken : List String) (id : String) : Nat :=
  graph.connections.countP fun connection =>
    connection.target.nodeId = id ∧ connection.source.nodeId ∉ taken

theorem openTo_eq_zero_iff {taken : List String} {id : String} :
    graph.openTo taken id = 0 ↔ ∀ connection ∈ graph.connections,
      connection.target.nodeId = id → connection.source.nodeId ∈ taken := by
  simp [openTo]

theorem count_initialWaiting (graph : Graph) (id : String) :
    graph.initialWaiting.count id = graph.openTo [] id := by
  have onward (connections : List Connection) (waiting : Waiting) :
      (connections.foldl (fun waiting connection => waiting.add connection.target.nodeId 1)
          waiting).count id =
        waiting.count id + connections.countP fun connection => connection.target.nodeId = id := by
    induction connections generalizing waiting with
    | nil => simp
    | cons connection rest ih =>
        rw [List.foldl_cons, ih, Waiting.count_add, List.countP_cons]
        by_cases same : connection.target.nodeId = id <;> simp [same]
        omega
  have counted := onward graph.connections []
  simpa [openTo, Waiting.count, initialWaiting] using counted

/-- Taking a node leaves the connections from it to be settled. -/
theorem openTo_take {taken : List String} {id : String} (new : id ∉ taken) (name : String) :
    graph.openTo taken name =
      graph.openTo (taken ++ [id]) name + (graph.successors id).count name := by
  unfold openTo successors
  induction graph.connections with
  | nil => rfl
  | cons connection rest ih =>
      by_cases leaves : connection.source.nodeId = id <;>
        by_cases enters : connection.target.nodeId = name <;>
          by_cases old : connection.source.nodeId ∈ taken <;>
            simp_all <;> omega

/-- What holds in every state of the loop. -/
structure Counted (graph : Graph) (taken : List String) (waiting : Waiting)
    (targets queue : List String) : Prop where
  distinct : (taken ++ queue).Nodup
  known : taken ++ queue ⊆ graph.ids
  reached : targets ⊆ graph.ids
  counts : ∀ id, waiting.count id = graph.openTo taken id + targets.count id
  placed : ∀ id ∈ graph.ids, id ∈ taken ++ queue ↔ waiting.count id = 0
  forward : ∀ connection ∈ graph.connections, connection.target.nodeId ∈ taken →
    taken.idxOf connection.source.nodeId < taken.idxOf connection.target.nodeId

namespace WellFormed

variable (wellFormed : graph.WellFormed)

include wellFormed

theorem source_mem {connection : Connection} (member : connection ∈ graph.connections) :
    connection.source.nodeId ∈ graph.ids := by
  obtain ⟨source, _, leaves, _⟩ := wellFormed.joined connection member
  obtain ⟨node, found, _⟩ := Option.bind_eq_some_iff.mp leaves
  exact List.mem_map.mpr ⟨node, mem_of_node? found⟩

theorem target_mem {connection : Connection} (member : connection ∈ graph.connections) :
    connection.target.nodeId ∈ graph.ids :=
  mem_ids_of_node? (wellFormed.reaches connection member)

theorem successors_subset (id : String) : graph.successors id ⊆ graph.ids := by
  intro name member
  obtain ⟨connection, leaving, rfl⟩ := List.mem_map.mp member
  exact wellFormed.target_mem (List.mem_filter.mp leaving).1

end WellFormed

namespace Counted

variable {taken targets queue : List String} {waiting : Waiting} {id target : String}

theorem start (wellFormed : graph.WellFormed) :
    graph.Counted [] graph.initialWaiting [] graph.unawaited where
  distinct := wellFormed.nodes.filter _
  known := List.filter_subset_self _
  reached := nofun
  counts id := by simp [count_initialWaiting]
  placed id member := by simp [unawaited, member]
  forward := nofun

/-- A node comes into the queue when every connection to it comes from a node that was
taken, so it stands behind all of these. -/
theorem take (wellFormed : graph.WellFormed)
    (counted : graph.Counted taken waiting [] (id :: queue)) :
    graph.Counted (taken ++ [id]) waiting (graph.successors id) queue := by
  have moved : taken ++ [id] ++ queue = taken ++ id :: queue := by simp
  have new : id ∉ taken := fun old =>
    (List.nodup_append.mp counted.distinct).2.2 id old id (by simp) rfl
  refine ⟨moved ▸ counted.distinct, moved ▸ counted.known, wellFormed.successors_subset id, ?_,
    moved ▸ counted.placed, ?_⟩
  · intro name
    have before := counted.counts name
    rw [openTo_take new] at before
    simpa using before
  · intro connection member enters
    rcases List.mem_append.mp enters with old | here
    · have sooner := counted.forward connection member old
      have present := sooner.trans (List.idxOf_lt_length_of_mem old)
      rw [List.idxOf_append_of_mem old,
        List.idxOf_append_of_mem (List.idxOf_lt_length_iff.mp present)]
      exact sooner
    · have same := List.mem_singleton.mp here
      have known : id ∈ graph.ids := counted.known (by simp)
      have settled := (counted.placed id known).mp (by simp)
      have none : graph.openTo taken id = 0 := by
        have counts := counted.counts id
        simp only [settled, List.count_nil] at counts
        omega
      have source := openTo_eq_zero_iff.mp none connection member same
      rw [same, List.idxOf_append_of_mem source, List.idxOf_append_of_notMem new]
      have place := List.idxOf_lt_length_of_mem source
      omega

theorem settle (counted : graph.Counted taken waiting (target :: targets) queue) :
    graph.Counted taken (waiting.add target (-1)) targets
      (queue ++ if (waiting.add target (-1)).count target = 0 then [target] else []) := by
  have counts (id : String) :
      (waiting.add target (-1)).count id = graph.openTo taken id + targets.count id := by
    have before := counted.counts id
    rw [Waiting.count_add, before, List.count_cons]
    by_cases same : target = id <;> simp [same]
    omega
  have known : target ∈ graph.ids := counted.reached (by simp)
  have waits : waiting.count target ≠ 0 := by
    have before := counted.counts target
    rw [List.count_cons_self] at before
    omega
  have absent : target ∉ taken ++ queue := fun old =>
    waits ((counted.placed target known).mp old)
  have unchanged {id : String} (other : target ≠ id) :
      (waiting.add target (-1)).count id = waiting.count id := by
    simp [Waiting.count_add, other]
  have reached : targets ⊆ graph.ids := fun id member => counted.reached (by simp [member])
  split
  · rename_i free
    refine ⟨?_, ?_, reached, counts, ?_, counted.forward⟩
    · rw [← List.append_assoc]
      exact counted.distinct.append (List.nodup_singleton target)
        (List.disjoint_singleton.mpr absent)
    · rw [← List.append_assoc]
      exact List.append_subset.mpr ⟨counted.known, by simpa using known⟩
    · intro id member
      by_cases same : target = id
      · subst same
        simp [free]
      · rw [unchanged same, ← counted.placed id member, ← List.append_assoc]
        simp [Ne.symm same]
  · rename_i waiting
    refine ⟨by simpa using counted.distinct, by simpa using counted.known, reached, counts, ?_,
      counted.forward⟩
    intro id member
    by_cases same : target = id
    · subst same
      simpa [waiting] using absent
    · rw [unchanged same, ← counted.placed id member, List.append_nil]

end Counted

theorem Taking.counted (wellFormed : graph.WellFormed) {taken targets queue : List String}
    {waiting : Waiting} (taking : graph.Taking taken waiting targets queue) :
    graph.Counted taken waiting targets queue := by
  induction taking with
  | start => exact .start wellFormed
  | take _ ih => exact ih.take wellFormed
  | settle _ ih => exact ih.settle

namespace Taking

variable {taken targets queue : List String} {waiting : Waiting}

/-- Settling all targets is settling them one after another. -/
theorem settled (taking : graph.Taking taken waiting targets queue) :
    graph.Taking taken (Graph.settle waiting targets).1 []
      (queue ++ (Graph.settle waiting targets).2) := by
  induction targets generalizing waiting queue with
  | nil => simpa [Graph.settle] using taking
  | cons target targets ih =>
      have onward := ih taking.settle
      simp only [Graph.settle]
      split <;> simp_all

/-- With a round for every node that was not taken, the loop goes on until its queue is
empty. -/
theorem drained (wellFormed : graph.WellFormed) {rounds : Nat}
    (taking : graph.Taking taken waiting [] queue)
    (enough : graph.ids.length ≤ taken.length + rounds) :
    ∃ last, graph.Taking (taken ++ graph.drain rounds waiting queue) last [] [] := by
  induction rounds generalizing taken waiting queue with
  | zero =>
      have counted := taking.counted wellFormed
      have bound := (List.subperm_of_subset counted.distinct counted.known).length_le
      have empty : queue = [] := by
        rw [List.length_append] at bound
        exact List.length_eq_zero_iff.mp (by omega)
      subst empty
      exact ⟨waiting, by simpa [drain] using taking⟩
  | succ rounds ih =>
      cases queue with
      | nil => exact ⟨waiting, by simpa [drain] using taking⟩
      | cons id queue =>
          have longer : graph.ids.length ≤ (taken ++ [id]).length + rounds := by
            simp only [List.length_append, List.length_singleton]
            omega
          obtain ⟨last, ends⟩ := ih taking.take.settled longer
          exact ⟨last, by simpa [drain] using ends⟩

end Taking

/-- What the loop takes, in the order in which it does. -/
def allTaken (graph : Graph) : List String :=
  graph.drain (graph.nodes.length + graph.connections.length) graph.initialWaiting graph.unawaited

theorem order?_eq_some_iff {order : List String} :
    graph.order? = some order ↔
      graph.allTaken.length = graph.ids.length ∧ graph.allTaken = order := by
  have same : graph.order? =
      if graph.allTaken.length = graph.nodes.length then some graph.allTaken else none := rfl
  rw [same, ids, List.length_map]
  split <;> simp_all

section Ended

variable (wellFormed : graph.WellFormed)

include wellFormed

theorem allTaken_ended : ∃ last, graph.Taking graph.allTaken last [] [] := by
  have enough : graph.ids.length ≤
      ([] : List String).length + (graph.nodes.length + graph.connections.length) := by
    simp only [ids, List.length_map, List.length_nil]
    omega
  simpa [allTaken] using Taking.start.drained wellFormed enough

theorem order?_forward {order : List String} (ordered : graph.order? = some order) :
    order.Perm graph.ids ∧ ∀ connection ∈ graph.connections,
      order.idxOf connection.source.nodeId < order.idxOf connection.target.nodeId := by
  obtain ⟨complete, rfl⟩ := order?_eq_some_iff.mp ordered
  obtain ⟨last, ended⟩ := allTaken_ended wellFormed
  have counted := ended.counted wellFormed
  have distinct : graph.allTaken.Nodup := by simpa using counted.distinct
  have known : graph.allTaken ⊆ graph.ids := by simpa using counted.known
  have all := (List.subperm_of_subset distinct known).perm_of_length_le complete.ge
  refine ⟨all, fun connection member => ?_⟩
  exact counted.forward connection member
    (all.mem_iff.mpr (wellFormed.target_mem member))

omit wellFormed in
/-- Where every connection leads forward in some list of nodes, none of them is on a cycle. -/
theorem acyclic_of_forward {order : List String}
    (forward : ∀ connection ∈ graph.connections,
      order.idxOf connection.source.nodeId < order.idxOf connection.target.nodeId) :
    ¬ ∃ name, Relation.TransGen graph.Leads name name := by
  rintro ⟨name, cycle⟩
  have further {first second : String} (way : Relation.TransGen graph.Leads first second) :
      order.idxOf first < order.idxOf second := by
    induction way with
    | single leads =>
        obtain ⟨connection, member, rfl, rfl⟩ := leads
        exact forward connection member
    | tail _ leads ih =>
        obtain ⟨connection, member, rfl, rfl⟩ := leads
        exact ih.trans (forward connection member)
  exact absurd (further cycle) (Nat.lt_irrefl _)

omit wellFormed in
/-- Where no node is on a cycle, going back from node to node ends. -/
theorem wellFounded_of_acyclic (acyclic : ¬ ∃ name, Relation.TransGen graph.Leads name name) :
    WellFounded fun first second : { name // name ∈ graph.ids } =>
      Relation.TransGen graph.Leads first.1 second.1 := by
  have : IsTrans { name // name ∈ graph.ids } fun first second =>
      Relation.TransGen graph.Leads first.1 second.1 :=
    ⟨fun _ _ _ sooner later => sooner.trans later⟩
  have : Std.Irrefl fun first second : { name // name ∈ graph.ids } =>
      Relation.TransGen graph.Leads first.1 second.1 := ⟨fun name around => acyclic ⟨_, around⟩⟩
  exact Finite.wellFounded_of_trans_of_irrefl _

/-- A node that is left over waits for another one, so without a cycle none is. -/
theorem Counted.complete {taken : List String} {waiting : Waiting}
    (counted : graph.Counted taken waiting [] [])
    (acyclic : ¬ ∃ name, Relation.TransGen graph.Leads name name) : graph.ids ⊆ taken := by
  have reached (name : { name // name ∈ graph.ids }) : name.1 ∈ taken := by
    induction name using (wellFounded_of_acyclic acyclic).induction with
    | _ name before =>
        have free : graph.openTo taken name.1 = 0 := by
          refine openTo_eq_zero_iff.mpr fun connection member enters => ?_
          exact before ⟨_, wellFormed.source_mem member⟩ (.single ⟨connection, member, rfl, enters⟩)
        have counts := counted.counts name.1
        have placed := (counted.placed name.1 name.2).mpr (by simpa [free] using counts)
        simpa using placed
  exact fun name member => reached ⟨name, member⟩

theorem order?_isSome_iff :
    graph.order?.isSome ↔ ¬ ∃ name, Relation.TransGen graph.Leads name name := by
  constructor
  · rintro some ⟨name, cycle⟩
    obtain ⟨order, ordered⟩ := Option.isSome_iff_exists.mp some
    exact acyclic_of_forward (order?_forward wellFormed ordered).2 ⟨name, cycle⟩
  · intro acyclic
    obtain ⟨last, ended⟩ := allTaken_ended wellFormed
    have counted := ended.counted wellFormed
    have fewer := (List.subperm_of_subset wellFormed.nodes
      (counted.complete wellFormed acyclic)).length_le
    have distinct : graph.allTaken.Nodup := by simpa using counted.distinct
    have known : graph.allTaken ⊆ graph.ids := by simpa using counted.known
    have most := (List.subperm_of_subset distinct known).length_le
    rw [Option.isSome_iff_exists]
    exact ⟨_, order?_eq_some_iff.mpr ⟨Nat.le_antisymm most fewer, rfl⟩⟩

end Ended

/-- For a graph that passes its check, an order is found exactly if no node is on a cycle, and
the report says so.  The order has every node once, the source of every connection before its
target.  The loop ends with nothing left in its queue, and no count is lowered that is not
positive. -/
theorem order?_correct {report : Report} (accepted : graph.check = .ok report) :
    (graph.order?.isSome ↔ ¬ ∃ name, Relation.TransGen graph.Leads name name) ∧
    (report.hasCycle = true ↔ ∃ name, Relation.TransGen graph.Leads name name) ∧
    (∀ order, graph.order? = some order →
      order.Perm graph.ids ∧ ∀ connection ∈ graph.connections,
        order.idxOf connection.source.nodeId < order.idxOf connection.target.nodeId) ∧
    (∃ last, graph.Taking graph.allTaken last [] []) ∧
    (∀ taken waiting target targets queue,
      graph.Taking taken waiting (target :: targets) queue → 1 ≤ waiting.count target) := by
  obtain ⟨wellFormed, rfl⟩ := check_eq_ok_iff.mp accepted
  have found := order?_isSome_iff wellFormed
  refine ⟨found, ?_, fun _ => order?_forward wellFormed, allTaken_ended wellFormed, ?_⟩
  · rw [← not_iff_not, ← found]
    simp [hasCycle, Option.isSome_iff_ne_none]
  · intro taken waiting target targets queue taking
    have counts := (taking.counted wellFormed).counts target
    rw [List.count_cons_self] at counts
    omega

end Graph

/-- A trigger that feeds both inputs of a node, which feeds a third one. -/
def twice : Graph :=
  let port (id : String) (direction : Direction) : Port := ⟨id, id, direction, anyType, false⟩
  let node (id : String) (kind : Kind) (inputs outputs : List Port) : Node :=
    ⟨id, id, kind, id, [], inputs, outputs, .idle, .origin⟩
  { id := .nil
    name := "twice"
    nodes :=
      [ node "last" .action [port "in" .input] [],
        node "both" .action [port "left" .input, port "right" .input] [port "out" .output],
        node "start" .trigger [] [port "one" .output, port "two" .output] ]
    connections :=
      [ ⟨"first", ⟨"start", "one"⟩, ⟨"both", "left"⟩, anyType⟩,
        ⟨"onward", ⟨"both", "out"⟩, ⟨"last", "in"⟩, anyType⟩,
        ⟨"second", ⟨"start", "two"⟩, ⟨"both", "right"⟩, anyType⟩ ] }

theorem order_of_twice_correct :
    twice.check = .ok ⟨["start"], false⟩ ∧ twice.order? = some ["start", "both", "last"] ∧
    (["start", "both", "last"].Perm twice.ids ∧ ∀ connection ∈ twice.connections,
      ["start", "both", "last"].idxOf connection.source.nodeId <
        ["start", "both", "last"].idxOf connection.target.nodeId) ∧
    ¬ ∃ name, Relation.TransGen twice.Leads name name := by
  have accepted : twice.check = .ok ⟨["start"], false⟩ := rfl
  have ordered : twice.order? = some ["start", "both", "last"] := rfl
  obtain ⟨found, _, forward, _⟩ := Graph.order?_correct accepted
  exact ⟨accepted, ordered, forward _ ordered, found.mp (ordered ▸ rfl)⟩

end Workflow
