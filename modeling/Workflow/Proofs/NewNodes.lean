import Mathlib.Data.List.Basic
import Workflow.Proofs.Naming
import Workflow.Subflow

/-! New nodes.

A node that is made from a template, a definition or another node has new names
throughout, every port in the list of its direction, and no connection.
-/

namespace Workflow

/-- The id of a node and the ids of its ports. -/
def Node.names (node : Node) : List String :=
  node.id :: node.ports.map (·.id)

structure Port.AllNew (direction : Direction) (ids later : Ids) (ports : List Port) : Prop where
  named : Named ids later (ports.map (·.id))
  free : ∀ port ∈ ports, port.direction = direction ∧ port.connected = false

/-- A node that is new in all its parts. -/
structure Node.New (ids later : Ids) (node : Node) : Prop where
  named : Named ids later node.names
  inputs : ∀ port ∈ node.inputs, port.direction = .input ∧ port.connected = false
  outputs : ∀ port ∈ node.outputs, port.direction = .output ∧ port.connected = false

namespace Port.AllNew

variable {direction : Direction} {ids middle later : Ids} {first second : List Port}

theorem none (direction : Direction) (ids : Ids) : AllNew direction ids ids [] :=
  ⟨.none ids, by simp⟩

theorem one (direction : Direction) (ids : Ids) (key dataType : String) :
    AllNew direction ids ⟨ids.next + 1⟩
      [⟨Uuid.name ids.next, key, direction, dataType, false⟩] where
  named := .one ids
  free port member := by
    obtain rfl := List.mem_singleton.mp member
    exact ⟨rfl, rfl⟩

theorem append (earlier : AllNew direction ids middle first)
    (further : AllNew direction middle later second) :
    AllNew direction ids later (first ++ second) where
  named := by
    rw [List.map_append]
    exact earlier.named.append further.named
  free port member := by
    rcases List.mem_append.mp member with inside | inside
    · exact earlier.free port inside
    · exact further.free port inside

theorem mapM {α : Type} {make : α → Fresh Port} (elements : List α)
    (each : ∀ element ∈ elements, ∀ ids,
      AllNew direction ids (make element ids).2 [(make element ids).1]) (ids : Ids) :
    AllNew direction ids (elements.mapM make ids).2 (elements.mapM make ids).1 := by
  induction elements generalizing ids with
  | nil => exact .none direction ids
  | cons element rest ih =>
      have first := each element (by simp) ids
      have others := ih (fun other member => each other (by simp [member])) (make element ids).2
      rw [List.mapM_cons]
      exact first.append others

end Port.AllNew

theorem Ids.name_eq (ids : Ids) : Ids.name ids = (Uuid.name ids.next, ⟨ids.next + 1⟩) :=
  rfl

theorem Ids.pure_eq {α : Type} (value : α) (ids : Ids) :
    (pure value : Fresh α) ids = (value, ids) :=
  rfl

theorem Port.ofTemplate_eq (template : PortTemplate) (ids : Ids) :
    ofTemplate template ids =
      (⟨Uuid.name ids.next, template.key, template.direction, template.dataType, false⟩,
        ⟨ids.next + 1⟩) := by
  simp only [ofTemplate, bind, StateT.bind, Ids.name_eq, Ids.pure_eq]

@[simp] theorem Port.ofTemplate_key (template : PortTemplate) (ids : Ids) :
    (ofTemplate template ids).1.key = template.key := by
  rw [ofTemplate_eq]

theorem Port.ofTemplate_new {template : PortTemplate} (ids : Ids) :
    AllNew template.direction ids (ofTemplate template ids).2 [(ofTemplate template ids).1] := by
  rw [ofTemplate_eq]
  exact .one _ ids _ _

theorem Port.freshCopy_eq (port : Port) (ids : Ids) :
    port.freshCopy ids =
      (⟨Uuid.name ids.next, port.key, port.direction, port.dataType, false⟩, ⟨ids.next + 1⟩) := by
  simp only [freshCopy, bind, StateT.bind, Ids.name_eq, Ids.pure_eq]

@[simp] theorem Port.freshCopy_key (port : Port) (ids : Ids) :
    (port.freshCopy ids).1.key = port.key := by
  -- With the new name spelled out, it would be computed to compare it with the old one.
  obtain ⟨name, shape⟩ : ∃ name, port.freshCopy ids =
      (⟨name, port.key, port.direction, port.dataType, false⟩, ⟨ids.next + 1⟩) :=
    ⟨_, port.freshCopy_eq ids⟩
  exact congrArg (fun pair => pair.1.key) shape

theorem Port.freshCopy_new (port : Port) (ids : Ids) :
    AllNew port.direction ids (port.freshCopy ids).2 [(port.freshCopy ids).1] := by
  rw [freshCopy_eq]
  exact .one _ ids _ _

theorem Template.portsOf_direction {template : Template} {direction : Direction}
    {port : PortTemplate} (member : port ∈ template.portsOf direction) :
    port.direction = direction :=
  of_decide_eq_true (List.mem_filter.mp member).2

namespace Node

theorem output?_isSome_iff (node : Node) (key : String) :
    (node.output? key).isSome ↔ key ∈ node.outputKeys := by
  simp [output?, outputKeys]

theorem map_mapM {α β : Type} {make : α → Fresh Port} {read : Port → β} {value : α → β}
    (each : ∀ element ids, read (make element ids).1 = value element) (elements : List α)
    (ids : Ids) : (elements.mapM make ids).1.map read = elements.map value := by
  induction elements generalizing ids with
  | nil => rfl
  | cons element rest ih =>
      rw [List.mapM_cons]
      exact congrArg₂ List.cons (each element ids) (ih _)

theorem keys_mapM {α : Type} {make : α → Fresh Port} {key : α → String}
    (each : ∀ element ids, (make element ids).1.key = key element) (elements : List α) (ids : Ids) :
    (elements.mapM make ids).1.map (·.key) = elements.map key :=
  map_mapM each elements ids

theorem addOutputs_cons (key : String) (keys : List String) (node : Node) (ids : Ids) :
    addOutputs (key :: keys) node ids =
      if (node.output? key).isSome then addOutputs keys node ids
      else
        addOutputs keys
          { node with
            outputs := node.outputs ++ [⟨Uuid.name ids.next, key, .output, anyType, false⟩] }
          ⟨ids.next + 1⟩ := by
  rw [addOutputs]
  split
  · rfl
  · simp only [bind, StateT.bind, Ids.name_eq]

/-- New outputs with the given keys. -/
def newOutputs (ids : Ids) (keys : List String) : List Port :=
  keys.mapIdx fun i key => ⟨Uuid.name (ids.next + i), key, .output, anyType, false⟩

theorem newOutputs_cons (ids : Ids) (key : String) (keys : List String) :
    newOutputs ids (key :: keys) =
      ⟨Uuid.name ids.next, key, .output, anyType, false⟩ :: newOutputs ⟨ids.next + 1⟩ keys := by
  simp only [newOutputs, List.mapIdx_cons, Nat.add_zero, Nat.add_assoc, Nat.add_comm 1]

theorem newOutputs_keys (ids : Ids) (keys : List String) :
    (newOutputs ids keys).map (·.key) = keys := by
  simp [newOutputs, List.mapIdx_eq_zipIdx_map, Function.comp_def]

theorem newOutputs_new (ids : Ids) (keys : List String) :
    Port.AllNew .output ids ⟨ids.next + keys.length⟩ (newOutputs ids keys) := by
  induction keys generalizing ids with
  | nil => exact .none .output ids
  | cons key rest ih =>
      rw [newOutputs_cons, List.length_cons, ← Nat.add_assoc, Nat.add_right_comm]
      exact (Port.AllNew.one .output ids key anyType).append (ih ⟨ids.next + 1⟩)

/-- Of the keys that a node should have outputs for, those that it has none for, in the order
in which they are first named. -/
structure Lacks (node : Node) (keys missing : List String) : Prop where
  members : ∀ key, key ∈ missing ↔ key ∈ keys ∧ key ∉ node.outputKeys
  ordered : missing.Pairwise fun first second => keys.idxOf first < keys.idxOf second

namespace Lacks

variable {node grown : Node} {key : String} {keys missing : List String}

theorem nil (node : Node) : node.Lacks [] [] :=
  ⟨by simp, .nil⟩

/-- With a key in front, the others stand one place further behind. -/
theorem ordered_cons (lacks : node.Lacks keys missing) (other : key ∉ missing) :
    missing.Pairwise fun first second =>
      (key :: keys).idxOf first < (key :: keys).idxOf second := by
  refine lacks.ordered.imp_of_mem fun {first second} left right less => ?_
  have differs : key ≠ first := fun same => other (same ▸ left)
  have apart : key ≠ second := fun same => other (same ▸ right)
  rw [List.idxOf_cons_ne _ differs, List.idxOf_cons_ne _ apart]
  exact Nat.succ_lt_succ less

theorem skip (lacks : node.Lacks keys missing) (present : key ∈ node.outputKeys) :
    node.Lacks (key :: keys) missing where
  members other := by
    rw [lacks.members, List.mem_cons]
    constructor
    · exact fun found => ⟨.inr found.1, found.2⟩
    · rintro ⟨rfl | named, absent⟩
      · exact absurd present absent
      · exact ⟨named, absent⟩
  ordered := lacks.ordered_cons fun lacked => ((lacks.members key).mp lacked).2 present

theorem add (absent : key ∉ node.outputKeys) (gains : grown.outputKeys = node.outputKeys ++ [key])
    (lacks : grown.Lacks keys missing) : node.Lacks (key :: keys) (key :: missing) := by
  have other : key ∉ missing := fun again => by
    have new := ((lacks.members key).mp again).2
    rw [gains] at new
    simp at new
  refine ⟨fun name => ?_, .cons (fun name later => ?_) (lacks.ordered_cons other)⟩
  · rw [List.mem_cons, List.mem_cons, lacks.members, gains]
    by_cases same : name = key
    · simp [same, absent]
    · simp [same]
  · have differs : key ≠ name := fun same => other (same ▸ later)
    rw [List.idxOf_cons_self, List.idxOf_cons_ne _ differs]
    exact Nat.succ_pos _

theorem nodup (lacks : node.Lacks keys missing) : missing.Nodup :=
  lacks.ordered.imp fun {_ _} less same => Nat.ne_of_lt less (congrArg (keys.idxOf ·) same)

end Lacks

/-- The loop that adds outputs also looks at those that it has added itself, so it adds one for
each key that is lacking. -/
theorem addOutputs_eq (keys : List String) (node : Node) (ids : Ids) :
    ∃ missing, node.Lacks keys missing ∧
      addOutputs keys node ids =
        ({ node with outputs := node.outputs ++ newOutputs ids missing },
          ⟨ids.next + missing.length⟩) := by
  induction keys generalizing node ids with
  | nil => exact ⟨[], .nil node, by simp [addOutputs, Ids.pure_eq, newOutputs]⟩
  | cons key rest ih =>
      rw [addOutputs_cons]
      by_cases present : (node.output? key).isSome
      · rw [if_pos present]
        obtain ⟨missing, lacks, same⟩ := ih node ids
        exact ⟨missing, lacks.skip ((node.output?_isSome_iff key).mp present), same⟩
      · rw [if_neg present]
        have absent : key ∉ node.outputKeys := fun known =>
          present ((node.output?_isSome_iff key).mpr known)
        obtain ⟨missing, lacks, same⟩ := ih { node with
          outputs := node.outputs ++ [⟨Uuid.name ids.next, key, .output, anyType, false⟩] }
          ⟨ids.next + 1⟩
        refine ⟨key :: missing, lacks.add absent (by simp [outputKeys]), ?_⟩
        rw [same, newOutputs_cons, List.length_cons, List.append_assoc, List.singleton_append,
          Nat.add_right_comm, Nat.add_assoc]

theorem addOutputs_new (keys : List String) (node : Node) (ids : Ids) :
    ∃ extra, (addOutputs keys node ids).1 = { node with outputs := node.outputs ++ extra } ∧
      Port.AllNew .output ids (addOutputs keys node ids).2 extra := by
  obtain ⟨missing, _, same⟩ := addOutputs_eq keys node ids
  rw [same]
  exact ⟨_, rfl, newOutputs_new ids missing⟩

theorem addOutputs_outputKeys (keys : List String) (node : Node) (ids : Ids) :
    ∃ missing, node.Lacks keys missing ∧
      (addOutputs keys node ids).1.outputKeys = node.outputKeys ++ missing := by
  obtain ⟨missing, lacks, same⟩ := addOutputs_eq keys node ids
  refine ⟨missing, lacks, ?_⟩
  rw [same, outputKeys, List.map_append, newOutputs_keys]
  rfl

/-- All keys that are asked for have outputs in the end. -/
theorem subset_addOutputs (keys : List String) (node : Node) (ids : Ids) :
    keys ⊆ (addOutputs keys node ids).1.outputKeys := by
  obtain ⟨missing, lacks, all⟩ := addOutputs_outputKeys keys node ids
  intro key member
  rw [all, List.mem_append, lacks.members]
  by_cases old : key ∈ node.outputKeys
  · exact .inl old
  · exact .inr ⟨member, old⟩

/-- No key is given to two outputs. -/
theorem addOutputs_nodup {node : Node} (distinct : node.outputKeys.Nodup) (keys : List String)
    (ids : Ids) : (addOutputs keys node ids).1.outputKeys.Nodup := by
  obtain ⟨missing, lacks, all⟩ := addOutputs_outputKeys keys node ids
  rw [all]
  refine List.nodup_append.mpr ⟨distinct, lacks.nodup, ?_⟩
  rintro key old other lacked rfl
  exact ((lacks.members key).mp lacked).2 old

theorem mapPorts_outputKeys (node : Node) {f : Port → Port}
    (same : ∀ port, (f port).key = port.key) : (node.mapPorts f).outputKeys = node.outputKeys := by
  simp [outputKeys, mapPorts, Function.comp_def, same]

theorem new_of_parts {ids named inputsLater outputsLater : Ids} {node : Node}
    (id : Named ids named [node.id]) (inputs : Port.AllNew .input named inputsLater node.inputs)
    (outputs : Port.AllNew .output inputsLater outputsLater node.outputs) :
    node.New ids outputsLater where
  named := by
    have all := id.append (inputs.named.append outputs.named)
    simpa [Node.names, Node.ports] using all
  inputs := inputs.free
  outputs := outputs.free

theorem New.addOutputs {ids middle : Ids} {node : Node} (new : node.New ids middle)
    (keys : List String) :
    (addOutputs keys node middle).1.New ids (addOutputs keys node middle).2 := by
  obtain ⟨extra, same, added⟩ := addOutputs_new keys node middle
  rw [same]
  refine ⟨?_, new.inputs, fun port member => ?_⟩
  · have all := new.named.append added.named
    simpa [Node.names, Node.ports] using all
  · rcases List.mem_append.mp member with inside | inside
    · exact new.outputs port inside
    · exact added.free port inside

theorem ofTemplate_eq (template : Template) (position : Position) (ids : Ids) :
    ofTemplate template position ids =
      let inputs := template.inputs.mapM Port.ofTemplate ⟨ids.next + 1⟩
      let outputs := template.outputs.mapM Port.ofTemplate inputs.2
      syncConfigPorts
        { id := Uuid.name ids.next, templateId := template.id, kind := template.kind
          title := template.title, config := template.defaultConfig, inputs := inputs.1
          outputs := outputs.1, status := .idle, position } outputs.2 := by
  simp only [ofTemplate, bind, StateT.bind, Ids.name_eq]
  rfl

/-- A new node has the outputs of its template. -/
theorem ofTemplate_outputKeys (template : Template) (position : Position) (ids : Ids) :
    template.outputs.map (·.key) ⊆ (ofTemplate template position ids).1.outputKeys := by
  rw [ofTemplate_eq]
  dsimp only
  rw [← keys_mapM Port.ofTemplate_key template.outputs]
  obtain ⟨extra, same, _⟩ := addOutputs_new _ _ _
  rw [syncConfigPorts, same, outputKeys, List.map_append]
  exact List.subset_append_left _ _

theorem ofTemplate_templateId (template : Template) (position : Position) (ids : Ids) :
    (ofTemplate template position ids).1.templateId = template.id := by
  rw [ofTemplate_eq]
  dsimp only
  obtain ⟨extra, same, _⟩ := addOutputs_new _ _ _
  rw [syncConfigPorts, same]

theorem ofTemplate_new (template : Template) (position : Position) (ids : Ids) :
    (ofTemplate template position ids).1.New ids (ofTemplate template position ids).2 := by
  have inputs := Port.AllNew.mapM template.inputs (fun port member ids =>
    Template.portsOf_direction member ▸ Port.ofTemplate_new ids) ⟨ids.next + 1⟩
  have outputs := Port.AllNew.mapM template.outputs (fun port member ids =>
    Template.portsOf_direction member ▸ Port.ofTemplate_new ids)
    (template.inputs.mapM Port.ofTemplate ⟨ids.next + 1⟩).2
  rw [ofTemplate_eq]
  refine New.addOutputs (new_of_parts (.one ids) inputs outputs) _

theorem duplicate_eq (node : Node) (dx dy : Float) (ids : Ids) :
    node.duplicate dx dy ids =
      let inputs := node.inputs.mapM Port.freshCopy ⟨ids.next + 1⟩
      let outputs := node.outputs.mapM Port.freshCopy inputs.2
      ({ node with
          id := Uuid.name ids.next
          inputs := inputs.1
          outputs := outputs.1
          title := s!"{node.title} (copy)"
          status := .idle
          position := node.position.offset dx dy },
        outputs.2) := by
  simp only [duplicate, bind, StateT.bind, Ids.name_eq, Ids.pure_eq]
  rfl

/-- A copy with its new name and title left open; spelled out, they would be computed to
compare them with the old ones. -/
theorem duplicate_shape (node : Node) (dx dy : Float) (ids : Ids) :
    ∃ id title position first second later, node.duplicate dx dy ids =
      ({ node with
          id, title, position
          status := .idle
          inputs := (node.inputs.mapM Port.freshCopy first).1
          outputs := (node.outputs.mapM Port.freshCopy second).1 }, later) :=
  ⟨_, _, _, _, _, _, node.duplicate_eq dx dy ids⟩

theorem duplicate_new {node : Node} (inputs : ∀ port ∈ node.inputs, port.direction = .input)
    (outputs : ∀ port ∈ node.outputs, port.direction = .output) (dx dy : Float) (ids : Ids) :
    (node.duplicate dx dy ids).1.New ids (node.duplicate dx dy ids).2 := by
  have copied := Port.AllNew.mapM node.inputs (fun port member ids =>
    inputs port member ▸ port.freshCopy_new ids) ⟨ids.next + 1⟩
  have others := Port.AllNew.mapM node.outputs (fun port member ids =>
    outputs port member ▸ port.freshCopy_new ids)
    (node.inputs.mapM Port.freshCopy ⟨ids.next + 1⟩).2
  rw [duplicate_eq]
  exact new_of_parts (.one ids) copied others

/-- New inputs in place of those of a new node. -/
theorem New.withInputs {ids middle later : Ids} {node : Node} (new : node.New ids middle)
    {inputs : List Port} (others : Port.AllNew .input middle later inputs) :
    Node.New ids later { node with inputs } where
  named := by
    have kept : (node.id :: node.outputs.map (·.id)).Sublist node.names := by
      simp [Node.names, Node.ports]
    have all := (new.named.sublist kept).append others.named
    refine all.perm ?_
    simp only [Node.names, Node.ports, List.map_append, List.cons_append]
    exact List.perm_append_comm.cons _
  inputs := others.free
  outputs := new.outputs

/-- New outputs in place of some of those of a new node. -/
theorem New.withOutputs {ids middle later : Ids} {node : Node} (new : node.New ids middle)
    {outputs kept : List Port} (others : Port.AllNew .output middle later outputs)
    (part : kept.Sublist node.outputs) :
    Node.New ids later { node with outputs := outputs ++ kept } where
  named := by
    have fewer : (node.id :: (node.inputs.map (·.id) ++ kept.map (·.id))).Sublist node.names := by
      simp only [Node.names, Node.ports, List.map_append]
      exact ((part.map _).append_left _).cons_cons _
    have all := (new.named.sublist fewer).append others.named
    refine all.perm ?_
    simp only [Node.names, Node.ports, List.map_append, List.cons_append, List.append_assoc]
    exact (List.perm_append_comm.append_left _).cons _
  inputs := new.inputs
  outputs port member := by
    rcases List.mem_append.mp member with inside | inside
    · exact others.free port inside
    · exact new.outputs port (part.subset inside)

end Node

namespace Subflow

theorem copiesFor_new (direction : Direction) (ports : List Port) (ids : Ids) :
    Port.AllNew direction ids (copiesFor direction ports ids).2
      (copiesFor direction ports ids).1 := by
  refine Port.AllNew.mapM ports (fun port _ ids => ?_) ids
  simp only [bind, StateT.bind, Port.freshCopy_eq, Ids.pure_eq]
  exact .one direction ids _ _

theorem instantiate_eq (definition : Subflow) (position : Position) (ids : Ids) :
    definition.instantiate position ids =
      let node := Node.ofTemplate Catalog.subflow position ids
      let inputs :=
        if definition.inputs.isEmpty then (node.1.inputs, node.2)
        else copiesFor .input definition.inputs node.2
      let declared := copiesFor .output definition.declaredOutputs inputs.2
      let outputs :=
        if definition.outputs.isEmpty then (node.1.outputs, inputs.2)
        else (declared.1 ++ (node.1.output? errorPort).toList, declared.2)
      ({ node.1 with
          title := definition.name
          config := Fields.insert "subflowId" (.string definition.id) node.1.config
          inputs := inputs.1
          outputs := outputs.1 },
        outputs.2) := by
  unfold instantiate
  by_cases noInputs : definition.inputs.isEmpty <;>
    by_cases noOutputs : definition.outputs.isEmpty <;>
    simp only [noInputs, noOutputs, if_true, Bool.false_eq_true, if_false] <;> rfl

theorem instantiate_new (definition : Subflow) (position : Position) (ids : Ids) :
    (definition.instantiate position ids).1.New ids (definition.instantiate position ids).2 := by
  have node := Node.ofTemplate_new Catalog.subflow position ids
  rw [instantiate_eq]
  generalize Node.ofTemplate Catalog.subflow position ids = made at node
  dsimp only
  have entered : Node.New ids
      (if definition.inputs.isEmpty then (made.1.inputs, made.2)
        else copiesFor .input definition.inputs made.2).2
      { made.1 with
        inputs := (if definition.inputs.isEmpty then (made.1.inputs, made.2)
          else copiesFor .input definition.inputs made.2).1 } := by
    split
    · exact node
    · exact node.withInputs (copiesFor_new .input definition.inputs made.2)
  generalize (if definition.inputs.isEmpty then (made.1.inputs, made.2)
    else copiesFor .input definition.inputs made.2) = inputs at entered
  have kept : (made.1.output? errorPort).toList.Sublist made.1.outputs := by
    cases found : made.1.output? errorPort with
    | none => exact List.nil_sublist _
    | some port => exact List.singleton_sublist.mpr (List.mem_of_find?_eq_some found)
  split
  · exact ⟨entered.named, entered.inputs, entered.outputs⟩
  · have left := entered.withOutputs
      (copiesFor_new .output definition.declaredOutputs inputs.2) kept
    exact ⟨left.named, left.inputs, left.outputs⟩

end Subflow

end Workflow
