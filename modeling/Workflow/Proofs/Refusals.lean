import Workflow.Proofs.Parts

/-! Which failures are refusals.

An activation that is too deep fails with a message of its own, which no other failure has.
So the events of a run tell which activations were refused:
`Engine.Part.reaches_of_refusal`.
-/

namespace Workflow

theorem Except.mapM_eq_error {ε α β : Type} {f : α → Except ε β} {elements : List α} {error : ε}
    (fails : elements.mapM f = .error error) : ∃ element ∈ elements, f element = .error error := by
  induction elements with
  | nil => contradiction
  | cons element rest ih =>
      rw [List.mapM_cons] at fails
      cases first : f element with
      | error reason =>
          rw [first] at fails
          exact ⟨element, by simp, first.trans (congrArg _ (Except.error.inj fails))⟩
      | ok result =>
          cases others : rest.mapM f with
          | error reason =>
              rw [first, others] at fails
              obtain ⟨later, member, same⟩ := ih (others.trans fails)
              exact ⟨later, by simp [member], same⟩
          | ok results =>
              rw [first, others] at fails
              contradiction

namespace NodeError

/-- Whether an error says that an activation is too deep. -/
def Refuses : NodeError → Prop
  | .depthExceeded _ => True
  | _ => False

theorem message_begins (error : NodeError) :
    error.Refuses ∨
      ∃ rest, error.message = "node '" ++ rest ∨ error.message = "subflow '" ++ rest := by
  have joined (first second third fourth : String) :
      first ++ second ++ third ++ fourth = first ++ (second ++ (third ++ fourth)) := by
    simp only [String.append_assoc]
  cases error with
  | depthExceeded => exact .inl trivial
  | subflowNotFound subflow => exact .inr ⟨_, .inr (String.append_assoc ..)⟩
  | nodeNotFound node => exact .inr ⟨_, .inl (String.append_assoc ..)⟩
  | _ => exact .inr ⟨_, .inl (joined ..)⟩

/-- A refusal is known by its message. -/
theorem refuses_of_message {error : NodeError} {limit : Nat}
    (same : error.message = (depthExceeded limit).message) : error.Refuses := by
  have first (c : Char) (word : List Char) (more : String) :
      (String.ofList (c :: word) ++ more).toList.head? = some c := by
    simp
  have depth : (depthExceeded limit).message.toList.head? = some 'm' := by
    have split : (depthExceeded limit).message =
        "maximum execution depth " ++ (toString limit ++ " exceeded") := String.append_assoc ..
    rw [split]
    exact first 'm' _ _
  rcases message_begins error with refuses | ⟨rest, node | subflow⟩
  · exact refuses
  · rw [← same, node] at depth
    exact absurd ((first 'n' _ _).symm.trans depth) (by decide)
  · rw [← same, subflow] at depth
    exact absurd ((first 's' _ _).symm.trans depth) (by decide)

end NodeError

namespace Run

variable {error : NodeError}

theorem callResult_unrefused {limit : Nat} {node : Node} {reply : Reply}
    (fails : callResult limit node reply = .error error) : ¬ error.Refuses := by
  unfold callResult at fails
  split at fails
  · split at fails <;> cases fails <;> exact id
  · cases fails
    exact id

theorem definitionOf_unrefused {engine : Engine} {graph : Graph} {node : Node}
    (fails : definitionOf engine graph node = .error error) : ¬ error.Refuses := by
  unfold definitionOf at fails
  dsimp only at fails
  split at fails
  · cases fails
    exact id
  · split at fails
    · cases fails
      exact id
    · split at fails <;> cases fails
      exact id

theorem firedOutputs_unrefused {node : Node} {definition : Subflow} {reached : List String}
    (fails : firedOutputs node definition reached = .error error) : ¬ error.Refuses := by
  unfold firedOutputs at fails
  split at fails
  · contradiction
  · obtain ⟨port, _, missing⟩ := Except.mapM_eq_error fails
    split at missing <;> cases missing
    exact id

theorem nestedOutcome_unrefused {node : Node} {definition : Subflow} {input : Json} {tally : Tally}
    (fails : nestedOutcome node definition input tally = .error error) : ¬ error.Refuses := by
  unfold nestedOutcome at fails
  split at fails
  · dsimp only at fails
    split at fails
    · contradiction
    · cases fails
      exact id
  · cases fired : firedOutputs node definition (tally.terminal.map (·.1)) with
    | error other =>
        rw [fired] at fails
        cases fails
        exact firedOutputs_unrefused fired
    | ok ports =>
        rw [fired] at fails
        contradiction
end Run

/-- The work of a node may fail, but never for its depth. -/
theorem Course.perform_unrefused {engine : Engine} {visit : Visit} {graph : Graph} {path : Path}
    {node : Node} {input : Json} {deeds : List Deed} {error : NodeError}
    (fails : perform engine visit graph path node input deeds (.error error)) :
    ¬ error.Refuses := by
  have worked (fails : (if node.templateId = subflowTemplate then
          callSubflow engine visit graph path node input
        else do
          let result ← callDelegate engine path node input
          return result.map (Outcome.all node)) deeds (.error error)) : ¬ error.Refuses := by
    split at fails
    · unfold callSubflow at fails
      cases known : Run.definitionOf engine graph node with
      | error other =>
          rw [known] at fails
          obtain ⟨_, same⟩ := fails
          cases same
          exact Run.definitionOf_unrefused known
      | ok definition =>
          rw [known] at fails
          obtain ⟨_, _, _, _, _, _, _, tally, _, _, _, same⟩ := fails
          exact Run.nestedOutcome_unrefused same.symm
    · obtain ⟨_, _, result, _, called, _, same⟩ := fails
      cases result with
      | ok output => contradiction
      | error other =>
          cases same
          unfold callDelegate at called
          cases found : Fields.get? engine.registry node.templateId with
          | none =>
              rw [found] at called
              obtain ⟨_, same⟩ := called
              cases same
              exact id
          | some delegate =>
              rw [found] at called
              obtain ⟨_, _, _, _, _, _, same⟩ := called
              exact Run.callResult_unrefused same.symm
  unfold perform at fails
  cases kind : node.kind with
  | trigger =>
      rw [kind] at fails
      cases fails.2
  | condition =>
      rw [kind] at fails
      obtain ⟨_, _, evaluated, _, _, _, same⟩ := fails
      cases evaluated with
      | error reason =>
          cases same
          exact id
      | ok outcome => contradiction
  | action | data =>
      rw [kind] at fails
      exact worked fails

/-- What is told to be refused was reached with no depth left. -/
theorem Engine.Part.reaches_of_refusal {engine : Engine} {outer : Graph} {entry : Entry}
    {path : Path} {deeds : List Deed} (part : engine.Part outer entry path deeds) {run : Uuid}
    {name : String} {limit : Nat}
    (told : .event ⟨path, .nodeFailed run name (NodeError.depthExceeded limit).message⟩ ∈ deeds) :
    ∃ graph name, engine.Reaches outer entry engine.limits.maxDepth path graph name := by
  obtain ⟨depth, graph, name, node, reaches, _, ⟨rfl, _⟩ | worked⟩ := part.cases
  · exact ⟨graph, name, reaches⟩
  · obtain ⟨_, _, _, performed, _, _, _, _, activation⟩ := worked
    rcases activation.told reaches.known.1 reaches.path_ne_nil told rfl with started | ended
    · contradiction
    · cases performed with
      | ok outcome => contradiction
      | error error =>
          have same := (Event.nodeFailed.inj ended).2.2
          have refuses := NodeError.refuses_of_message same.symm
          exact absurd refuses (Course.perform_unrefused activation.works)

end Workflow
