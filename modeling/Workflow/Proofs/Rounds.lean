import Workflow.Branching
import Workflow.Proofs.Courses

/-! The rounds of a loop.

A branching node does nothing of its own.  What happens while it works are the
rounds of its body, one after another, and each round has a number of its own.
Only loops have such rounds, each loop on one output of its own.
-/

namespace Workflow

/-- The deeds of any number of rounds, numbered from the given number on. -/
inductive Rounds {ε : Type} (body : Nat → String → Json → Courses ε (List (Option Json))) :
    Nat → List ε → Prop where
  | done {round : Nat} : Rounds body round []
  | again {round : Nat} {key : String} {payload : Json} {deeds rest : List ε}
      {outputs : List (Option Json)} :
      body round key payload deeds outputs → Rounds body (round + 1) rest →
        Rounds body round (deeds ++ rest)

/-- A body on one of its outputs alone. -/
def onOutput {ε : Type} (output : String)
    (body : Nat → String → Json → Courses ε (List (Option Json))) :
    Nat → String → Json → Courses ε (List (Option Json)) := fun round key payload deeds outputs =>
  key = output ∧ body round key payload deeds outputs

theorem Rounds.forget {ε : Type} {output : String}
    {body : Nat → String → Json → Courses ε (List (Option Json))} {round : Nat} {deeds : List ε}
    (rounds : Rounds (onOutput output body) round deeds) : Rounds body round deeds := by
  induction rounds with
  | done => exact .done
  | again taken _ ih => exact .again taken.2 ih

namespace Branching

/-- The output of a loop on which its body hangs. -/
def bodyOutput (template : String) : String :=
  if template = forTemplate then "item" else "loop"

variable {ε : Type} {surroundings : Surroundings (Courses ε)}
  (silent : ∀ message, (surroundings.warn message).Idle)

include silent

theorem holds_idle (condition : String) (payload : Json) :
    (holds surroundings condition payload).Idle := by
  unfold holds
  split
  · exact .pure _
  · exact .bind (silent _) fun _ => .pure _

theorem switch_idle (node : Node) (input : Json) : (switch surroundings node input).Idle := by
  unfold switch
  split
  · exact .pure _
  · dsimp only
    split
    · exact .pure _
    · split
      · exact .pure _
      · exact .bind (silent _) fun _ => .pure _

theorem itemSource_idle (node : Node) (input : Json) :
    (itemSource surroundings node input).Idle := by
  unfold itemSource
  dsimp only
  split
  · split <;> exact .pure _
  · split
    · exact .pure _
    · exact .bind (silent _) fun _ => .pure _

theorem firstRoute_idle (default : String) (payload : Json) (rules : List (String × String)) :
    (firstRoute surroundings default payload rules).Idle := by
  induction rules with
  | nil => exact .pure _
  | cons rule rest ih =>
      refine .bind (holds_idle silent _ _) fun holds => ?_
      cases holds with
      | false => exact ih
      | true => exact .pure _

theorem router_idle (node : Node) (input : Json) : (router surroundings node input).Idle := by
  unfold router
  split
  · exact .pure _
  · exact .bind (firstRoute_idle silent _ _ _) fun _ => .pure _

omit silent in
theorem forEach_rounds {input : Json} {index : Nat} {items : List Json} {deeds : List ε}
    {results : List Json} (taken : forEach surroundings input index items deeds results) :
    Rounds (onOutput "item" surroundings.body) index deeds := by
  induction items generalizing index deeds results with
  | nil =>
      obtain ⟨rfl, _⟩ := taken
      exact .done
  | cons item rest ih =>
      obtain ⟨first, _, outputs, rfl, round, others, _, _, rfl, follows, rfl, _⟩ := taken
      exact .again ⟨rfl, round⟩ (by simpa using ih follows)

theorem repeatWhile_rounds {condition : String} {left round : Nat} {payload : Json}
    {deeds : List ε} {result : Json × Nat}
    (taken : repeatWhile surroundings condition left round payload deeds result) :
    Rounds (onOutput "loop" surroundings.body) round deeds := by
  induction left generalizing round payload deeds with
  | zero =>
      obtain ⟨rfl, _⟩ := taken
      exact .done
  | succ left ih =>
      obtain ⟨before, after, again, rfl, asked, goesOn⟩ := taken
      obtain rfl := holds_idle silent _ _ before again asked
      cases again with
      | false =>
          obtain ⟨rfl, _⟩ := goesOn
          exact .done
      | true =>
          obtain ⟨first, others, outputs, rfl, first, follows⟩ := goesOn
          rw [List.nil_append]
          exact .again ⟨rfl, first⟩ (ih follows)

theorem forLoop_rounds {node : Node} {input : Json} {deeds : List ε}
    {result : Except BranchError Outcome} (taken : forLoop surroundings node input deeds result) :
    Rounds (onOutput "item" surroundings.body) 0 deeds := by
  obtain ⟨before, after, source, rfl, found, goesOn⟩ := taken
  obtain rfl := itemSource_idle silent node input before source found
  cases checked : items source with
  | error error =>
      rw [checked] at goesOn
      obtain ⟨rfl, _⟩ := goesOn
      exact .done
  | ok items =>
      rw [checked] at goesOn
      obtain ⟨first, _, results, rfl, rounds, rfl, _⟩ := goesOn
      simpa using forEach_rounds rounds

theorem whileLoop_rounds {node : Node} {input : Json} {default : Nat} {deeds : List ε}
    {result : Except BranchError Outcome}
    (taken : whileLoop surroundings node input default deeds result) :
    Rounds (onOutput "loop" surroundings.body) 0 deeds := by
  unfold whileLoop at taken
  cases checked : iterationCap node default with
  | error error =>
      rw [checked] at taken
      obtain ⟨rfl, _⟩ := taken
      exact .done
  | ok cap =>
      rw [checked] at taken
      obtain ⟨first, rest, ⟨payload, rounds⟩, rfl, repeated, goesOn⟩ := taken
      have quiet : rest = [] := by
        refine Courses.Idle.deeds_eq ?_ goesOn
        dsimp only
        split
        · exact .bind (silent _) fun _ => .pure _
        · exact .pure _
      rw [quiet, List.append_nil]
      exact repeatWhile_rounds silent repeated

/-- Nothing happens while a branching node works, unless it is a loop; then it is the
rounds of its body. -/
theorem evaluate_loops {maxIterations : Nat} {node : Node} {input : Json} {deeds : List ε}
    {result : Except BranchError Outcome}
    (taken : evaluate surroundings maxIterations node input deeds result) :
    deeds = [] ∨ isLoop node.templateId ∧
      Rounds (onOutput (bodyOutput node.templateId) surroundings.body) 0 deeds := by
  unfold evaluate at taken
  split at taken
  · have idle : (Except.ok (ε := BranchError) <$> ifElse surroundings node input).Idle :=
      .map _ (.bind (holds_idle silent _ _) fun _ => .pure _)
    exact .inl (idle deeds result taken)
  split at taken
  · exact .inl (switch_idle silent node input deeds result taken)
  split at taken
  · rename_i counts
    refine .inr ⟨by simp [isLoop, counts], ?_⟩
    rw [bodyOutput, if_pos counts]
    exact forLoop_rounds silent taken
  split at taken
  · rename_i other repeats
    refine .inr ⟨by simp [isLoop, repeats], ?_⟩
    rw [bodyOutput, if_neg other]
    exact whileLoop_rounds silent taken
  split at taken
  · exact .inl (router_idle silent node input deeds result taken)
  · exact .inl taken.1

/-- All that happens while a branching node works are rounds of its body. -/
theorem evaluate_rounds {maxIterations : Nat} {node : Node} {input : Json} {deeds : List ε}
    {result : Except BranchError Outcome}
    (taken : evaluate surroundings maxIterations node input deeds result) :
    Rounds surroundings.body 0 deeds := by
  rcases evaluate_loops silent taken with rfl | ⟨_, rounds⟩
  · exact .done
  · exact rounds.forget

end Branching

end Workflow
