import Workflow.Branching

/-! Branching nodes in different surroundings.

A branching node knows its surroundings only through what it is given of them.
So whatever relates two kinds of computation and agrees with doing one thing
after another relates what the node does in two surroundings, once these are
related.
-/

namespace Workflow

/-- A relation between computations of two kinds that agrees with doing one
after another. -/
structure Likeness (m n : Type → Type) [Monad m] [Monad n] where
  like : {α : Type} → m α → n α → Prop
  pure : ∀ {α : Type} (value : α), like (Pure.pure value) (Pure.pure value)
  bind : ∀ {α β : Type} {left : m α} {right : n α} {leftNext : α → m β} {rightNext : α → n β},
    like left right → (∀ value, like (leftNext value) (rightNext value)) →
      like (left >>= leftNext) (right >>= rightNext)
  map : ∀ {α β : Type} {left : m α} {right : n α} (f : α → β),
    like left right → like (f <$> left) (f <$> right)

namespace Likeness

variable {m n : Type → Type} [Monad m] [Monad n] (likeness : Likeness m n)

/-- What is like doing nothing may come first on one side. -/
theorem bindPure [LawfulMonad n] {α : Type} {first : m Unit} {left : Unit → m α} {right : n α}
    (nothing : likeness.like first (Pure.pure ())) (next : likeness.like (left ()) right) :
    likeness.like (first >>= left) right := by
  rw [← pure_bind () fun _ => right]
  exact likeness.bind nothing fun _ => next

theorem mapM {α β : Type} {left : α → m β} {right : α → n β} (elements : List α)
    (each : ∀ element ∈ elements, likeness.like (left element) (right element)) :
    likeness.like (elements.mapM left) (elements.mapM right) := by
  have loop (results : List β) :
      likeness.like (List.mapM.loop left elements results)
        (List.mapM.loop right elements results) := by
    induction elements generalizing results with
    | nil => exact likeness.pure _
    | cons element rest ih =>
        refine likeness.bind (each element (by simp)) fun value => ih ?_ _
        exact fun later inside => each later (by simp [inside])
  exact loop []

/-- Surroundings that answer alike. -/
structure Surrounded (left : Surroundings m) (right : Surroundings n) : Prop where
  body : ∀ round port payload,
    likeness.like (left.body round port payload) (right.body round port payload)
  warn : ∀ message, likeness.like (left.warn message) (right.warn message)

namespace Surrounded

open Branching

variable {likeness} {left : Surroundings m} {right : Surroundings n}
  (surrounded : likeness.Surrounded left right)

include surrounded

theorem holds (condition : String) (payload : Json) :
    likeness.like (Branching.holds left condition payload)
      (Branching.holds right condition payload) := by
  unfold Branching.holds
  split
  · exact likeness.pure _
  · exact likeness.bind (surrounded.warn _) fun _ => likeness.pure _

theorem ifElse (node : Node) (input : Json) :
    likeness.like (Branching.ifElse left node input) (Branching.ifElse right node input) :=
  likeness.bind (surrounded.holds _ _) fun _ => likeness.pure _

theorem switch (node : Node) (input : Json) :
    likeness.like (Branching.switch left node input) (Branching.switch right node input) := by
  unfold Branching.switch
  split
  · exact likeness.pure _
  · dsimp only
    split
    · exact likeness.pure _
    · split
      · exact likeness.pure _
      · exact likeness.bind (surrounded.warn _) fun _ => likeness.pure _

theorem itemSource (node : Node) (input : Json) :
    likeness.like (Branching.itemSource left node input)
      (Branching.itemSource right node input) := by
  unfold Branching.itemSource
  dsimp only
  split
  · split <;> exact likeness.pure _
  · split
    · exact likeness.pure _
    · exact likeness.bind (surrounded.warn _) fun _ => likeness.pure _

theorem forEach (input : Json) (index : Nat) (items : List Json) :
    likeness.like (Branching.forEach left input index items)
      (Branching.forEach right input index items) := by
  induction items generalizing index with
  | nil => exact likeness.pure _
  | cons item rest ih =>
      refine likeness.bind (surrounded.body _ _ _) fun outputs => ?_
      exact likeness.bind (ih _) fun results => likeness.pure _

theorem forLoop (node : Node) (input : Json) :
    likeness.like (Branching.forLoop left node input) (Branching.forLoop right node input) := by
  refine likeness.bind (surrounded.itemSource node input) fun source => ?_
  split
  · exact likeness.pure _
  · exact likeness.bind (surrounded.forEach _ _ _) fun results => likeness.pure _

theorem repeatWhile (condition : String) (more round : Nat) (payload : Json) :
    likeness.like (Branching.repeatWhile left condition more round payload)
      (Branching.repeatWhile right condition more round payload) := by
  induction more generalizing round payload with
  | zero => exact likeness.pure _
  | succ more ih =>
      refine likeness.bind (surrounded.holds _ _) fun holds => ?_
      cases holds with
      | false => exact likeness.pure _
      | true => exact likeness.bind (surrounded.body _ _ _) fun outputs => ih _ _

theorem whileLoop (node : Node) (input : Json) (default : Nat) :
    likeness.like (Branching.whileLoop left node input default)
      (Branching.whileLoop right node input default) := by
  unfold Branching.whileLoop
  split
  · exact likeness.pure _
  · refine likeness.bind (surrounded.repeatWhile _ _ _ _) fun result => ?_
    dsimp only
    split
    · exact likeness.bind (surrounded.warn _) fun _ => likeness.pure _
    · exact likeness.pure _

theorem firstRoute (default : String) (payload : Json) (rules : List (String × String)) :
    likeness.like (Branching.firstRoute left default payload rules)
      (Branching.firstRoute right default payload rules) := by
  induction rules with
  | nil => exact likeness.pure _
  | cons rule rest ih =>
      obtain ⟨condition, output⟩ := rule
      refine likeness.bind (surrounded.holds _ _) fun holds => ?_
      cases holds with
      | false => exact ih
      | true => exact likeness.pure _

theorem router (node : Node) (input : Json) :
    likeness.like (Branching.router left node input) (Branching.router right node input) := by
  unfold Branching.router
  split
  · exact likeness.pure _
  · exact likeness.bind (surrounded.firstRoute _ _ _) fun port => likeness.pure _

theorem evaluate (maxIterations : Nat) (node : Node) (input : Json) :
    likeness.like (Branching.evaluate left maxIterations node input)
      (Branching.evaluate right maxIterations node input) := by
  unfold Branching.evaluate
  split
  · exact likeness.map _ (surrounded.ifElse node input)
  split
  · exact surrounded.switch node input
  split
  · exact surrounded.forLoop node input
  split
  · exact surrounded.whileLoop node input maxIterations
  split
  · exact surrounded.router node input
  · exact likeness.pure _

end Surrounded

end Likeness

end Workflow
