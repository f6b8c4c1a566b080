import Workflow.Expr.Eval
import Workflow.Proofs.Parsing

/-! How large an expression can be.

Joints make a tree high without any nesting, so the limit on nesting does not bound it.  But every
node of an expression and every step of a path has a token of its own, so a derivation has at
least as many tokens (`Derivation.fits`).  `parse_bounds` says what this means for a text, and for
the stack that evaluating it takes.
-/

namespace Workflow.Expr

/-- Evaluation on a stack that has room for `frames` calls of it; `none` is an overflow. -/
def evaluateWithin (payload : Json) : (frames : Nat) → Expr → ExceptT Failure Option Json
  | 0, _ => ExceptT.mk none
  | _ + 1, .literal value => pure value
  | _ + 1, .path segments => pure (lookup segments payload)
  | frames + 1, .not operand => do
      return .bool !truthy (← evaluateWithin payload frames operand)
  | frames + 1, .negate operand => do
      let value ← evaluateWithin payload frames operand
      match value.toFloat? with
      | some x => return numeral (-x)
      | none => throw (.mismatch "-" value .null)
  | frames + 1, .and left right => do
      if truthy (← evaluateWithin payload frames left) then
        return .bool (truthy (← evaluateWithin payload frames right))
      else return .bool false
  | frames + 1, .or left right => do
      if truthy (← evaluateWithin payload frames left) then return .bool true
      else return .bool (truthy (← evaluateWithin payload frames right))
  | frames + 1, .binary operator left right => do
      let a ← evaluateWithin payload frames left
      let b ← evaluateWithin payload frames right
      ExceptT.mk (some (apply operator a b))

section Evaluation

variable {expr : Expr}

theorem height_pos (expr : Expr) : 0 < expr.height := by
  cases expr <;> exact Nat.succ_pos _

theorem height_le_size (expr : Expr) : expr.height ≤ expr.size := by
  induction expr with
  | literal | path => exact Nat.le_refl 1
  | not _ ih | negate _ ih => exact Nat.succ_le_succ ih
  | and _ _ left right | or _ _ left right | binary _ _ _ left right =>
      simp only [height, size]
      omega

theorem bind_of_ok {α β : Type} (value : α) (next : α → ExceptT Failure Option β) :
    (ExceptT.mk (some (.ok value)) >>= next) = next value :=
  rfl

/-- A stack for as many calls as the tree is high is enough on every payload. -/
theorem evaluateWithin_eq (payload : Json) {frames : Nat} (room : expr.height ≤ frames) :
    evaluateWithin payload frames expr = ExceptT.mk (some (evaluate payload expr)) := by
  induction frames generalizing expr with
  | zero => exact absurd expr.height_pos (Nat.not_lt.mpr room)
  | succ frames ih =>
      cases expr with
      | literal | path => rfl
      | not operand =>
          rw [evaluateWithin, ih (Nat.le_of_succ_le_succ room), evaluate]
          cases evaluate payload operand <;> rfl
      | negate operand =>
          rw [evaluateWithin, ih (Nat.le_of_succ_le_succ room), evaluate]
          cases evaluate payload operand with
          | error failure => rfl
          | ok value =>
              rw [bind_of_ok]
              dsimp only
              cases value.toFloat? <;> rfl
      | and left right =>
          have room := Nat.max_le.mp (Nat.le_of_succ_le_succ room)
          rw [evaluateWithin, ih room.1, ih room.2, evaluate]
          cases evaluate payload left with
          | error failure => rfl
          | ok value =>
              rw [bind_of_ok]
              dsimp only
              cases truthy value with
              | false => rfl
              | true => cases evaluate payload right <;> rfl
      | or left right =>
          have room := Nat.max_le.mp (Nat.le_of_succ_le_succ room)
          rw [evaluateWithin, ih room.1, ih room.2, evaluate]
          cases evaluate payload left with
          | error failure => rfl
          | ok value =>
              rw [bind_of_ok]
              dsimp only
              cases truthy value with
              | true => rfl
              | false => cases evaluate payload right <;> rfl
      | binary operator left right =>
          have room := Nat.max_le.mp (Nat.le_of_succ_le_succ room)
          rw [evaluateWithin, ih room.1, ih room.2, evaluate]
          cases evaluate payload left with
          | error failure => rfl
          | ok value => cases evaluate payload right <;> rfl

end Evaluation

/-- An expression for which a number of tokens is enough. -/
structure Fits (expr : Expr) (tokens : Nat) : Prop where
  nodes : expr.size ≤ tokens
  segments : expr.segmentCount ≤ tokens

section Derivations

variable {expr left right : Expr} {count more : Nat} {token : Token}

theorem Fits.mono (fits : expr.Fits count) (le : count ≤ more) : expr.Fits more :=
  ⟨Nat.le_trans fits.nodes le, Nat.le_trans fits.segments le⟩

theorem Fits.prefixed {phrase : Phrase} {operator : Expr → Expr}
    (listed : (token, operator) ∈ phrase.prefixes) (fits : expr.Fits count) :
    (operator expr).Fits (count + 1) := by
  have operators : operator = .not ∨ operator = .negate := by
    cases phrase <;> grind [Phrase.prefixes]
  rcases operators with rfl | rfl <;>
    exact ⟨Nat.succ_le_succ fits.nodes, Nat.le_succ_of_le fits.segments⟩

/-- The sign between two operands is a token too, and stands for the node that joins them. -/
theorem Fits.binary {join : Expr → Expr → Expr}
    (joins : join = .or ∨ join = .and ∨ ∃ operator, join = .binary operator)
    (first : left.Fits count) (last : right.Fits more) :
    (join left right).Fits (count + (more + 1)) := by
  have nodes := Nat.add_le_add first.nodes last.nodes
  have segments := Nat.add_le_add first.segments last.segments
  rcases joins with rfl | rfl | ⟨operator, rfl⟩ <;>
    exact ⟨Nat.succ_le_succ nodes, Nat.le_succ_of_le segments⟩

theorem Level.joints_binary {level : Level} {join : Expr → Expr → Expr}
    (listed : (token, join) ∈ level.joints) :
    join = .or ∨ join = .and ∨ ∃ operator, join = .binary operator := by
  cases level <;> grind [Level.joints]

theorem Steps.length_segments_le {tokens : List Token} (steps : Steps tokens) :
    steps.segments.length ≤ tokens.length := by
  induction steps with
  | done => exact Nat.le_refl 0
  | field | text | index =>
      simp only [segments, List.length_cons]
      omega

theorem Rooted.length_le {name : String} {start : List Segment} (rooted : Rooted name start) :
    start.length ≤ 1 := by
  cases rooted <;> simp

mutual

theorem Derivation.fits : ∀ {phrase : Phrase} {tokens : List Token}
    (derivation : Derivation phrase tokens), derivation.expr.Fits tokens.length
  | _, _, .joined _ split operand more => by
      rw [Derivation.expr, split, List.length_append]
      exact more.fits operand.fits
  | _, _, .prefixed _ _ _ listed operand => operand.fits.prefixed listed
  | _, _, .bare _ compare => compare.fits
  | _, _, .single sum => sum.fits
  | _, _, .compare _ operator _ split left right => by
      rw [Derivation.expr, split, List.length_append, List.length_cons]
      exact left.fits.binary (.inr (.inr ⟨operator, rfl⟩)) right.fits
  | _, _, .primary primary => primary.fits
  | _, _, .number _ | _, _, .text _ | _, _, .constant _ _ _ => ⟨Nat.le_refl 1, Nat.zero_le 1⟩
  | _, _, .path _ start rooted steps => by
      refine ⟨Nat.succ_pos _, ?_⟩
      rw [Derivation.expr, segmentCount, List.length_append, List.length_cons, Nat.add_comm]
      exact Nat.add_le_add steps.length_segments_le rooted.length_le
  | _, _, .parens split inner => by
      rw [Derivation.expr, split, List.length_append, List.length_cons]
      exact inner.fits.mono (by omega)

/-- What is joined on fits together with what stands on the left already, so a chain of joints
needs no more than a nested expression. -/
theorem More.fits : ∀ {level : Level} {tokens : List Token} (more : More level tokens)
    {left : Expr} {count : Nat}, left.Fits count → (more.onto left).Fits (count + tokens.length)
  | _, _, .done _, _, _, first => first
  | _, _, .joint _ _ _ listed split operand more, _, count, first => by
      rw [More.onto, split, List.cons_append, List.length_cons, List.length_append,
        Nat.add_right_comm, ← Nat.add_assoc]
      exact more.fits (first.binary (Level.joints_binary listed) operand.fits)

end

end Derivations

/-- What a text is parsed to has at most as many nodes, and at most as many steps of paths, as the
text has tokens, and evaluating it takes no more calls inside each other on any payload.  No
derivation of these tokens nests parentheses and prefixes too deep. -/
theorem parse_bounds {source : String} {expr : Expr} (parsed : parse source = .ok expr) :
    ∃ placed, Token.scan source.toList = .ok placed ∧ placed.length ≤ Token.limit ∧
      expr.size ≤ placed.length ∧ expr.segmentCount ≤ placed.length ∧
      expr.height ≤ placed.length ∧
      (∀ payload frames, placed.length ≤ frames →
        evaluateWithin payload frames expr = ExceptT.mk (some (evaluate payload expr))) ∧
      (∃ derivation : Derivation (.joined .or) (placed.map (·.token)), derivation.expr = expr) ∧
      ∀ derivation : Derivation (.joined .or) (placed.map (·.token)),
        derivation.nesting ≤ nestingLimit := by
  obtain ⟨placed, scanned, derivation, shallow, rfl⟩ := parse_eq_ok_iff.mp parsed
  obtain ⟨nodes, segments⟩ := derivation.fits
  rw [List.length_map] at nodes segments
  have height := Nat.le_trans derivation.expr.height_le_size nodes
  refine ⟨placed, scanned, (Token.scan_sound scanned).2, nodes, segments, height,
    fun payload frames room => evaluateWithin_eq payload (Nat.le_trans height room),
    ⟨derivation, rfl⟩, fun other => ?_⟩
  rwa [other.unique derivation]

/-- A text with prefixes, parentheses, joints and paths. -/
def guardedText : String :=
  "!(a.b < -c && 'x y' != data[\"k\"])"

def guarded : Expr :=
  .not (.and
    (.binary .less (.path [.field "a", .field "b"]) (.negate (.path [.field "c"])))
    (.binary .notEqual (.literal (.string "x y")) (.path [.field "k"])))

theorem parse_of_guarded_bounds :
    parse guardedText = .ok guarded ∧
    ∃ placed, Token.scan guardedText.toList = .ok placed ∧ placed.length ≤ Token.limit ∧
      guarded.size ≤ placed.length ∧ guarded.segmentCount ≤ placed.length ∧
      guarded.height ≤ placed.length ∧
      (∀ payload frames, placed.length ≤ frames →
        evaluateWithin payload frames guarded = ExceptT.mk (some (evaluate payload guarded))) ∧
      (∃ derivation : Derivation (.joined .or) (placed.map (·.token)),
        derivation.expr = guarded) ∧
      ∀ derivation : Derivation (.joined .or) (placed.map (·.token)),
        derivation.nesting ≤ nestingLimit :=
  ⟨rfl, parse_bounds rfl⟩

end Workflow.Expr
