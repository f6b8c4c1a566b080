import Workflow.Proofs.Parsing.Soundness

/-! What has a derivation is read.

Whatever follows a phrase and does not carry it on is left alone, and a
derivation that nests too much is refused for that.  Parsers answer to every
derivation in this way, by induction on it.
-/

namespace Workflow.Expr

/-- Tokens that carry a path on. -/
def pathSigns : List Token :=
  [.dot, .openBracket]

def Level.signs (level : Level) : List Token :=
  level.joints.map (·.1)

/-- Tokens that may carry a phrase on that could end before them. -/
def Phrase.continuations : Phrase → List Token
  | .primary | .unary => pathSigns
  | .joined .product => Level.product.signs ++ pathSigns
  | .joined .sum => Level.sum.signs ++ Level.product.signs ++ pathSigns
  | .compare | .not =>
      comparisons.map (·.1) ++ Level.sum.signs ++ Level.product.signs ++ pathSigns
  | .joined .and =>
      Level.and.signs ++ comparisons.map (·.1) ++ Level.sum.signs ++ Level.product.signs ++
        pathSigns
  | .joined .or =>
      Level.or.signs ++ Level.and.signs ++ comparisons.map (·.1) ++ Level.sum.signs ++
        Level.product.signs ++ pathSigns

/-- What follows does not carry the phrase on. -/
def Stops (phrase : Phrase) (tokens : List Token) : Prop :=
  ∀ token ∈ tokens.head?, token ∉ phrase.continuations

section Completeness

variable {stop levels limit : Nat} {tokens : List Token}

theorem Stops.mono {phrase other : Phrase} (stops : Stops other tokens)
    (fewer : phrase.continuations ⊆ other.continuations) : Stops phrase tokens :=
  fun token head continued => stops token head (fewer continued)

theorem Stops.nil (phrase : Phrase) : Stops phrase [] :=
  nofun

theorem Stops.operand {level : Level} (stops : Stops (.joined level) tokens) :
    Stops level.operand tokens := by
  refine stops.mono ?_
  cases level <;> simp [Level.operand, Phrase.continuations, List.append_assoc]

theorem Stops.joint {level : Level} {token : Token} {join : Expr → Expr → Expr}
    (listed : (token, join) ∈ level.joints) : Stops level.operand (token :: tokens) := by
  have apart : ∀ entry ∈ level.joints, entry.1 ∉ level.operand.continuations := by
    cases level <;> decide
  rintro _ ⟨⟩
  exact apart (token, join) listed

theorem Stops.joint_eq_none {level : Level} {token : Token}
    (stops : Stops (.joined level) (token :: tokens)) : level.joint token = none := by
  cases joins : level.joint token with
  | none => rfl
  | some join =>
      have listed : token ∈ level.signs :=
        List.mem_map.mpr ⟨(token, join), Level.joint_eq_some_iff.mp joins, rfl⟩
      have carried : level.signs ⊆ (Phrase.joined level).continuations := by
        cases level <;> simp [Phrase.continuations]
      exact absurd (carried listed) (stops token rfl)

theorem Stops.compareJoint_eq_none {token : Token} (stops : Stops .compare (token :: tokens)) :
    compareJoint token = none := by
  cases joins : compareJoint token with
  | none => rfl
  | some join =>
      obtain ⟨operator, listed, _⟩ := compareJoint_eq_some_iff.mp joins
      have carried : token ∈ Phrase.compare.continuations := by
        simp only [Phrase.continuations, List.append_assoc]
        exact List.mem_append_left _ (List.mem_map.mpr ⟨(token, operator), listed, rfl⟩)
      exact absurd carried (stops token rfl)

theorem Stops.comparison {token : Token} {operator : Operator}
    (listed : (token, operator) ∈ comparisons) : Stops (.joined .sum) (token :: tokens) := by
  have apart : ∀ entry ∈ comparisons, entry.1 ∉ (Phrase.joined .sum).continuations := by decide
  rintro _ ⟨⟩
  exact apart (token, operator) listed

theorem Stops.closeParen : Stops (.joined .or) (.closeParen :: tokens) := by
  rintro _ ⟨⟩
  decide

/-- A result that holds the expression if it nests less than `limit` deep, and that is refused
for its nesting if not. -/
inductive Answers (limit nesting : Nat) (expr : Expr) (rest : List Placed) :
    Except Malformed (Expr × List Placed) → Prop
  | fits (shallow : nesting < limit) : Answers limit nesting expr rest (.ok (expr, rest))
  | deep (deep : limit ≤ nesting) (place : Nat) :
      Answers limit nesting expr rest (.error ⟨place, .nestedTooDeep⟩)

namespace Answers

variable {nesting : Nat} {expr : Expr} {rest : List Placed}
  {result : Except Malformed (Expr × List Placed)}

theorem prefixed {operator : Expr → Expr} {parser : Parser Expr} {placed : List Placed}
    (answers : Answers limit nesting expr rest (parser placed)) :
    Answers (limit + 1) (nesting + 1) (operator expr) rest
      (Expr.prefixed operator parser placed) := by
  unfold Expr.prefixed
  generalize parser placed = result at answers
  cases answers with
  | fits shallow => exact .fits (Nat.succ_lt_succ shallow)
  | deep deep place => exact .deep (Nat.succ_le_succ deep) place

end Answers

/-- What a parser says to a list of tokens of which a derivation covers the first ones. -/
def Parser.Answers (parser : Parser Expr) (limit : Nat) {phrase : Phrase} {tokens : List Token}
    (derivation : Derivation phrase tokens) : Prop :=
  ∀ front rest : List Placed, front.map (·.token) = tokens → Stops phrase (rest.map (·.token)) →
    Expr.Answers limit derivation.nesting derivation.expr rest (parser (front ++ rest))

theorem spelled_cons {front : List Placed} {token : Token}
    (spelled : front.map (·.token) = token :: tokens) :
    ∃ offset later, front = ⟨offset, token⟩ :: later ∧ later.map (·.token) = tokens := by
  obtain ⟨next, later, rfl, rfl, rfl⟩ := List.map_eq_cons_iff.mp spelled
  exact ⟨next.offset, later, rfl, rfl⟩

theorem steps_stop {rest : List Placed} (stops : Stops .primary (rest.map (·.token))) :
    Expr.steps stop rest = .ok ([], rest) := by
  cases rest with
  | nil => rfl
  | cons next later =>
      obtain ⟨offset, token⟩ := next
      have closed : token ∉ pathSigns := stops token rfl
      cases token with
      | dot | openBracket => exact absurd (by decide) closed
      | _ => rfl

theorem steps_bracketed {offset behind : Nat} {key : Placed} {segment : Segment}
    {rest : List Placed} (bracketed : bracketed? key.token = some segment) :
    Expr.steps stop (⟨offset, .openBracket⟩ :: key :: ⟨behind, .closeBracket⟩ :: rest) =
      (Expr.steps stop rest).map fun (segments, rest) => (segment :: segments, rest) := by
  simp only [Expr.steps, bracketed]
  cases Expr.steps stop rest <;> rfl

theorem steps_complete (steps : Steps tokens) {front rest : List Placed}
    (spelled : front.map (·.token) = tokens) (stops : Stops .primary (rest.map (·.token))) :
    Expr.steps stop (front ++ rest) = .ok (steps.segments, rest) := by
  induction steps generalizing front with
  | done =>
      obtain rfl := List.map_eq_nil_iff.mp spelled
      exact steps_stop stops
  | field name later ih =>
      obtain ⟨_, behind, rfl, named⟩ := spelled_cons spelled
      obtain ⟨_, after, rfl, onward⟩ := spelled_cons named
      simp only [List.cons_append, Expr.steps, ih onward]
      rfl
  | text name later ih =>
      obtain ⟨_, behind, rfl, keyed⟩ := spelled_cons spelled
      obtain ⟨_, closing, rfl, closed⟩ := spelled_cons keyed
      obtain ⟨_, after, rfl, onward⟩ := spelled_cons closed
      simp only [List.cons_append]
      rw [steps_bracketed rfl, ih onward]
      rfl
  | index number position indexes later ih =>
      obtain ⟨_, behind, rfl, keyed⟩ := spelled_cons spelled
      obtain ⟨_, closing, rfl, closed⟩ := spelled_cons keyed
      obtain ⟨_, after, rfl, onward⟩ := spelled_cons closed
      have bracketed : bracketed? (.number number) = some (.index position) := by
        rw [bracketed?, index?_eq_some_iff.mpr indexes]
        rfl
      simp only [List.cons_append]
      rw [steps_bracketed bracketed, ih onward]
      rfl

theorem spelled_append {front : List Placed} {first last : List Token}
    (spelled : front.map (·.token) = first ++ last) :
    ∃ before after, front = before ++ after ∧ before.map (·.token) = first ∧
      after.map (·.token) = last :=
  List.map_eq_append_iff.mp spelled

theorem Derivation.ne_nil {phrase : Phrase} {tokens : List Token} :
    Derivation phrase tokens → tokens ≠ []
  | .joined _ split operand _ => by
      rw [split]
      exact List.append_ne_nil_of_left_ne_nil operand.ne_nil _
  | .compare _ _ _ split _ _ => by
      rw [split]
      exact List.append_ne_nil_of_right_ne_nil _ (List.cons_ne_nil _ _)
  | .parens split _ => by
      rw [split]
      exact List.cons_ne_nil _ _
  | .bare _ inner | .single inner | .primary inner => inner.ne_nil
  | .prefixed _ _ _ _ _ | .number _ | .text _ | .constant _ _ _ | .path _ _ _ _ =>
      List.cons_ne_nil _ _

/-- More operands begin with a joint, which is no part of the operand before. -/
theorem More.stops {level : Level} {others : List Token} (more : More level tokens)
    (after : Stops (.joined level) others) : Stops level.operand (tokens ++ others) := by
  cases more with
  | done => exact after.operand
  | joint _ token join listed split =>
      rw [split]
      exact .joint listed

/-- A parser answers to a derivation one level further down as its phrase does there. -/
theorem nested_answers {phrase : Phrase} {derivation : Derivation phrase tokens}
    {select : Deeper → Parser Expr}
    (below : ∀ levels, select (deeper stop (levels + 1)) = phrase.parser stop levels)
    (bottom : ∀ placed,
      select (deeper stop 0) placed = .error ⟨offsetOf stop placed, .nestedTooDeep⟩)
    (inner : ∀ levels, (phrase.parser stop levels).Answers (levels + 1) derivation) :
    (select (deeper stop levels)).Answers levels derivation := by
  intro front rest spelled stops
  cases levels with
  | zero =>
      rw [bottom]
      exact .deep (Nat.zero_le _) _
  | succ levels =>
      rw [below]
      exact inner levels front rest spelled stops

theorem unary_eq_primary {deeper : Deeper} {front rest : List Placed}
    (derivation : Derivation .primary tokens) (spelled : front.map (·.token) = tokens) :
    Expr.unary stop deeper (front ++ rest) = Expr.primary stop deeper (front ++ rest) := by
  cases derivation with
  | prefixed _ _ _ listed => contradiction
  | number | text | constant | path =>
      obtain ⟨_, _, rfl, _⟩ := spelled_cons spelled
      rfl
  | parens split =>
      rw [split] at spelled
      obtain ⟨_, _, rfl, _⟩ := spelled_cons spelled
      rfl

namespace Answers

variable {nesting deepest : Nat} {left expr : Expr} {placed middle rest : List Placed}
  {parser : Parser Expr} {level : Level}

/-- What is read first and what is read next nest side by side. -/
theorem andThen {attempt : Except Malformed (Expr × List Placed)} {next : Expr → Parser Expr} :
    Answers limit nesting left middle attempt → Answers limit deepest expr rest (next left middle) →
      Answers limit (max nesting deepest) expr rest
        (match attempt with
          | .ok (left, rest) => next left rest
          | .error malformed => .error malformed) := by
  intro first more
  cases first with
  | deep deep place => exact .deep (Nat.le_trans deep (Nat.le_max_left ..)) place
  | fits shallow =>
      dsimp only
      generalize next left middle = result at more
      cases more with
      | fits flat => exact .fits (Nat.max_lt.mpr ⟨shallow, flat⟩)
      | deep deep place => exact .deep (Nat.le_trans deep (Nat.le_max_right ..)) place

end Answers

theorem joinMore_stop {level : Level} {parser : Parser Expr} {left : Expr} {rest : List Placed}
    {fuel : Nat} (stops : Stops (.joined level) (rest.map (·.token))) :
    joinMore parser level.joint fuel left rest = .ok (left, rest) := by
  cases fuel with
  | zero => rfl
  | succ fuel =>
      cases rest with
      | nil => rfl
      | cons next later => rw [joinMore, stops.joint_eq_none]

theorem prefixed_answers {phrase : Phrase} {token : Token} {operator : Expr → Expr}
    (listed : (token, operator) ∈ phrase.prefixes) {operand : Derivation phrase tokens}
    (inner : ∀ levels, (phrase.parser stop levels).Answers (levels + 1) operand) :
    (phrase.parser stop levels).Answers (levels + 1)
      (.prefixed phrase token operator listed operand) := by
  intro front rest spelled stops
  obtain ⟨offset, after, rfl, onward⟩ := spelled_cons spelled
  cases phrase with
  | not =>
      have answers : (deeper stop levels).not.Answers levels operand :=
        nested_answers (fun _ => rfl) (fun _ => rfl) inner
      have opens : opensNot token :=
        opensNot_iff.mpr (List.mem_map.mpr ⟨(token, operator), listed, rfl⟩)
      have negates : operator = .not := by
        simp only [Phrase.prefixes, List.mem_cons, Prod.mk.injEq, List.not_mem_nil, or_false]
          at listed
        rcases listed with ⟨_, rfl⟩ | ⟨_, rfl⟩ <;> rfl
      subst negates
      rw [List.cons_append, Phrase.parser, notPhrase, if_pos opens]
      exact (answers after rest onward stops).prefixed
  | unary =>
      have answers : (deeper stop levels).unary.Answers levels operand :=
        nested_answers (fun _ => rfl) (fun _ => rfl) inner
      simp only [Phrase.prefixes, List.mem_cons, Prod.mk.injEq, List.not_mem_nil, or_false]
        at listed
      rcases listed with ⟨rfl, rfl⟩ | ⟨rfl, rfl⟩
      · exact (answers after rest onward stops).prefixed
      · exact (answers after rest onward stops).prefixed
  | joined | compare | primary => contradiction

theorem bare_answers (bare : ∀ token ∈ tokens.head?, token ∉ Phrase.not.prefixes.map (·.1))
    {inner : Derivation .compare tokens}
    (answers : (Phrase.compare.parser stop levels).Answers limit inner) :
    (Phrase.not.parser stop levels).Answers limit (.bare bare inner) := by
  intro front rest spelled stops
  cases front with
  | nil => exact absurd spelled.symm inner.ne_nil
  | cons next after =>
      subst spelled
      have closed : ¬ opensNot next.token := fun opens =>
        bare next.token rfl (opensNot_iff.mp opens)
      have same := answers (next :: after) rest rfl stops
      rw [Phrase.parser, List.cons_append, notPhrase, if_neg closed]
      exact same

theorem single_answers {inner : Derivation (.joined .sum) tokens}
    (answers : ((Phrase.joined .sum).parser stop levels).Answers limit inner) :
    (Phrase.compare.parser stop levels).Answers limit (.single inner) := by
  intro front rest spelled stops
  have same := answers front rest spelled (stops.mono (by simp [Phrase.continuations]))
  rw [Phrase.parser] at same
  rw [Phrase.parser, Expr.compare]
  generalize Expr.sum stop (deeper stop levels) (front ++ rest) = result at same
  cases same with
  | deep deep place => exact .deep deep place
  | fits shallow =>
      cases rest with
      | nil => exact .fits shallow
      | cons next later =>
          dsimp only
          rw [stops.compareJoint_eq_none]
          exact .fits shallow

theorem compare_answers {token : Token} {operator : Operator}
    (listed : (token, operator) ∈ comparisons) {first last : List Token}
    (split : tokens = first ++ token :: last) {left : Derivation (.joined .sum) first}
    {right : Derivation (.joined .sum) last}
    (begins : ((Phrase.joined .sum).parser stop levels).Answers limit left)
    (ends : ((Phrase.joined .sum).parser stop levels).Answers limit right) :
    (Phrase.compare.parser stop levels).Answers limit
      (.compare token operator listed split left right) := by
  intro front rest spelled stops
  rw [split] at spelled
  obtain ⟨before, after, rfl, start, onward⟩ := spelled_append spelled
  obtain ⟨offset, behind, rfl, stop⟩ := spelled_cons onward
  have joins : compareJoint token = some (.binary operator) :=
    compareJoint_eq_some_iff.mpr ⟨operator, listed, rfl⟩
  have first := begins before (⟨offset, token⟩ :: behind ++ rest) start (.comparison listed)
  have second := ends behind rest stop (stops.mono (by simp [Phrase.continuations]))
  rw [Phrase.parser] at first second
  rw [Phrase.parser, Expr.compare, List.append_assoc]
  generalize Expr.sum _ _ (before ++ _) = result at first
  cases first with
  | deep deep place => exact .deep (Nat.le_trans deep (Nat.le_max_left ..)) place
  | fits shallow =>
      dsimp only [List.cons_append]
      rw [joins]
      dsimp only [Expr.prefixed]
      generalize Expr.sum _ _ (behind ++ rest) = result at second
      cases second with
      | fits flat => exact .fits (Nat.max_lt.mpr ⟨shallow, flat⟩)
      | deep deep place => exact .deep (Nat.le_trans deep (Nat.le_max_right ..)) place

theorem parens_answers {inside : List Token}
    (split : tokens = .openParen :: inside ++ [.closeParen])
    {inner : Derivation (.joined .or) inside}
    (answers : ∀ levels, ((Phrase.joined .or).parser stop levels).Answers (levels + 1) inner) :
    (Phrase.primary.parser stop levels).Answers (levels + 1) (.parens split inner) := by
  intro front rest spelled stops
  have nested : (deeper stop levels).or.Answers levels inner :=
    nested_answers (fun _ => rfl) (fun _ => rfl) answers
  rw [split] at spelled
  obtain ⟨offset, after, rfl, onward⟩ := spelled_cons spelled
  obtain ⟨middle, last, rfl, begins, ends⟩ := spelled_append onward
  obtain ⟨behind, none, rfl, closed⟩ := spelled_cons ends
  obtain rfl := List.map_eq_nil_iff.mp closed
  have same := nested middle (⟨behind, .closeParen⟩ :: rest) begins .closeParen
  simp only [List.cons_append, List.append_assoc, List.nil_append, Phrase.parser, Expr.primary]
  generalize (deeper stop levels).or (middle ++ _) = result at same
  cases same with
  | fits shallow => exact .fits (Nat.succ_lt_succ shallow)
  | deep deep place => exact .deep (Nat.succ_le_succ deep) place

mutual

/-- Parsers answer to every derivation. -/
theorem Derivation.answered {phrase : Phrase} {tokens : List Token}
    (derivation : Derivation phrase tokens) (stop levels : Nat) :
    (phrase.parser stop levels).Answers (levels + 1) derivation :=
  match derivation with
  | .joined level split operand more => by
      intro front rest spelled stops
      rw [split] at spelled
      obtain ⟨before, after, rfl, first, last⟩ := spelled_append spelled
      have onward : Stops level.operand ((after ++ rest).map (·.token)) := by
        rw [List.map_append, last]
        exact more.stops stops
      rw [level.parser_eq, List.append_assoc, Expr.joined]
      refine Answers.andThen (operand.answered stop levels before (after ++ rest) first onward) ?_
      exact more.answered stop levels last stops _ (Nat.le_refl _)
  | .prefixed _ _ _ listed operand => prefixed_answers listed (operand.answered stop)
  | .bare bare inner => bare_answers bare (inner.answered stop levels)
  | .single inner => single_answers (inner.answered stop levels)
  | .compare _ _ listed split left right =>
      compare_answers listed split (left.answered stop levels) (right.answered stop levels)
  | .primary inner => by
      intro front rest spelled stops
      rw [Phrase.parser, unary_eq_primary inner spelled]
      exact inner.answered stop levels front rest spelled stops
  | .number value => by
      intro front rest spelled stops
      obtain ⟨offset, after, rfl, onward⟩ := spelled_cons spelled
      obtain rfl := List.map_eq_nil_iff.mp onward
      exact .fits (Nat.zero_lt_succ _)
  | .text value => by
      intro front rest spelled stops
      obtain ⟨offset, after, rfl, onward⟩ := spelled_cons spelled
      obtain rfl := List.map_eq_nil_iff.mp onward
      exact .fits (Nat.zero_lt_succ _)
  | .constant name value listed => by
      intro front rest spelled stops
      obtain ⟨offset, after, rfl, onward⟩ := spelled_cons spelled
      obtain rfl := List.map_eq_nil_iff.mp onward
      simp only [Phrase.parser, List.cons_append, List.nil_append, Expr.primary,
        Root.ofName_eq_literal_iff.mpr listed]
      exact .fits (Nat.zero_lt_succ _)
  | .path name start rooted steps => by
      intro front rest spelled stops
      obtain ⟨offset, after, rfl, onward⟩ := spelled_cons spelled
      simp only [Phrase.parser, List.cons_append, Expr.primary,
        Root.ofName_eq_path_iff.mpr rooted, steps_complete steps onward stops]
      exact .fits (Nat.zero_lt_succ _)
  | .parens split inner => parens_answers split (inner.answered stop)

theorem More.answered {level : Level} {tokens : List Token} (more : More level tokens)
    (stop levels : Nat) {front rest : List Placed} (spelled : front.map (·.token) = tokens)
    (stops : Stops (.joined level) (rest.map (·.token))) (left : Expr) {fuel : Nat}
    (enough : (front ++ rest).length ≤ fuel) :
    Answers (levels + 1) more.nesting (more.onto left) rest
      (joinMore (level.operand.parser stop levels) level.joint fuel left (front ++ rest)) :=
  match more with
  | .done level => by
      obtain rfl := List.map_eq_nil_iff.mp spelled
      rw [List.nil_append, joinMore_stop stops]
      exact .fits (Nat.zero_lt_succ _)
  | .joint level token join listed split operand more => by
      rw [split] at spelled
      obtain ⟨offset, behind, rfl, onward⟩ := spelled_cons spelled
      obtain ⟨before, after, rfl, first, last⟩ := spelled_append onward
      have closed : Stops level.operand ((after ++ rest).map (·.token)) := by
        rw [List.map_append, last]
        exact more.stops stops
      obtain ⟨fuel, rfl⟩ : ∃ fewer, fuel = fewer + 1 :=
        Nat.exists_eq_add_of_le' (Nat.le_trans (Nat.succ_le_succ (Nat.zero_le _)) enough)
      rw [List.cons_append, List.append_assoc, joinMore, Level.joint_eq_some_iff.mpr listed]
      refine Answers.andThen (operand.answered stop levels before (after ++ rest) first closed) ?_
      refine more.answered stop levels last stops _ ?_
      simp only [List.cons_append, List.length_cons, List.length_append] at enough ⊢
      omega

end

theorem Derivation.parsed {phrase : Phrase} (derivation : Derivation phrase tokens)
    (shallow : derivation.nesting ≤ levels) (stop : Nat) {front rest : List Placed}
    (spelled : front.map (·.token) = tokens) (stops : Stops phrase (rest.map (·.token))) :
    phrase.parser stop levels (front ++ rest) = .ok (derivation.expr, rest) := by
  have answers := derivation.answered stop levels front rest spelled stops
  generalize phrase.parser stop levels (front ++ rest) = result at answers
  cases answers with
  | fits => rfl
  | deep deep => exact absurd (Nat.lt_of_succ_le deep) (Nat.not_lt_of_le shallow)

theorem Derivation.refused {phrase : Phrase} (derivation : Derivation phrase tokens)
    (deep : levels < derivation.nesting) (stop : Nat) {front rest : List Placed}
    (spelled : front.map (·.token) = tokens) (stops : Stops phrase (rest.map (·.token))) :
    ∃ place, phrase.parser stop levels (front ++ rest) = .error ⟨place, .nestedTooDeep⟩ := by
  have answers := derivation.answered stop levels front rest spelled stops
  generalize phrase.parser stop levels (front ++ rest) = result at answers
  cases answers with
  | fits shallow => exact absurd deep (Nat.not_lt_of_le (Nat.le_of_lt_succ shallow))
  | deep _ place => exact ⟨place, rfl⟩

end Completeness

end Workflow.Expr
