import Workflow.Expr.Eval
import Workflow.Proofs.Rounding

/-! Comparisons of integers in expressions.

Expressions compare numbers as doubles, so what they say of two integers is what holds of the
nearest integers of 53 digits.  `Expr.compares_iff_apart` says when that is the same:
unless the two are different but have one nearest.
-/

namespace Workflow.Expr

/-- The comparisons of two fields, and what each of them says of integers. -/
def fieldComparisons : List (String × (Int → Int → Bool)) :=
  [ ("data.a == data.b", fun a b => a = b), ("data.a != data.b", fun a b => a ≠ b),
    ("data.a < data.b", fun a b => a < b), ("data.a <= data.b", fun a b => a ≤ b),
    ("data.a > data.b", fun a b => b < a), ("data.a >= data.b", fun a b => b ≤ a) ]

/-- A payload of two integers. -/
def pair (a b : Int) : Json :=
  .object [("a", .int a), ("b", .int b)]

/-- Whether every comparison of two integers comes out as the one of two others should. -/
def ComparesAs (a b x y : Int) : Prop :=
  ∀ comparison ∈ fieldComparisons, value comparison.1 (pair a b) = .ok (.bool (comparison.2 x y))

open Double (nearest InRange)

variable {a b : Int}

/-- A comparison of two fields applies its operator to them. -/
theorem value_pair {source : String} {operator : Operator}
    (parsed : parse source =
      .ok (.binary operator (.path [.field "a"]) (.path [.field "b"]))) :
    value source (pair a b) = apply operator (.int a) (.int b) := by
  rw [value, parsed]
  rfl

theorem equal_int (left : InRange a) (right : InRange b) :
    equal (.int a) (.int b) = decide (nearest a = nearest b) :=
  Double.beq_ofInt left right

theorem order?_int (left : InRange a) (right : InRange b) :
    order? (.int a) (.int b) = some (Ord.compare (nearest a) (nearest b)) := by
  show (if Float.ofInt a < Float.ofInt b then some .lt
    else if Float.ofInt a == Float.ofInt b then some .eq
    else if Float.ofInt b < Float.ofInt a then some .gt else none : Option Ordering) = _
  simp only [Double.lt_ofInt left right, Double.lt_ofInt right left, Double.beq_ofInt left right,
    decide_eq_true_eq]
  rcases Int.lt_trichotomy (nearest a) (nearest b) with less | same | more
  · rw [if_pos less, Int.compare_eq_lt.mpr less]
  · rw [if_neg (by omega), if_pos same, Int.compare_eq_eq.mpr same]
  · rw [if_neg (by omega), if_neg (by omega), if_pos more, Int.compare_eq_gt.mpr more]

/-- Comparisons come out as for any integers in the order of the nearest ones. -/
theorem comparesAs_of_compare_eq (left : InRange a) (right : InRange b) {x y : Int}
    (same : Ord.compare (nearest a) (nearest b) = Ord.compare x y) : ComparesAs a b x y := by
  have equality : equal (.int a) (.int b) = decide (x = y) := by
    rw [equal_int left right, decide_eq_decide, ← Int.compare_eq_eq, same, Int.compare_eq_eq]
  have order : order? (.int a) (.int b) = some (Ord.compare x y) := by
    rw [order?_int left right, same]
  have ordered {source : String} {operator : Operator} {holds : Ordering → Bool}
      {relation : Prop} [Decidable relation]
      (parsed : parse source =
        .ok (.binary operator (.path [.field "a"]) (.path [.field "b"])))
      (applied : apply operator (.int a) (.int b) =
        .ok (.bool ((order? (.int a) (.int b)).any holds)))
      (meant : holds (Ord.compare x y) ↔ relation) :
      value source (pair a b) = .ok (.bool (decide relation)) := by
    have outcome : holds (Ord.compare x y) = decide relation := by
      rw [Bool.eq_iff_iff, meant, decide_eq_true_eq]
    rw [value_pair parsed, applied, order, Option.any_some, outcome]
  simp only [ComparesAs, fieldComparisons, List.forall_mem_cons, List.not_mem_nil, false_imp_iff,
    implies_true, and_true]
  refine ⟨?_, ?_, ?_, ?_, ?_, ?_⟩
  · rw [value_pair rfl, apply, equality]
  · rw [value_pair rfl, apply, equality, decide_not]
  · exact ordered rfl rfl (Ordering.isLT_iff_eq_lt.trans Int.compare_eq_lt)
  · exact ordered rfl rfl (Ordering.isLE_iff_ne_gt.trans Int.compare_ne_gt)
  · exact ordered rfl rfl (Ordering.isGT_iff_eq_gt.trans Int.compare_eq_gt)
  · exact ordered rfl rfl (Ordering.isGE_iff_ne_lt.trans Int.compare_ne_lt)

/-- Expressions compare two integers as the nearest integers of 53 digits.  So what they say of
two integers is right unless these are different but have one nearest, and it is always right
of integers of at most 53 digits. -/
theorem compares_iff_apart (left : InRange a) (right : InRange b) :
    ComparesAs a b (nearest a) (nearest b) ∧
    (ComparesAs a b a b ↔ a = b ∨ nearest a ≠ nearest b) ∧
    (a.natAbs ≤ 2 ^ 53 → b.natAbs ≤ 2 ^ 53 → ComparesAs a b a b) := by
  have apart : ComparesAs a b a b ↔ a = b ∨ nearest a ≠ nearest b := by
    constructor
    · intro compares
      have said := compares _ (List.mem_cons_self ..)
      rw [value_pair rfl, apply, equal_int left right, Except.ok.injEq, Json.bool.injEq,
        decide_eq_decide] at said
      rw [← said]
      exact eq_or_ne _ _
    · rintro (rfl | different)
      · exact comparesAs_of_compare_eq left right (by simp)
      · exact comparesAs_of_compare_eq left right (Double.compare_nearest different)
  refine ⟨comparesAs_of_compare_eq left right rfl, apart, fun first second => apart.mpr ?_⟩
  rw [Double.nearest_of_natAbs_le first, Double.nearest_of_natAbs_le second]
  exact eq_or_ne a b

theorem compares_of_consecutive :
    (InRange (2 ^ 53) ∧ InRange (2 ^ 53 + 1)) ∧
    ComparesAs (2 ^ 53) (2 ^ 53 + 1) (2 ^ 53) (2 ^ 53) := by
  have left : InRange (2 ^ 53) := by unfold InRange; omega
  have right : InRange (2 ^ 53 + 1) := by unfold InRange; omega
  obtain ⟨compares, _⟩ := compares_iff_apart left right
  have below : nearest (2 ^ 53) = 2 ^ 53 := by decide
  have above : nearest (2 ^ 53 + 1) = 2 ^ 53 := by decide
  rw [below, above] at compares
  exact ⟨⟨left, right⟩, compares⟩

/-- Two integers in a row, of which expressions say that they are equal and that the smaller
one is not smaller. -/
theorem consecutive_compare_equal :
    value "data.a == data.b" (pair 9007199254740992 9007199254740993) = .ok (.bool true) ∧
    value "data.a < data.b" (pair 9007199254740992 9007199254740993) = .ok (.bool false) :=
  ⟨rfl, rfl⟩

end Workflow.Expr
