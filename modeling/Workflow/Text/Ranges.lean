/-! Sets of characters given as ascending ranges of code points. -/

namespace Workflow.Text

/-- First and last code point of each range, in ascending order. -/
abbrev Ranges := List (Nat × Nat)

/-- Stops at the first range that ends at or behind the code point. -/
def Ranges.contains : Ranges → Nat → Bool
  | [], _ => false
  | (first, last) :: rest, point =>
      if point ≤ last then decide (first ≤ point) else Ranges.contains rest point

end Workflow.Text
