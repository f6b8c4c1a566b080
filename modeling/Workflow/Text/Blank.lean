import Workflow.Text.Ranges

/-! Blanks of all scripts: characters with the property White_Space. -/

namespace Workflow.Text

def blankRanges : Ranges :=
  [ (0x9, 0xD), (0x20, 0x20), (0x85, 0x85), (0xA0, 0xA0), (0x1680, 0x1680), (0x2000, 0x200A),
    (0x2028, 0x2029), (0x202F, 0x202F), (0x205F, 0x205F), (0x3000, 0x3000)]

def isBlank (c : Char) : Bool :=
  Ranges.contains blankRanges c.toNat

example : isBlank ' ' ∧ isBlank '\t' ∧ isBlank '\u3000' ∧ ¬ isBlank '\u200b' := by
  decide +kernel

end Workflow.Text
