/-! # Classes of characters given by ranges of code points -/

namespace Linewise.Text

/-- Whether a character lies in one of the inclusive ranges. -/
def inRanges (ranges : List (Nat × Nat)) (c : Char) : Bool :=
  ranges.any fun r => r.1 ≤ c.toNat && c.toNat ≤ r.2

end Linewise.Text
