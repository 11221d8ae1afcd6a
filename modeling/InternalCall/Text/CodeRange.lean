/-!
# Ranges of code points

Character classes of the Unicode standard are kept as ascending lists of closed
ranges of code points. A character belongs to a class when one of the ranges
covers its code point.
-/

namespace InternalCall.Text

/-- Whether one of the closed ranges covers the code point of the character. -/
def inRanges (ranges : List (Nat × Nat)) (c : Char) : Bool :=
  ranges.any fun r => r.1 ≤ c.toNat && c.toNat ≤ r.2

theorem inRanges_iff {ranges : List (Nat × Nat)} {c : Char} :
    inRanges ranges c = true ↔ ∃ r ∈ ranges, r.1 ≤ c.toNat ∧ c.toNat ≤ r.2 := by
  simp [inRanges]

end InternalCall.Text
