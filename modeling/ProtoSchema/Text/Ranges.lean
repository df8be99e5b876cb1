/-!
# Ranges of code points

Character classes are given as lists of inclusive ranges.
-/

namespace ProtoSchema.Text

/-- Whether a code point is in one of the ranges. -/
def inRanges (ranges : List (Nat × Nat)) (n : Nat) : Bool :=
  ranges.any fun (low, high) => low ≤ n && n ≤ high

end ProtoSchema.Text
