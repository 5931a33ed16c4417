/-!
# Ranges of code points

A property of characters is held as the ranges of the code points that have it, in ascending order.
-/

namespace SignedDirectory.Text

def inRanges (ranges : List (Nat × Nat)) (code : Nat) : Bool :=
  ranges.any fun r => r.1 ≤ code && code ≤ r.2

end SignedDirectory.Text
