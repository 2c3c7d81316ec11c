/-!
# Sets of code points

A set of code points is given by closed ranges.
-/

namespace TabCompletion.Text

def inRanges (ranges : List (Nat × Nat)) (c : Char) : Bool :=
  ranges.any fun r => r.1 ≤ c.toNat && c.toNat ≤ r.2

end TabCompletion.Text
