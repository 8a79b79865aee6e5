/-!
# Sets of characters

Character properties are given as tables of ranges of code points.
-/

namespace TreeLowering.Text

/-- A set of characters as ranges of code points, both ends included. -/
abbrev Ranges := Array (Nat × Nat)

/-- Whether a character lies in one of the ranges. -/
def Ranges.contains (r : Ranges) (c : Char) : Bool :=
  r.any fun (low, high) => low ≤ c.toNat && c.toNat ≤ high

end TreeLowering.Text
