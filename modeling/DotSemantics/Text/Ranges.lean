/-!
# Ranges of code points

A class of characters is given by the inclusive ranges of its code points.
-/

namespace DotSemantics.Text

/-- Inclusive ranges of code points. -/
abbrev Ranges := List (Nat × Nat)

def Ranges.covers (rs : Ranges) (n : Nat) : Bool :=
  rs.any fun r => r.1 ≤ n && n ≤ r.2

end DotSemantics.Text
