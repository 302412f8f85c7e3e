/-!
# Sets of characters

A set of characters given by ascending ranges of code points, as character properties are
published.
-/

namespace Mosaic.Text

/-- Ranges of code points, each with its first and last one. -/
abbrev Ranges := List (Nat × Nat)

namespace Ranges

/-- Whether a character lies in one of the ranges. -/
def contains (rs : Ranges) (c : Char) : Bool :=
  rs.any fun r => r.1 ≤ c.toNat ∧ c.toNat ≤ r.2

/-- The ranges are not empty and follow each other with gaps between them. -/
def ascending : Ranges → Bool
  | (a, b) :: (c, d) :: rest => a ≤ b && b < c && ascending ((c, d) :: rest)
  | [(a, b)] => a ≤ b
  | [] => true

end Ranges

end Mosaic.Text
