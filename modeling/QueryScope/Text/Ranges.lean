/-!
# Sets of characters by code point

A character property is written as a list of inclusive code point ranges.
-/

namespace QueryScope.Text

/-- Inclusive ranges of code points, in increasing order. -/
abbrev Ranges := List (Nat × Nat)

/-- A character belongs to a set of ranges when one of them holds its code point. -/
def Ranges.holds (ranges : Ranges) (c : Char) : Bool :=
  ranges.any fun range => range.1 ≤ c.toNat && c.toNat ≤ range.2

end QueryScope.Text
