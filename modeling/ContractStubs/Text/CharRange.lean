/-!
# Sets of characters

A set of characters is a table of code point ranges.
-/

namespace ContractStubs

/-- Ranges of code points, both ends included. -/
abbrev CharRanges := List (Nat × Nat)

/-- The character lies in one of the ranges. -/
def CharRanges.contains (ranges : CharRanges) (c : Char) : Bool :=
  ranges.any fun range => range.1 ≤ c.toNat && c.toNat ≤ range.2

end ContractStubs
