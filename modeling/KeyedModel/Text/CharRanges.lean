/-!
# Sets of scalar values as ranges

A character class beyond ASCII is a list of inclusive ranges of scalar values.
-/

namespace KeyedModel.Text

/-- Inclusive ranges of scalar values, in increasing order. -/
abbrev CharRanges := List (Nat × Nat)

/-- Whether some range holds the character. -/
def CharRanges.contains (ranges : CharRanges) (c : Char) : Bool :=
  ranges.any fun range => range.1 ≤ c.toNat && c.toNat ≤ range.2

end KeyedModel.Text
