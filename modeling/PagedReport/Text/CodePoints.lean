/-!
# Sets of code points

A set given by its maximal runs, in increasing order.
-/

namespace PagedReport

/-- The first and the last code point of each run. -/
abbrev CodePoints := Array (Nat × Nat)

def CodePoints.contains (s : CodePoints) (c : Char) : Bool :=
  s.any fun (first, last) ↦ first ≤ c.toNat && c.toNat ≤ last

end PagedReport
