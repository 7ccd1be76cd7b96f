/-!
Classes of characters given by ranges of code points.
-/

namespace Lisp

/-- Whether a character lies in one of some ranges, both ends included. -/
def inRanges (ranges : List (Nat × Nat)) (c : Char) : Bool :=
  ranges.any fun (first, last) => first ≤ c.toNat && c.toNat ≤ last

end Lisp
