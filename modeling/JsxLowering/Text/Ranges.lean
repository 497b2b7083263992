/-!
# Ranges of characters

A set of characters given as inclusive ranges of code points.
-/

namespace JsxLowering.Text

/-- Whether `c` lies in one of the ranges. -/
def inRanges (ranges : Array (Nat × Nat)) (c : Char) : Bool :=
  ranges.any fun (lo, hi) => lo ≤ c.toNat && c.toNat ≤ hi

end JsxLowering.Text
