/-!
# Code point ranges

A property of characters is given as a list of closed ranges of code points.
-/

set_option autoImplicit false

namespace Pagewright.Text

def inRanges (ranges : List (Nat × Nat)) (c : Char) : Bool :=
  ranges.any (fun r => r.1 ≤ c.toNat && c.toNat ≤ r.2)

end Pagewright.Text
