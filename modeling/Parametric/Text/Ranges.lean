/-! Sets of characters given by ranges of code points. -/

set_option autoImplicit false

namespace Parametric.Text

def inRanges (c : Char) (ranges : List (Nat × Nat)) : Bool :=
  ranges.any fun range => range.1 ≤ c.toNat && c.toNat ≤ range.2

end Parametric.Text
