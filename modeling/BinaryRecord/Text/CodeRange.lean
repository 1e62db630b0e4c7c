/-!
# Ranges of code points

A character property given as a list of ranges of code points, both ends included.
-/

set_option autoImplicit false

namespace BinaryRecord.Text

def inRanges (ranges : List (Nat × Nat)) (c : Char) : Bool :=
  ranges.any fun range => range.1 ≤ c.toNat && c.toNat ≤ range.2

end BinaryRecord.Text
