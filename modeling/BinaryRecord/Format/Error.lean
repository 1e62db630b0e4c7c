/-!
# Format errors

Why a text is no format, and the message of each case. Positions count characters from the start
of the text.
-/

set_option autoImplicit false

namespace BinaryRecord

/-- Why a text is no format, or none that a record can have. -/
inductive FormatError where
  | empty
  | badChar (ch : Char) (position : Nat)
  | misplacedOrder (ch : Char) (position : Nat)
  /-- A repeat count is not followed by a tag. It is kept as it is written. -/
  | danglingCount (digits : String) (position : Nat)
  | zeroCount (position : Nat)
  /-- A repeat count is no size. -/
  | countOverflow (position : Nat)
  | sizeOverflow
  deriving DecidableEq, Repr

def FormatError.message : FormatError → String
  | .empty => "empty format: at least one field group is required"
  | .badChar ch position => s!"bad char ('{ch}') in struct format at position {position}"
  | .misplacedOrder ch position =>
      s!"byte order marker '{ch}' at position {position} must start the format"
  | .danglingCount digits position =>
      s!"repeat count {digits} at position {position} is not followed by a format character"
  | .zeroCount position => s!"repeat count at position {position} must be at least 1"
  | .countOverflow position => s!"repeat count at position {position} is too large"
  | .sizeOverflow => "total struct size overflows"

end BinaryRecord
