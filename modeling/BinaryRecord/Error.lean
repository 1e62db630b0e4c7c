import BinaryRecord.Format.Error
import BinaryRecord.Packing.Error
import BinaryRecord.Unpacking.Error

/-!
# Record errors

The errors of operations that compile their format themselves: a format error, or the error of what
was done with the layout.
-/

set_option autoImplicit false

namespace BinaryRecord

inductive RecordError where
  | format (error : FormatError)
  | pack (error : PackError)
  | unpack (error : UnpackError)
  deriving DecidableEq, Repr

namespace RecordError

/-- The message of the error underneath. -/
def cause : RecordError → String
  | .format error => error.message
  | .pack error => error.message
  | .unpack error => error.message

def message : RecordError → String
  | .format error => s!"format error: {error.message}"
  | .pack error => s!"pack error: {error.message}"
  | .unpack error => s!"unpack error: {error.message}"

end RecordError

end BinaryRecord
