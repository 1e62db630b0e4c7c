import BinaryRecord.Field.Error
import BinaryRecord.Transfer.Fault

/-!
# Unpacking errors

Why bytes could not be taken or unpacked, and the message of each case. Indices count values from
the start of the record.
-/

set_option autoImplicit false

namespace BinaryRecord

inductive UnpackError where
  | sizeMismatch (expected actual : Nat)
  | truncated (index required available : Nat)
  | offsetRange (offset length : Nat)
  | codec (index : Nat) (cause : FieldError)
  | transfer (fault : TransferFault)
  deriving DecidableEq, Repr

namespace UnpackError

def ofField (index : Nat) : FieldError → UnpackError
  | .truncated required available => .truncated index required available
  | cause => .codec index cause

def message : UnpackError → String
  | .sizeMismatch expected actual =>
      s!"unpack requires a buffer of {expected} bytes (got {actual})"
  | .truncated index required available =>
      s!"truncated input at value {index}: required {required} bytes, available {available}"
  | .offsetRange offset length => s!"offset {offset} out of range for buffer of {length} bytes"
  | .codec index cause => s!"codec error at value {index}: {cause.message}"
  | .transfer fault => s!"IO error: {fault.message}"

/-- The message of the error underneath, if there is one. -/
def cause? : UnpackError → Option String
  | .codec _ cause => some cause.message
  | .transfer fault => some fault.message
  | _ => none

def fields : UnpackError → String
  | .sizeMismatch expected actual =>
      s!"SizeMismatch \x7b expected: {expected}, actual: {actual} \x7d"
  | .truncated index required available =>
      s!"Truncated \x7b index: {index}, required: {required}, available: {available} \x7d"
  | .offsetRange offset length => s!"OffsetRange \x7b offset: {offset}, len: {length} \x7d"
  | .codec index cause => s!"Codec \x7b index: {index}, source: {cause.message} \x7d"
  | .transfer fault => s!"Io({fault.message})"

end UnpackError

end BinaryRecord
