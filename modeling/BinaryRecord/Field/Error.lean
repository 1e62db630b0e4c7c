import BinaryRecord.Field
import BinaryRecord.Text.Quoted

/-!
# Field errors

What can go wrong with a single field or a single value, and the message of each case.
-/

set_option autoImplicit false

namespace BinaryRecord

inductive FieldError where
  | truncated (required available : Nat)
  | typeMismatch (field : Field) (expected found : Kind)
  | stringLength (expected actual : Nat)
  | charRange (ch : Char)
  deriving DecidableEq, Repr

def FieldError.message : FieldError → String
  | .truncated required available =>
      s!"truncated input: required {required} bytes, available {available} bytes"
  | .typeMismatch field expected found =>
      s!"type mismatch for {field.name} field: expected {expected.name}, found {found.name}"
  | .stringLength expected actual =>
      s!"byte string too short: field holds {expected} bytes, got {actual}"
  | .charRange ch =>
      s!"character {Text.quoteChar ch} ({Text.codePoint ch}) does not fit in a single byte"

end BinaryRecord
