import BinaryRecord.Field.Error
import BinaryRecord.Transfer.Fault

/-!
# Packing errors

Why values could not be packed or the packed bytes not delivered, and the message of each case.
Indices count values from the start of the record.
-/

set_option autoImplicit false

namespace BinaryRecord

inductive PackError where
  | arity (expected actual : Nat)
  | typeMismatch (index : Nat) (tag : Char) (name : String) (expected found : Kind)
  | stringLength (index expected actual : Nat)
  | codec (index : Nat) (cause : FieldError)
  /-- The end of the record in the target would be no size. -/
  | offsetRange (offset size : Nat)
  | transfer (fault : TransferFault)
  deriving DecidableEq, Repr

namespace PackError

def ofField (index : Nat) : FieldError → PackError
  | .typeMismatch field expected found => .typeMismatch index field.tag field.name expected found
  | .stringLength expected actual => .stringLength index expected actual
  | cause => .codec index cause

def message : PackError → String
  | .arity expected actual => s!"pack expected {expected} items for packing (got {actual})"
  | .typeMismatch index tag name expected found =>
      s!"argument {index} must be {expected.name} for '{tag}' ({name}), found {found.name}"
  | .stringLength index expected actual =>
      s!"argument {index}: byte string of {actual} bytes is shorter than width {expected}"
  | .codec index cause => s!"codec error at value {index}: {cause.message}"
  | .offsetRange offset size =>
      s!"offset {offset} out of range for a packed size of {size} bytes"
  | .transfer fault => s!"IO error: {fault.message}"

/-- The message of the error underneath, if there is one. -/
def cause? : PackError → Option String
  | .codec _ cause => some cause.message
  | .transfer fault => some fault.message
  | _ => none

end PackError

end BinaryRecord
