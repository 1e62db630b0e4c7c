/-!
# Transfer faults

Why bytes could not be handed to a sink or taken from a source.
-/

set_option autoImplicit false

namespace BinaryRecord

inductive TransferFault where
  | endOfInput
  | noProgress
  | failure (text : String)
  deriving DecidableEq, Repr

def TransferFault.message : TransferFault → String
  | .endOfInput => "failed to fill whole buffer"
  | .noProgress => "failed to write whole buffer"
  | .failure text => text

end BinaryRecord
