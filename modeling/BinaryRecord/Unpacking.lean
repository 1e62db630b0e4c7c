import BinaryRecord.Decoder

/-!
# Unpacking

The bytes of a record become values again. A buffer is unpacked only if it has exactly the size of
the layout.
-/

set_option autoImplicit false

namespace BinaryRecord.Layout

def unpack (layout : Layout) (buffer : Bytes) : Except UnpackError (List Value) :=
  if buffer.length = layout.size then
    (layout.decoder buffer).items.mapM id
  else
    .error (.sizeMismatch layout.size buffer.length)

/-- Unpacks what follows an offset inside a buffer, which must be exactly one record. -/
def unpackFrom (layout : Layout) (offset : Nat) (buffer : Bytes) :
    Except UnpackError (List Value) :=
  if offset < buffer.length then
    layout.unpack (buffer.drop offset)
  else
    .error (.offsetRange offset buffer.length)

end BinaryRecord.Layout
