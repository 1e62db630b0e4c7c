import BinaryRecord.Panic
import BinaryRecord.Transfer.Fault
import BinaryRecord.Unpacking

/-!
# Sources

A source delivers bytes in chunks of any size, with interruptions, failures and ends of input
between them. Reading a record goes on until its bytes are complete. What was taken before a
failure or an end of input is gone.

`Layout.readUnpacked` describes the reading where a buffer of the record's size can be had. A caller
meets `Layout.readCall`.
-/

set_option autoImplicit false

namespace BinaryRecord

inductive Delivery where
  /-- Bytes, taken from the front. An empty chunk is an end of input. -/
  | data (chunk : Bytes)
  /-- An attempt to read that may be made again. -/
  | interruption
  | failure (text : String)
  deriving DecidableEq, Repr

/-- A source of bytes, as its deliveries in order. After the last one stands an end of input. -/
abbrev Source := List Delivery

namespace Source

def bytes : Source → Bytes
  | [] => []
  | .data chunk :: later => chunk ++ bytes later
  | _ :: later => bytes later

/-- Takes exactly `count` bytes. A failure or an end of input on the way is used up. -/
def read (count : Nat) : Source → EStateM.Result TransferFault Source Bytes
  | [] => if count = 0 then .ok [] [] else .error .endOfInput []
  | delivery :: later =>
      if count = 0 then .ok [] (delivery :: later)
      else match delivery with
        | .data [] => .error .endOfInput later
        | .data chunk =>
            if count < chunk.length then
              .ok (chunk.take count) (.data (chunk.drop count) :: later)
            else match read (count - chunk.length) later with
              | .ok bytes rest => .ok (chunk ++ bytes) rest
              | .error fault rest => .error fault rest
        | .interruption => read count later
        | .failure text => .error (.failure text) later

end Source

/-- Takes the bytes of one record, which a buffer can hold, from a source and unpacks them. -/
def Layout.readUnpacked (layout : Layout) : EStateM UnpackError Source (List Value) :=
  fun source =>
    match Source.read layout.size source with
    | .ok bytes rest =>
        match layout.unpack bytes with
        | .ok values => .ok values rest
        | .error error => .error error rest
    | .error fault rest => .error (.transfer fault) rest

/-- The call that reads a record. Its buffer is reserved before the source is looked at. -/
def Layout.readCall (layout : Layout) :
    EStateM (CallFailure UnpackError) Source (List Value) :=
  if Size.bufferLimit ≤ layout.size then
    throw (.panicked .capacityOverflow)
  else
    layout.readUnpacked.adaptExcept .answered

end BinaryRecord
