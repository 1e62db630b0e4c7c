import BinaryRecord.Error
import BinaryRecord.Packing
import BinaryRecord.Stream
import BinaryRecord.Unpacking

/-!
# Operations on a format's text

Each operation compiles the format first, so a format error comes before any other and leaves a
target buffer as it was.
-/

set_option autoImplicit false

namespace BinaryRecord.Direct

def compile (format : String) : Except RecordError Layout :=
  (Layout.compile format).mapError .format

def sizeOf (format : String) : Except RecordError Nat :=
  (compile format).map Layout.size

def pack (format : String) (values : List Value) : Except (CallFailure RecordError) Bytes := do
  let layout ← (compile format).mapError .answered
  (layout.packCall values).mapError (.map .pack)

def packInto (format : String) (offset : Nat) (values : List Value) :
    EStateM (CallFailure RecordError) Bytes Nat :=
  match compile format with
  | .ok layout => (layout.packIntoCall offset values).adaptExcept (.map .pack)
  | .error error => throw (.answered error)

def unpack (format : String) (buffer : Bytes) : Except RecordError (List Value) := do
  let layout ← compile format
  (layout.unpack buffer).mapError .unpack

def unpackFrom (format : String) (offset : Nat) (buffer : Bytes) :
    Except RecordError (List Value) := do
  let layout ← compile format
  (layout.unpackFrom offset buffer).mapError .unpack

/-- Starts a stream over a buffer by a format, with the settings of a stream left as they are. -/
def stream (format : String) (buffer : Bytes) (refusal : Option String) :
    Except (CallFailure RecordError) Stream := do
  let layout ← (compile format).mapError .answered
  (layout.spawn {} buffer refusal).mapError .panicked

end BinaryRecord.Direct
