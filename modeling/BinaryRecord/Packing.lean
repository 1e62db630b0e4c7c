import BinaryRecord.Field.Codec
import BinaryRecord.Layout
import BinaryRecord.Packing.Error
import BinaryRecord.Panic

/-!
# Packing

Values become the bytes of a record. A walk over the groups of the layout takes the values of each
group in turn and appends their encodings; the first value that does not fit ends it.

The walk fills a buffer of the record's size. `Layout.pack` and `Layout.packInto` describe it where
that buffer can be had. A caller meets `Layout.packCall` and `Layout.packIntoCall`, which panic
where it cannot.
-/

set_option autoImplicit false

namespace BinaryRecord

/-- How far packing has come: the index of the next value, and the bytes so far. -/
structure Packer where
  index : Nat
  output : Bytes
  deriving DecidableEq, Repr

namespace Packer

def start : Packer :=
  ⟨0, []⟩

def put (packer : Packer) (encoding : Except FieldError Bytes) : Except PackError Packer :=
  match encoding with
  | .ok bytes => .ok ⟨packer.index + 1, packer.output ++ bytes⟩
  | .error error => .error (.ofField packer.index error)

/-- The next `count` values, where there are as many. -/
def next? (packer : Packer) (values : List Value) (count : Nat) : Option (List Value) :=
  if packer.index + count ≤ values.length then
    some ((values.drop packer.index).take count)
  else
    none

/-- The bytes of a byte-string group of `count` bytes that holds the value. -/
def encodeString (count : Nat) (value : Value) : Except FieldError Bytes :=
  match value.bytes? with
  | some content => encodeBytes count content
  | none => .error (.typeMismatch .bytes .bytes value.kind)

def putGroup (order : ByteOrder) (values : List Value) (packer : Packer) (group : Group) :
    Except PackError Packer :=
  match packer.next? values group.valueCount with
  | some window =>
      if group.field.isBytes then
        window.foldlM (fun packer value => packer.put (encodeString group.count value)) packer
      else
        window.foldlM (fun packer value => packer.put (group.field.encode order value)) packer
  | none => .error (.arity (packer.index + group.valueCount) values.length)

end Packer

namespace Layout

/-- Packs one value for each value of the layout, for a record that a buffer can hold. -/
def pack (layout : Layout) (values : List Value) : Except PackError Bytes := do
  if values.length ≠ layout.valueCount then
    throw (.arity layout.valueCount values.length)
  let packer ← layout.groups.foldlM (Packer.putGroup layout.order values) .start
  return packer.output

/-- Packs values into a target buffer at an offset and answers how many bytes were written. The
target, which a buffer can hold, grows as far as it has to and is left as it was on failure. -/
def packInto (layout : Layout) (offset : Nat) (values : List Value) :
    EStateM PackError Bytes Nat := do
  if Size.limit ≤ offset + layout.size then
    throw (.offsetRange offset layout.size)
  match layout.pack values with
  | .ok packed =>
      modify (Bytes.overwrite offset packed)
      return packed.length
  | .error error => throw error

/-- The call that packs. The record's buffer is reserved once the number of the values is right, and
before any of them is looked at. -/
def packCall (layout : Layout) (values : List Value) : Except (CallFailure PackError) Bytes :=
  if values.length = layout.valueCount ∧ Size.bufferLimit ≤ layout.size then
    .error (.panicked .capacityOverflow)
  else
    (layout.pack values).mapError .answered

/-- The call that packs into a target. The target grows once the record is packed. -/
def packIntoCall (layout : Layout) (offset : Nat) (values : List Value) :
    EStateM (CallFailure PackError) Bytes Nat := do
  let finish := offset + layout.size
  if Size.limit ≤ finish then
    throw (.answered (.offsetRange offset layout.size))
  match layout.packCall values with
  | .ok packed =>
      if (← get).length < finish ∧ Size.bufferLimit ≤ finish then
        throw (.panicked .capacityOverflow)
      modify (Bytes.overwrite offset packed)
      return packed.length
  | .error failure => throw failure

end Layout

end BinaryRecord
