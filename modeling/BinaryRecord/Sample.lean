import BinaryRecord.FloatFormat.Rounding
import BinaryRecord.Packing

/-!
# Sample records

Named formats of several shapes, and values for any layout that are found from their index alone.
-/

set_option autoImplicit false

namespace BinaryRecord

structure NamedFormat where
  name : String
  format : String
  deriving DecidableEq, Repr

namespace Sample

/-- Formats of a small record, a mixed one, one of wide groups and one of half-width numbers. -/
def formats : List NamedFormat :=
  [⟨"small", "<If"⟩, ⟨"mixed", "<10s2bd"⟩, ⟨"wide", ">8q8d16s"⟩, ⟨"half", "<32e"⟩]

/-- The letter at a place in the alphabet, which starts over after its end. -/
def letter (place : UInt64) : UInt8 :=
  'a'.toUInt8 + (place % 26).toUInt8

/-- The rounded product of a rounded number and `factor * 2 ^ exponent`. -/
def scaled (format : FloatFormat) (number : UInt64) (factor : Nat) (exponent : Int) : Nat :=
  format.scale (format.encode (.finite false number.toNat 0)) factor exponent

/-- The value of a field that a seed stands for. The width is the length of a byte string. Integers
keep the low bits of the seed. -/
def value (field : Field) (width : Nat) (seed : UInt64) : Value :=
  match field with
  | .char => .char (letter seed)
  | .signedChar => .int8 seed.toUInt8.toInt8
  | .unsignedChar => .uint8 seed.toUInt8
  | .bool => .bool (seed % 2 = 0)
  | .short => .int16 seed.toUInt16.toInt16
  | .unsignedShort => .uint16 seed.toUInt16
  | .int | .long => .int32 seed.toUInt32.toInt32
  | .unsignedInt | .unsignedLong => .uint32 seed.toUInt32
  | .longLong => .int64 (-seed.toInt64)
  | .unsignedLongLong => .uint64 seed
  | .half => .float16 (UInt16.ofNat (scaled .half (seed % 64) 1 (-1)))
  | .float => .float32 (UInt32.ofNat (scaled .single seed 5 (-2)))
  | .double => .float64 (UInt64.ofNat (scaled .double seed 5 (-1)))
  | .bytes => .bytes ((List.range width).map fun place => letter (seed + UInt64.ofNat place))

/-- The values of groups, where the first value has the given index. The seed of a value is its
index. -/
def values (index : Nat) : List Group → List Value
  | [] => []
  | group :: later =>
      (List.range' index group.valueCount).map
          (fun seed => value group.field group.count (UInt64.ofNat seed)) ++
        values (index + group.valueCount) later

end Sample

def Layout.sampleValues (layout : Layout) : List Value :=
  Sample.values 0 layout.groups

def Layout.sampleRecord (layout : Layout) : Except PackError Bytes :=
  layout.pack layout.sampleValues

/-- The call that packs the sample values. -/
def Layout.sampleCall (layout : Layout) : Except (CallFailure PackError) Bytes :=
  layout.packCall layout.sampleValues

end BinaryRecord
