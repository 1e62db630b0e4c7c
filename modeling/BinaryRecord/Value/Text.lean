import BinaryRecord.Decimal.Positional
import BinaryRecord.Text.Quoted
import BinaryRecord.Value.Numeric

/-!
# The text of a value
-/

set_option autoImplicit false

namespace BinaryRecord

/-- The text of a value. A character is quoted as the one whose code point is its byte. A
floating-point value of 16 bits is written with the digits that tell it apart among those of 32. -/
def Value.text : Value → String
  | .char byte => Text.quoteChar (Char.ofNat byte.toNat)
  | .int8 number => toString number.toInt
  | .uint8 number => toString number.toNat
  | .bool truth => if truth then "true" else "false"
  | .int16 number => toString number.toInt
  | .uint16 number => toString number.toNat
  | .int32 number => toString number.toInt
  | .uint32 number => toString number.toNat
  | .int64 number => toString number.toInt
  | .uint64 number => toString number.toNat
  | .float16 bits => FloatFormat.single.text (FloatFormat.single.ofFormat .half bits.toNat)
  | .float32 bits => FloatFormat.single.text bits.toNat
  | .float64 bits => FloatFormat.double.text bits.toNat
  | .bytes content => Text.quoteBytes content

end BinaryRecord
