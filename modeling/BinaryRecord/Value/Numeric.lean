import BinaryRecord.FloatFormat.Rounding
import BinaryRecord.Value

/-!
# Values as numbers

Widening of floating-point values to 64 bits, and the comparison of values that takes floating-point
values as numbers instead of bit patterns.
-/

set_option autoImplicit false

namespace BinaryRecord.Value

/-- The bits of the 64-bit floating-point value that denotes the same datum. -/
def float64? : Value → Option UInt64
  | .float16 bits => some (UInt64.ofNat (FloatFormat.double.ofFormat .half bits.toNat))
  | .float32 bits => some (UInt64.ofNat (FloatFormat.double.ofFormat .single bits.toNat))
  | .float64 bits => some bits
  | _ => none

/-- Whether the value is floating-point and no number. -/
def isNaN (value : Value) : Bool :=
  match value.float64? with
  | some bits => FloatFormat.double.datum bits.toNat = .nan
  | none => false

/-- Whether two values are of one kind and equal, floating-point values as numbers: the two zeros
are equal, and what is no number equals nothing. -/
def equal : Value → Value → Bool
  | .float16 left, .float16 right => FloatFormat.half.equal left.toNat right.toNat
  | .float32 left, .float32 right => FloatFormat.single.equal left.toNat right.toNat
  | .float64 left, .float64 right => FloatFormat.double.equal left.toNat right.toNat
  | left, right => left = right

end BinaryRecord.Value
