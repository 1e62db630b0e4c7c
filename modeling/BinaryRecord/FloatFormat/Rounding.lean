import BinaryRecord.FloatFormat

/-!
# Rounding to a binary floating-point format

The bit pattern of the number of a format that lies nearest to a given real number, and the widening
of one format's numbers to another format.
-/

set_option autoImplicit false

attribute [local instance (high)] instPowNat

namespace BinaryRecord

/-- The integer nearest to `n / 2 ^ shift`, and of two that are equally near the even one. -/
def roundShiftRight (n shift : Nat) : Nat :=
  let quotient := n / 2 ^ shift
  let rest := 2 * (n % 2 ^ shift)
  if rest < 2 ^ shift ∨ (rest = 2 ^ shift ∧ quotient % 2 = 0) then quotient else quotient + 1

namespace FloatFormat

/-- The sign bit as a summand of the bit pattern. -/
def signBit (format : FloatFormat) (negative : Bool) : Nat :=
  negative.toNat * 2 ^ (format.exponentBits + format.fractionBits)

/-- The bit pattern of an infinity without its sign. It is also the bound of the finite ones. -/
def infinityBits (format : FloatFormat) : Nat :=
  format.topExponent * 2 ^ format.fractionBits

/-- The bit pattern, without a sign, of the number of the format that lies nearest to
`significand * 2 ^ exponent`; of two that are equally near, the one with an even fraction. The last
fraction digit has the exponent that leaves the significand as many digits as the format keeps, or
the least exponent of the format. Counting it from there, the pattern of a number is that count
times the size of the fraction, plus its whole significand: a leading one adds one to the biased
exponent, and so does a carry. A number at or above the bound is infinite. -/
def roundMagnitude (format : FloatFormat) (significand : Nat) (exponent : Int) : Nat :=
  let length : Nat := significand.log2 + 1
  let last := max (exponent + length - (format.fractionBits + 1)) format.leastExponent
  let digits :=
    if last ≤ exponent then significand * 2 ^ (exponent - last).toNat
    else roundShiftRight significand (last - exponent).toNat
  let bits := (last - format.leastExponent).toNat * 2 ^ format.fractionBits + digits
  if significand = 0 then 0 else min bits format.infinityBits

/-- The bit pattern of the datum of the format that lies nearest to the given one. -/
def encode (format : FloatFormat) : FloatDatum → Nat
  | .nan => format.infinityBits + 2 ^ (format.fractionBits - 1)
  | .infinite negative => format.signBit negative + format.infinityBits
  | .finite negative significand exponent =>
      format.signBit negative + format.roundMagnitude significand exponent

/-- The pattern that denotes, in this format, the datum of a pattern of the format `source`. -/
def ofFormat (format source : FloatFormat) (bits : Nat) : Nat :=
  format.encode (source.datum bits)

/-- The pattern of the rounded product of a number of the format and `factor * 2 ^ exponent`. -/
def scale (format : FloatFormat) (bits factor : Nat) (exponent : Int) : Nat :=
  match format.datum bits with
  | .finite negative significand power =>
      format.encode (.finite negative (significand * factor) (power + exponent))
  | datum => format.encode datum

end FloatFormat

end BinaryRecord
