/-!
# Binary floating-point formats

The binary interchange formats of floating-point numbers, and the datum that a bit pattern denotes:
a signed zero or real number, a signed infinity, or no number. Bit patterns are natural numbers.
-/

set_option autoImplicit false

attribute [local instance (high)] instPowNat

namespace BinaryRecord

/-- A binary interchange format: one sign bit, then the biased exponent, then the fraction. -/
structure FloatFormat where
  exponentBits : Nat
  fractionBits : Nat
  deriving DecidableEq, Repr

inductive FloatDatum where
  | nan
  | infinite (negative : Bool)
  /-- The real number `significand * 2 ^ exponent` with its sign, which a zero has too. -/
  | finite (negative : Bool) (significand : Nat) (exponent : Int)
  deriving DecidableEq, Repr

namespace FloatFormat

def half : FloatFormat := ⟨5, 10⟩

def single : FloatFormat := ⟨8, 23⟩

def double : FloatFormat := ⟨11, 52⟩

/-- The largest biased exponent, which infinities and patterns of no number have. -/
def topExponent (format : FloatFormat) : Nat :=
  2 ^ format.exponentBits - 1

/-- What the biased exponent exceeds the exponent of the leading digit by. -/
def bias (format : FloatFormat) : Nat :=
  2 ^ (format.exponentBits - 1) - 1

/-- The exponent of the last fraction digit of subnormal numbers, the least exponent there is. -/
def leastExponent (format : FloatFormat) : Int :=
  1 - (format.bias : Int) - (format.fractionBits : Int)

def isNegative (format : FloatFormat) (bits : Nat) : Bool :=
  bits / 2 ^ (format.exponentBits + format.fractionBits) % 2 = 1

def exponentField (format : FloatFormat) (bits : Nat) : Nat :=
  bits / 2 ^ format.fractionBits % 2 ^ format.exponentBits

def fractionField (format : FloatFormat) (bits : Nat) : Nat :=
  bits % 2 ^ format.fractionBits

/-- What a bit pattern denotes. Subnormal numbers have no leading one and share the exponent of the
least normal numbers. -/
def datum (format : FloatFormat) (bits : Nat) : FloatDatum :=
  let negative := format.isNegative bits
  let exponent := format.exponentField bits
  let fraction := format.fractionField bits
  if exponent = format.topExponent then
    if fraction = 0 then .infinite negative else .nan
  else if exponent = 0 then
    .finite negative fraction format.leastExponent
  else
    .finite negative (2 ^ format.fractionBits + fraction)
      (format.leastExponent + (exponent - 1 : Nat))

end FloatFormat

/-- Whether two patterns of one format denote equal numbers. The two zeros are equal, and what is no
number equals nothing, itself included. -/
def FloatFormat.equal (format : FloatFormat) (left right : Nat) : Bool :=
  match format.datum left, format.datum right with
  | .infinite leftNegative, .infinite rightNegative => leftNegative = rightNegative
  | .finite leftNegative leftSignificand leftExponent,
      .finite rightNegative rightSignificand rightExponent =>
      (leftSignificand = 0 ∧ rightSignificand = 0) ∨
        (leftNegative = rightNegative ∧ leftSignificand = rightSignificand ∧
          leftExponent = rightExponent)
  | _, _ => false

end BinaryRecord
