import BinaryRecord.Decimal.Shortest

/-!
# Positional notation

Decimals and floating-point numbers written out in full, without an exponent.
-/

set_option autoImplicit false

namespace BinaryRecord

/-- A decimal in positional notation. An integer has no point, and a proper fraction has a zero in
front of it. -/
def Decimal.positional (decimal : Decimal) : String :=
  let digits := Nat.toDigits 10 decimal.digits
  if 0 ≤ decimal.exponent then
    String.ofList (digits ++ List.replicate decimal.exponent.toNat '0')
  else
    let places := (-decimal.exponent).toNat
    let padded := List.replicate (places + 1 - digits.length) '0' ++ digits
    let whole := padded.length - places
    String.ofList (padded.take whole ++ '.' :: padded.drop whole)

/-- The text of the number that a bit pattern denotes: the shortest digits that read back, in
positional notation. -/
def FloatFormat.text (format : FloatFormat) (bits : Nat) : String :=
  match format.datum bits with
  | .nan => "NaN"
  | .infinite negative => if negative then "-inf" else "inf"
  | .finite negative significand exponent =>
      let magnitude :=
        if significand = 0 then "0"
        else (format.interval significand exponent).shortest.positional
      if negative then "-" ++ magnitude else magnitude

end BinaryRecord
