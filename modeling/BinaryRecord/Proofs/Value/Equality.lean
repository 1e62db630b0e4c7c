import BinaryRecord.Proofs.FloatFormat.Fields
import BinaryRecord.Value.Numeric

/-!
# Values equal to themselves

Equality of values as numbers is reflexive except on what is no number.
-/

set_option autoImplicit false

attribute [local instance (high)] instPowNat

namespace BinaryRecord

theorem FloatFormat.datum_widen_eq_nan_iff (source : FloatFormat) (bits : Nat) :
    FloatFormat.double.datum
        (UInt64.ofNat (FloatFormat.double.ofFormat source bits)).toNat = .nan ↔
      source.datum bits = .nan := by
  have fractional : 0 < FloatFormat.double.fractionBits := by decide
  have bounded := encode_lt fractional (source.datum bits)
  have word : (2 : Nat) * FloatFormat.double.signWeight = 2 ^ 64 := by decide
  rw [word] at bounded
  rw [ofFormat, UInt64.toNat_ofNat', Nat.mod_eq_of_lt bounded,
    datum_encode_eq_nan_iff fractional]

theorem Value.equal_self_iff {value : Value} :
    value.equal value = true ↔ value.isNaN = false := by
  cases value with
  | float16 bits =>
      simp only [equal, isNaN, float64?, FloatFormat.equal_self_iff,
        FloatFormat.datum_widen_eq_nan_iff, decide_eq_false_iff_not, ne_eq]
  | float32 bits =>
      simp only [equal, isNaN, float64?, FloatFormat.equal_self_iff,
        FloatFormat.datum_widen_eq_nan_iff, decide_eq_false_iff_not, ne_eq]
  | float64 bits => simp [equal, isNaN, float64?, FloatFormat.equal_self_iff]
  | _ => simp [equal, isNaN, float64?]

end BinaryRecord
