import BinaryRecord.Proofs.FloatFormat.Numbers

/-!
# Widening

A format is embedded in a wider one if that has no fewer digits and no smaller range of exponents.
Then every number of the one is a number of the other, and its pattern there is the rounded one.
Main statement: `FloatFormat.Embeds.number?_ofFormat`.
-/

set_option autoImplicit false

attribute [local instance (high)] instPowNat

namespace BinaryRecord.FloatFormat

/-- A format that has no fewer digits than another and no fewer exponents. -/
structure Embeds (source format : FloatFormat) : Prop where
  one_lt_exponentBits : 1 < source.exponentBits
  exponentBits_le : source.exponentBits ≤ format.exponentBits
  fractionBits_le : source.fractionBits ≤ format.fractionBits
  fractionBits_pos : 0 < format.fractionBits

theorem embeds_half : Embeds half double := by
  constructor <;> decide

theorem embeds_single : Embeds single double := by
  constructor <;> decide

variable {source format : FloatFormat} {magnitude bits : Nat}

theorem isNegative_signBit_add (negative : Bool) (bounded : magnitude < format.signWeight) :
    format.isNegative (format.signBit negative + magnitude) = negative := by
  change decide ((negative.toNat * format.signWeight + magnitude) / format.signWeight % 2 = 1) =
    negative
  have positive : 0 < format.signWeight := Nat.lt_of_le_of_lt (Nat.zero_le _) bounded
  rw [Nat.mul_comm, Nat.mul_add_div positive, Nat.div_eq_of_lt bounded]
  cases negative <;> rfl

theorem magnitude_signBit_add (negative : Bool) (bounded : magnitude < format.signWeight) :
    format.magnitude (format.signBit negative + magnitude) = magnitude := by
  change (negative.toNat * format.signWeight + magnitude) % format.signWeight = magnitude
  rw [Nat.mul_comm, Nat.mul_add_mod, Nat.mod_eq_of_lt bounded]

theorem number?_signBit_add (negative : Bool) (bounded : magnitude < format.signWeight) :
    format.number? (format.signBit negative + magnitude) =
      if magnitude < format.infinityBits then some (format.real negative magnitude : EReal)
      else if magnitude = format.infinityBits then some (if negative then ⊥ else ⊤)
      else none := by
  rw [number?_eq, isNegative_signBit_add negative bounded, magnitude_signBit_add negative bounded]

theorem infinityBits_lt_signWeight (format : FloatFormat) :
    format.infinityBits < format.signWeight := by
  have below := format.infinityBits_lt
  have positive : 0 < 2 ^ format.fractionBits := Nat.two_pow_pos format.fractionBits
  omega

theorem log2_significand_le (source : FloatFormat) (magnitude : Nat) :
    (source.significand magnitude).log2 ≤ source.fractionBits := by
  have bounded := source.significand_lt magnitude
  by_cases zero : source.significand magnitude = 0
  · rw [zero, Nat.log2_zero]
    exact Nat.zero_le _
  · exact Nat.le_of_lt_succ ((Nat.log2_lt zero).mpr bounded)

theorem topExponent_eq (exponents : 0 < format.exponentBits) :
    format.topExponent = 2 * format.bias + 1 := by
  have doubled : 2 ^ format.exponentBits = 2 * 2 ^ (format.exponentBits - 1) := by
    rw [← Nat.pow_succ', Nat.succ_eq_add_one, Nat.sub_add_cancel exponents]
  have positive := Nat.two_pow_pos (format.exponentBits - 1)
  rw [topExponent, bias, doubled]
  omega

namespace Embeds

theorem bias_le (embeds : Embeds source format) : source.bias ≤ format.bias := by
  have exponents := embeds.exponentBits_le
  exact Nat.sub_le_sub_right (Nat.pow_le_pow_right (by decide) (by omega)) 1

theorem bias_pos (embeds : Embeds source format) : 0 < source.bias := by
  have exponents := embeds.one_lt_exponentBits
  have power : 2 ^ (1 : Nat) ≤ 2 ^ (source.exponentBits - 1) :=
    Nat.pow_le_pow_right (by decide) (by omega)
  rw [bias]
  omega

theorem source_top (embeds : Embeds source format) :
    source.topExponent = 2 * source.bias + 1 :=
  topExponent_eq (Nat.lt_of_succ_lt embeds.one_lt_exponentBits)

theorem format_top (embeds : Embeds source format) :
    format.topExponent = 2 * format.bias + 1 :=
  topExponent_eq (Nat.lt_of_lt_of_le (Nat.lt_of_succ_lt embeds.one_lt_exponentBits)
    embeds.exponentBits_le)

theorem leastExponent_le (embeds : Embeds source format) :
    format.leastExponent ≤ source.leastExponent := by
  have biases := embeds.bias_le
  have fractions := embeds.fractionBits_le
  rw [leastExponent, leastExponent]
  omega

theorem two_le_topExponent (embeds : Embeds source format) : 2 ≤ format.topExponent := by
  have positive := Nat.lt_of_lt_of_le embeds.bias_pos embeds.bias_le
  rw [embeds.format_top]
  omega

theorem elevation_add_two_le (embeds : Embeds source format)
    (finite : magnitude < source.infinityBits) :
    source.elevation magnitude + 2 ≤ source.topExponent := by
  have quotient := (Nat.div_lt_iff_lt_mul (Nat.two_pow_pos source.fractionBits)).mpr finite
  have top := embeds.source_top
  have positive := embeds.bias_pos
  rw [elevation]
  omega

/-- A finite number of the source is rounded to itself. -/
theorem real_roundMagnitude (embeds : Embeds source format)
    (finite : magnitude < source.infinityBits) (negative : Bool) :
    format.roundMagnitude (source.significand magnitude)
        (source.leastExponent + source.elevation magnitude) < format.infinityBits ∧
      format.real negative (format.roundMagnitude (source.significand magnitude)
        (source.leastExponent + source.elevation magnitude)) =
        source.real negative magnitude := by
  obtain ⟨gap, least⟩ := Int.le.dest embeds.leastExponent_le
  have exponent : source.leastExponent + source.elevation magnitude =
      format.leastExponent + (gap + source.elevation magnitude : Nat) := by
    omega
  have digits : source.significand magnitude < 2 ^ (format.fractionBits + 1) :=
    Nat.lt_of_lt_of_le (source.significand_lt magnitude)
      (Nat.pow_le_pow_right (by decide) (Nat.succ_le_succ embeds.fractionBits_le))
  have room : gap + source.elevation magnitude + (source.significand magnitude).log2 + 2 ≤
      format.fractionBits + format.topExponent := by
    have elevation := embeds.elevation_add_two_le finite
    have length := source.log2_significand_le magnitude
    have biases := embeds.bias_le
    rw [embeds.source_top] at elevation
    rw [embeds.format_top]
    unfold leastExponent at least
    omega
  obtain ⟨bounded, exact⟩ := units_roundMagnitude embeds.two_le_topExponent digits room
  rw [exponent]
  refine ⟨bounded, ?_⟩
  rw [real, real, exact, ← least, units, zpow_add₀ two_ne_zero, zpow_natCast]
  push_cast
  ring

/-- A pattern of the source is widened to one of the same number and, if it is a number, of the same
sign. -/
theorem number?_ofFormat (embeds : Embeds source format) (bits : Nat) :
    format.number? (format.ofFormat source bits) = source.number? bits ∧
      (source.number? bits ≠ none →
        format.isNegative (format.ofFormat source bits) = source.isNegative bits) := by
  have infinite := format.infinityBits_lt_signWeight
  rw [number?_eq source, ofFormat, datum_eq]
  split
  next finite =>
    obtain ⟨bounded, exact⟩ := embeds.real_roundMagnitude finite (source.isNegative bits)
    have inside := Nat.lt_trans bounded infinite
    rw [encode, number?_signBit_add _ inside, if_pos bounded, exact]
    exact ⟨rfl, fun _ => isNegative_signBit_add _ inside⟩
  next =>
    split
    next =>
      rw [encode, number?_signBit_add _ infinite, if_neg (Nat.lt_irrefl _), if_pos rfl]
      exact ⟨rfl, fun _ => isNegative_signBit_add _ infinite⟩
    next =>
      have nan := (datum_encode_eq_nan_iff embeds.fractionBits_pos .nan).mpr rfl
      exact ⟨number?_eq_none_iff_datum.mpr nan, fun number => absurd rfl number⟩

end Embeds

end BinaryRecord.FloatFormat
