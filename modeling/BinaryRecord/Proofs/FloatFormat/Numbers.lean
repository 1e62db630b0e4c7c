import BinaryRecord.Proofs.FloatFormat.Magnitudes
import Mathlib.Data.EReal.Basic

/-!
# Numbers of patterns

The extended real number that a pattern stands for, as the standard of binary floating-point
arithmetic has it, and the same number by magnitude. Main statement:
`FloatFormat.eq_of_number?`, by which number and sign determine the pattern.
-/

set_option autoImplicit false

attribute [local instance (high)] instPowNat

namespace BinaryRecord.FloatFormat

variable {format : FloatFormat}

/-- The extended real number that a pattern stands for, if it stands for one. A pattern with the
sign `s`, the biased exponent `E` and the fraction `F` of `f` bits stands for
`(-1) ^ s * 2 ^ (E - bias) * (1 + F / 2 ^ f)`, with `E = 0` for the subnormal number
`(-1) ^ s * 2 ^ (1 - bias) * (F / 2 ^ f)`, and with the largest `E` for an infinity if `F = 0` and
for no number otherwise. -/
noncomputable def number? (format : FloatFormat) (bits : Nat) : Option EReal :=
  let negative := bits / 2 ^ (format.exponentBits + format.fractionBits) % 2 = 1
  let exponent := bits / 2 ^ format.fractionBits % 2 ^ format.exponentBits
  let fraction := bits % 2 ^ format.fractionBits
  let bias : ℤ := (2 ^ (format.exponentBits - 1) : ℕ) - 1
  let sign : ℝ := if negative then -1 else 1
  let part : ℝ := (fraction : ℝ) / 2 ^ format.fractionBits
  if exponent = 2 ^ format.exponentBits - 1 then
    if fraction = 0 then some (if negative then ⊥ else ⊤) else none
  else if exponent = 0 then
    some ((sign * 2 ^ (1 - bias) * part : ℝ) : EReal)
  else
    some ((sign * 2 ^ ((exponent : ℤ) - bias) * (1 + part) : ℝ) : EReal)

/-- The real number with a sign and a magnitude. -/
noncomputable def real (format : FloatFormat) (negative : Bool) (magnitude : Nat) : ℝ :=
  (if negative then -1 else 1) * format.units magnitude * 2 ^ format.leastExponent

theorem exponentField_eq (format : FloatFormat) (bits : Nat) :
    format.exponentField bits = format.magnitude bits / 2 ^ format.fractionBits := by
  rw [exponentField, magnitude, signWeight_eq, Nat.mod_mul_right_div_self]

theorem fractionField_eq (format : FloatFormat) (bits : Nat) :
    format.fractionField bits = format.magnitude bits % 2 ^ format.fractionBits := by
  rw [fractionField, magnitude, signWeight_eq, Nat.mod_mul_right_mod]

theorem exponentField_le (format : FloatFormat) (bits : Nat) :
    format.exponentField bits ≤ format.topExponent :=
  Nat.le_sub_one_of_lt (Nat.mod_lt _ (Nat.two_pow_pos _))

theorem magnitude_lt_infinityBits_iff {bits : Nat} :
    format.magnitude bits < format.infinityBits ↔
      format.exponentField bits ≠ format.topExponent := by
  have most := format.exponentField_le bits
  rw [exponentField_eq] at most ⊢
  rw [infinityBits, ← Nat.div_lt_iff_lt_mul (Nat.two_pow_pos _)]
  omega

theorem magnitude_eq_infinityBits_iff {bits : Nat} :
    format.magnitude bits = format.infinityBits ↔
      format.exponentField bits = format.topExponent ∧ format.fractionField bits = 0 := by
  have positive : 0 < 2 ^ format.fractionBits := Nat.two_pow_pos format.fractionBits
  rw [exponentField_eq, fractionField_eq, infinityBits]
  constructor
  · intro same
    rw [same]
    exact ⟨Nat.mul_div_cancel _ positive, Nat.mul_mod_left _ _⟩
  · rintro ⟨exponent, fraction⟩
    have parts := Nat.div_add_mod' (format.magnitude bits) (2 ^ format.fractionBits)
    rw [exponent, fraction] at parts
    exact parts.symm

/-- What a pattern denotes, by its magnitude. -/
theorem datum_eq (format : FloatFormat) (bits : Nat) :
    format.datum bits =
      if format.magnitude bits < format.infinityBits then
        .finite (format.isNegative bits) (format.significand (format.magnitude bits))
          (format.leastExponent + format.elevation (format.magnitude bits))
      else if format.magnitude bits = format.infinityBits then .infinite (format.isNegative bits)
      else .nan := by
  simp only [datum, magnitude_lt_infinityBits_iff, magnitude_eq_infinityBits_iff, significand,
    elevation, ← exponentField_eq, ← fractionField_eq]
  by_cases top : format.exponentField bits = format.topExponent
  · simp [top]
  · by_cases subnormal : format.exponentField bits = 0
    · rw [subnormal] at top
      simp [top, subnormal]
    · simp [top, subnormal, Nat.add_comm]

theorem two_zpow_leastExponent (format : FloatFormat) :
    (2 : ℝ) ^ format.leastExponent = 2 ^ (1 - (format.bias : ℤ)) / 2 ^ format.fractionBits := by
  rw [leastExponent, zpow_sub₀ two_ne_zero, zpow_natCast]

/-- The number of a subnormal pattern. -/
theorem real_of_subnormal {bits : Nat} (negative : Bool)
    (subnormal : format.exponentField bits = 0) :
    format.real negative (format.magnitude bits) =
      (if negative then -1 else 1) * 2 ^ (1 - (format.bias : ℤ)) *
        (format.fractionField bits / 2 ^ format.fractionBits) := by
  rw [real, units, significand, elevation, ← exponentField_eq, ← fractionField_eq, subnormal,
    two_zpow_leastExponent]
  simp only [if_true, Nat.add_zero, Nat.zero_sub, Nat.pow_zero, Nat.mul_one]
  ring

/-- The number of a pattern with a leading one. -/
theorem real_of_normal {bits : Nat} (negative : Bool) (normal : format.exponentField bits ≠ 0) :
    format.real negative (format.magnitude bits) =
      (if negative then -1 else 1) * 2 ^ ((format.exponentField bits : ℤ) - format.bias) *
        (1 + format.fractionField bits / 2 ^ format.fractionBits) := by
  have exponent : (format.exponentField bits : ℤ) - format.bias =
      (format.exponentField bits - 1 : ℕ) + (1 - (format.bias : ℤ)) := by
    omega
  have positive : (2 : ℝ) ^ format.fractionBits ≠ 0 := pow_ne_zero _ two_ne_zero
  rw [real, units, significand, elevation, ← exponentField_eq, ← fractionField_eq,
    two_zpow_leastExponent, exponent, zpow_add₀ two_ne_zero, zpow_natCast, if_neg normal]
  push_cast
  field_simp
  ring

/-- The number of a pattern, by its fields. -/
theorem number?_eq_fields (format : FloatFormat) (bits : Nat) :
    format.number? bits =
      if format.exponentField bits = format.topExponent then
        if format.fractionField bits = 0 then
          some (if format.isNegative bits then ⊥ else ⊤) else none
      else if format.exponentField bits = 0 then
        some (((if format.isNegative bits then -1 else 1) * 2 ^ (1 - (format.bias : ℤ)) *
          (format.fractionField bits / 2 ^ format.fractionBits) : ℝ) : EReal)
      else
        some (((if format.isNegative bits then -1 else 1) *
          2 ^ ((format.exponentField bits : ℤ) - format.bias) *
          (1 + format.fractionField bits / 2 ^ format.fractionBits) : ℝ) : EReal) := by
  have sign : format.isNegative bits = true ↔
      bits / 2 ^ (format.exponentBits + format.fractionBits) % 2 = 1 := decide_eq_true_iff
  have bias : (format.bias : ℤ) = (2 ^ (format.exponentBits - 1) : ℕ) - 1 := by
    have positive := Nat.two_pow_pos (format.exponentBits - 1)
    rw [FloatFormat.bias]
    omega
  simp only [number?, sign, bias]
  rfl

/-- The number of a pattern, by its magnitude. -/
theorem number?_eq (format : FloatFormat) (bits : Nat) :
    format.number? bits =
      if format.magnitude bits < format.infinityBits then
        some (format.real (format.isNegative bits) (format.magnitude bits) : EReal)
      else if format.magnitude bits = format.infinityBits then
        some (if format.isNegative bits then ⊥ else ⊤)
      else none := by
  rw [number?_eq_fields]
  simp only [magnitude_lt_infinityBits_iff, magnitude_eq_infinityBits_iff]
  by_cases top : format.exponentField bits = format.topExponent
  · simp [top]
  · rw [if_neg top, if_pos top]
    by_cases subnormal : format.exponentField bits = 0
    · rw [if_pos subnormal, real_of_subnormal _ subnormal]
    · rw [if_neg subnormal, real_of_normal _ subnormal]

theorem real_inj {negative : Bool} {left right : Nat}
    (same : format.real negative left = format.real negative right) : left = right := by
  have power : (2 : ℝ) ^ format.leastExponent ≠ 0 := zpow_ne_zero _ two_ne_zero
  have sign : (if negative then -1 else 1 : ℝ) ≠ 0 := by cases negative <;> simp
  have units := mul_left_cancel₀ sign (mul_right_cancel₀ power same)
  exact format.strictMono_units.injective (Nat.cast_injective units)

theorem infinite_ne_real (infinite negative : Bool) (magnitude : Nat) :
    (if infinite then ⊥ else ⊤ : EReal) ≠ (format.real negative magnitude : EReal) := by
  cases infinite with
  | false => exact (EReal.coe_ne_top _).symm
  | true => exact (EReal.coe_ne_bot _).symm

theorem number?_eq_none_iff {bits : Nat} :
    format.number? bits = none ↔ format.infinityBits < format.magnitude bits := by
  rw [number?_eq]
  split
  next finite => simp [Nat.le_of_lt finite]
  next large =>
    split
    next infinite => simp [infinite]
    next nan => simp [Nat.lt_of_le_of_ne (Nat.le_of_not_lt large) (Ne.symm nan)]

theorem number?_eq_none_iff_datum {bits : Nat} :
    format.number? bits = none ↔ format.datum bits = .nan := by
  rw [number?_eq, datum_eq]
  split
  next => simp
  next => split <;> simp

theorem signBit_add_magnitude {bits : Nat} (bounded : bits < 2 * format.signWeight) :
    format.signBit (format.isNegative bits) + format.magnitude bits = bits := by
  have parts := Nat.div_add_mod' bits format.signWeight
  have quotient : bits / format.signWeight < 2 := Nat.div_lt_of_lt_mul (by omega)
  have sign : (format.isNegative bits).toNat = bits / format.signWeight := by
    change (decide (bits / format.signWeight % 2 = 1)).toNat = bits / format.signWeight
    generalize bits / format.signWeight = leading at quotient ⊢
    obtain rfl | rfl : leading = 0 ∨ leading = 1 := by omega
    · rfl
    · rfl
  rw [signBit, sign]
  exact parts

/-- The number and the sign of a pattern determine it. -/
theorem eq_of_number? {left right : Nat} (leftBound : left < 2 * format.signWeight)
    (rightBound : right < 2 * format.signWeight) (number : format.number? left ≠ none)
    (same : format.number? left = format.number? right)
    (sign : format.isNegative left = format.isNegative right) : left = right := by
  have magnitudes : format.magnitude left = format.magnitude right := by
    have leftMost := Nat.le_of_not_lt (mt number?_eq_none_iff.mpr number)
    have rightMost := Nat.le_of_not_lt (mt number?_eq_none_iff.mpr (same ▸ number))
    rw [number?_eq, number?_eq, sign] at same
    rcases Nat.lt_or_eq_of_le leftMost with leftFinite | leftInfinite <;>
      rcases Nat.lt_or_eq_of_le rightMost with rightFinite | rightInfinite
    · rw [if_pos leftFinite, if_pos rightFinite] at same
      exact real_inj (EReal.coe_injective (Option.some.inj same))
    · rw [if_pos leftFinite, if_neg (by omega), if_pos rightInfinite] at same
      exact absurd (Option.some.inj same).symm (infinite_ne_real _ _ _)
    · rw [if_neg (by omega), if_pos leftInfinite, if_pos rightFinite] at same
      exact absurd (Option.some.inj same) (infinite_ne_real _ _ _)
    · exact leftInfinite.trans rightInfinite.symm
  rw [← signBit_add_magnitude leftBound, ← signBit_add_magnitude rightBound, sign, magnitudes]

end BinaryRecord.FloatFormat
