import BinaryRecord.FloatFormat.Rounding

/-!
# Fields of encoded data

A bit pattern is a sign and a magnitude, and the magnitude an exponent and a fraction. No datum but
the one that is no number is encoded as a pattern that denotes no number.
-/

set_option autoImplicit false

attribute [local instance (high)] instPowNat

namespace BinaryRecord.FloatFormat

/-- The bound of the magnitudes, and the weight of the sign bit. -/
def signWeight (format : FloatFormat) : Nat :=
  2 ^ (format.exponentBits + format.fractionBits)

theorem signWeight_eq (format : FloatFormat) :
    format.signWeight = 2 ^ format.fractionBits * 2 ^ format.exponentBits := by
  rw [signWeight, Nat.pow_add, Nat.mul_comm]

theorem signBit_eq (format : FloatFormat) (negative : Bool) :
    format.signBit negative =
      2 ^ format.fractionBits * (2 ^ format.exponentBits * negative.toNat) := by
  rw [← Nat.mul_assoc, ← signWeight_eq, signWeight, signBit, Nat.mul_comm]

theorem infinityBits_lt (format : FloatFormat) :
    format.infinityBits + 2 ^ format.fractionBits ≤ format.signWeight := by
  have positive : 0 < 2 ^ format.exponentBits := Nat.two_pow_pos format.exponentBits
  have top : format.topExponent + 1 = 2 ^ format.exponentBits := by
    unfold topExponent
    omega
  refine Nat.le_of_eq ?_
  rw [signWeight_eq, ← top, infinityBits, Nat.mul_comm (2 ^ format.fractionBits), Nat.add_mul,
    Nat.one_mul]

theorem exponentField_signBit_add {format : FloatFormat} {magnitude : Nat} (negative : Bool)
    (bounded : magnitude < format.signWeight) :
    format.exponentField (format.signBit negative + magnitude) =
      magnitude / 2 ^ format.fractionBits := by
  have quotient : magnitude / 2 ^ format.fractionBits < 2 ^ format.exponentBits := by
    rw [signWeight_eq] at bounded
    exact Nat.div_lt_of_lt_mul bounded
  rw [exponentField, signBit_eq, Nat.mul_add_div (Nat.two_pow_pos _), Nat.mul_add_mod,
    Nat.mod_eq_of_lt quotient]

theorem fractionField_signBit_add (format : FloatFormat) (negative : Bool) (magnitude : Nat) :
    format.fractionField (format.signBit negative + magnitude) =
      magnitude % 2 ^ format.fractionBits := by
  rw [fractionField, signBit_eq, Nat.mul_add_mod]

theorem datum_eq_nan_iff {format : FloatFormat} {bits : Nat} :
    format.datum bits = .nan ↔
      format.exponentField bits = format.topExponent ∧ format.fractionField bits ≠ 0 := by
  simp only [datum]
  by_cases top : format.exponentField bits = format.topExponent
  · by_cases fraction : format.fractionField bits = 0 <;> simp [top, fraction]
  · simp only [top, if_false, false_and, iff_false]
    split <;> simp

theorem roundMagnitude_le (format : FloatFormat) (significand : Nat) (exponent : Int) :
    format.roundMagnitude significand exponent ≤ format.infinityBits := by
  unfold roundMagnitude
  split
  · exact Nat.zero_le _
  · exact Nat.min_le_right _ _

theorem datum_ne_nan_of_le {format : FloatFormat} {magnitude : Nat} (negative : Bool)
    (bounded : magnitude ≤ format.infinityBits) :
    format.datum (format.signBit negative + magnitude) ≠ .nan := by
  have below := format.infinityBits_lt
  have positive : 0 < 2 ^ format.fractionBits := Nat.two_pow_pos format.fractionBits
  intro nan
  obtain ⟨top, fraction⟩ := datum_eq_nan_iff.mp nan
  rw [exponentField_signBit_add negative (by omega)] at top
  rw [fractionField_signBit_add] at fraction
  have split := Nat.div_add_mod magnitude (2 ^ format.fractionBits)
  rw [top, Nat.mul_comm] at split
  unfold infinityBits at bounded
  omega

/-- Encoding keeps apart what is a number and what is none, where there is a fraction. -/
theorem datum_encode_eq_nan_iff {format : FloatFormat} (fractional : 0 < format.fractionBits)
    (datum : FloatDatum) : format.datum (format.encode datum) = .nan ↔ datum = .nan := by
  cases datum with
  | nan =>
      have half : 2 ^ (format.fractionBits - 1) * 2 = 2 ^ format.fractionBits := by
        rw [← Nat.pow_succ, Nat.succ_eq_add_one, Nat.sub_add_cancel fractional]
      have halfPositive : 0 < 2 ^ (format.fractionBits - 1) := Nat.two_pow_pos _
      have below : 2 ^ (format.fractionBits - 1) < 2 ^ format.fractionBits := by omega
      have bounded := format.infinityBits_lt
      have inside : format.infinityBits + 2 ^ (format.fractionBits - 1) < format.signWeight := by
        omega
      have exponent := exponentField_signBit_add false inside
      have fraction := format.fractionField_signBit_add false
        (format.infinityBits + 2 ^ (format.fractionBits - 1))
      simp only [signBit, Bool.toNat_false, Nat.zero_mul, Nat.zero_add] at exponent fraction
      simp only [encode, iff_true]
      apply datum_eq_nan_iff.mpr
      rw [exponent, fraction, infinityBits, Nat.mul_comm, Nat.mul_add_div (Nat.two_pow_pos _),
        Nat.mul_add_mod, Nat.div_eq_of_lt below, Nat.mod_eq_of_lt below]
      exact ⟨rfl, by omega⟩
  | infinite negative =>
      simp only [encode, reduceCtorEq, iff_false]
      exact datum_ne_nan_of_le negative (Nat.le_refl _)
  | finite negative significand exponent =>
      simp only [encode, reduceCtorEq, iff_false]
      exact datum_ne_nan_of_le negative (format.roundMagnitude_le significand exponent)

theorem encode_lt {format : FloatFormat} (fractional : 0 < format.fractionBits)
    (datum : FloatDatum) : format.encode datum < 2 * format.signWeight := by
  have bounded := format.infinityBits_lt
  have positive : 0 < 2 ^ format.fractionBits := Nat.two_pow_pos format.fractionBits
  have sign (negative : Bool) : format.signBit negative ≤ format.signWeight := by
    cases negative <;> simp [signBit, signWeight]
  cases datum with
  | nan =>
      have below : 2 ^ (format.fractionBits - 1) < 2 ^ format.fractionBits :=
        Nat.pow_lt_pow_right (by decide) (by omega)
      simp only [encode]
      omega
  | infinite negative =>
      have := sign negative
      simp only [encode]
      omega
  | finite negative significand exponent =>
      have := sign negative
      have := format.roundMagnitude_le significand exponent
      simp only [encode]
      omega

/-- A product is a number wherever the number that is multiplied is one. -/
theorem exists_scale_eq_encode (format : FloatFormat) (bits factor : Nat) (exponent : Int) :
    ∃ datum, format.scale bits factor exponent = format.encode datum ∧
      (datum = .nan ↔ format.datum bits = .nan) := by
  unfold scale
  cases format.datum bits with
  | finite negative significand power => exact ⟨_, rfl, by simp⟩
  | nan => exact ⟨_, rfl, Iff.rfl⟩
  | infinite negative => exact ⟨_, rfl, Iff.rfl⟩

theorem scale_lt {format : FloatFormat} (fractional : 0 < format.fractionBits)
    (bits factor : Nat) (exponent : Int) :
    format.scale bits factor exponent < 2 * format.signWeight := by
  obtain ⟨datum, scaled, _⟩ := format.exists_scale_eq_encode bits factor exponent
  rw [scaled]
  exact encode_lt fractional datum

theorem datum_scale_eq_nan_iff {format : FloatFormat} (fractional : 0 < format.fractionBits)
    {bits factor : Nat} {exponent : Int} :
    format.datum (format.scale bits factor exponent) = .nan ↔ format.datum bits = .nan := by
  obtain ⟨datum, scaled, nan⟩ := format.exists_scale_eq_encode bits factor exponent
  rw [scaled, datum_encode_eq_nan_iff fractional, nan]

/-- Two patterns of one format are equal to themselves exactly where they denote a number. -/
theorem equal_self_iff {format : FloatFormat} {bits : Nat} :
    format.equal bits bits = true ↔ format.datum bits ≠ .nan := by
  unfold equal
  cases format.datum bits <;> simp

end BinaryRecord.FloatFormat
