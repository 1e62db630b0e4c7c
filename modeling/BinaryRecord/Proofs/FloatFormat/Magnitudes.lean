import BinaryRecord.Proofs.FloatFormat.Fields
import Mathlib.Order.Monotone.Basic

/-!
# Magnitudes

The numbers of a format are multiples of its least positive number. The magnitude of a pattern,
which is the pattern without its sign, says how many times: larger magnitudes are larger numbers.
Rounding is exact where the number is a multiple of the least one, has no more digits than the
format keeps and is not too large. Main statements: `FloatFormat.strictMono_units` and
`FloatFormat.units_roundMagnitude`.
-/

set_option autoImplicit false

attribute [local instance (high)] instPowNat

namespace BinaryRecord.FloatFormat

variable {format : FloatFormat}

/-- The pattern without its sign bit. -/
def magnitude (format : FloatFormat) (bits : Nat) : Nat :=
  bits % format.signWeight

/-- The whole digits of the number, with the leading one that only subnormal numbers lack. -/
def significand (format : FloatFormat) (magnitude : Nat) : Nat :=
  magnitude % 2 ^ format.fractionBits +
    if magnitude / 2 ^ format.fractionBits = 0 then 0 else 2 ^ format.fractionBits

/-- By how much the exponent of the last digit exceeds the least one. -/
def elevation (format : FloatFormat) (magnitude : Nat) : Nat :=
  magnitude / 2 ^ format.fractionBits - 1

/-- How many times the least positive number of the format makes the number. -/
def units (format : FloatFormat) (magnitude : Nat) : Nat :=
  format.significand magnitude * 2 ^ format.elevation magnitude

theorem significand_lt (format : FloatFormat) (magnitude : Nat) :
    format.significand magnitude < 2 ^ (format.fractionBits + 1) := by
  have fraction := Nat.mod_lt magnitude (Nat.two_pow_pos format.fractionBits)
  rw [significand, Nat.pow_succ]
  split <;> omega

/-- A magnitude is put together of the elevation and the digits, a leading one adding one to the
exponent. -/
theorem units_mul_add {elevation digits : Nat} (bounded : digits < 2 ^ (format.fractionBits + 1))
    (normal : elevation = 0 ∨ 2 ^ format.fractionBits ≤ digits) :
    format.units (elevation * 2 ^ format.fractionBits + digits) = digits * 2 ^ elevation := by
  have positive : 0 < 2 ^ format.fractionBits := Nat.two_pow_pos format.fractionBits
  rw [Nat.pow_succ] at bounded
  by_cases leading : 2 ^ format.fractionBits ≤ digits
  · obtain ⟨fraction, rfl⟩ := Nat.exists_eq_add_of_le leading
    have fractionBound : fraction < 2 ^ format.fractionBits := by omega
    have parts : elevation * 2 ^ format.fractionBits + (2 ^ format.fractionBits + fraction) =
        2 ^ format.fractionBits * (elevation + 1) + fraction := by
      rw [Nat.mul_succ, Nat.mul_comm elevation, Nat.add_assoc]
    rw [parts, units, significand, FloatFormat.elevation, Nat.mul_add_div positive,
      Nat.mul_add_mod, Nat.div_eq_of_lt fractionBound, Nat.mod_eq_of_lt fractionBound,
      if_neg (by omega), Nat.add_zero, Nat.add_sub_cancel, Nat.add_comm fraction]
  · obtain rfl : elevation = 0 := normal.resolve_right leading
    have small : digits < 2 ^ format.fractionBits := Nat.lt_of_not_le leading
    rw [Nat.zero_mul, Nat.zero_add, units, significand, FloatFormat.elevation,
      Nat.div_eq_of_lt small, Nat.mod_eq_of_lt small, if_pos rfl, Nat.add_zero, Nat.zero_sub]

theorem elevation_mul_add_significand (format : FloatFormat) (magnitude : Nat) :
    format.elevation magnitude * 2 ^ format.fractionBits + format.significand magnitude =
      magnitude := by
  have parts := Nat.div_add_mod' magnitude (2 ^ format.fractionBits)
  unfold elevation significand
  cases exponent : magnitude / 2 ^ format.fractionBits with
  | zero =>
      rw [exponent] at parts
      rwa [if_pos rfl]
  | succ elevation =>
      rw [exponent, Nat.succ_mul] at parts
      rw [if_neg (Nat.succ_ne_zero elevation), Nat.add_sub_cancel]
      omega

/-- A number has a leading one unless its last digit has the least exponent. -/
theorem elevation_eq_zero_or_le (format : FloatFormat) (magnitude : Nat) :
    format.elevation magnitude = 0 ∨ 2 ^ format.fractionBits ≤ format.significand magnitude := by
  unfold elevation significand
  by_cases subnormal : magnitude / 2 ^ format.fractionBits = 0
  · exact .inl (by rw [subnormal])
  · rw [if_neg subnormal]
    exact .inr (Nat.le_add_left _ _)

/-- The next magnitude is one unit in the last place more, also where a carry adds to the
exponent. -/
theorem units_succ (format : FloatFormat) (magnitude : Nat) :
    format.units (magnitude + 1) =
      (format.significand magnitude + 1) * 2 ^ format.elevation magnitude := by
  have parts := format.elevation_mul_add_significand magnitude
  have bounded := format.significand_lt magnitude
  have normal := format.elevation_eq_zero_or_le magnitude
  generalize format.elevation magnitude = elevation at parts normal ⊢
  generalize format.significand magnitude = significand at parts bounded normal ⊢
  obtain rfl := parts
  by_cases carry : significand + 1 = 2 ^ (format.fractionBits + 1)
  · have next : elevation * 2 ^ format.fractionBits + significand + 1 =
        (elevation + 1) * 2 ^ format.fractionBits + 2 ^ format.fractionBits := by
      rw [Nat.add_assoc, carry, Nat.pow_succ, Nat.succ_mul]
      omega
    have leading : 2 ^ format.fractionBits < 2 ^ (format.fractionBits + 1) :=
      Nat.pow_lt_pow_succ (by decide)
    rw [next, units_mul_add leading (.inr (Nat.le_refl _)), carry, ← Nat.pow_add, ← Nat.pow_add]
    congr 1
    omega
  · rw [Nat.add_assoc, units_mul_add (by omega) (normal.imp_right Nat.le_succ_of_le)]

theorem strictMono_units (format : FloatFormat) : StrictMono format.units := by
  refine strictMono_nat_of_lt_succ fun magnitude => ?_
  rw [units_succ, units]
  exact Nat.mul_lt_mul_of_pos_right (Nat.lt_succ_self _) (Nat.two_pow_pos _)

/-- Where no digit is lost, rounding moves the significand up to the leading place, or as far as the
least exponent allows. -/
theorem roundMagnitude_eq {significand shift elevation : Nat} (nonzero : significand ≠ 0)
    (short : significand.log2 ≤ format.fractionBits)
    (raised : shift + significand.log2 - format.fractionBits = elevation) :
    format.roundMagnitude significand (format.leastExponent + shift) =
      min (elevation * 2 ^ format.fractionBits + significand * 2 ^ (shift - elevation))
        format.infinityBits := by
  have last : max (format.leastExponent + shift + (significand.log2 + 1 : Nat) -
        (format.fractionBits + 1)) format.leastExponent = format.leastExponent + elevation := by
    omega
  have inside : format.leastExponent + elevation ≤ format.leastExponent + shift := by omega
  have below : (format.leastExponent + elevation - format.leastExponent).toNat = elevation := by
    omega
  have above : (format.leastExponent + shift - (format.leastExponent + elevation)).toNat =
      shift - elevation := by
    omega
  simp only [roundMagnitude, last, if_pos inside, below, above, if_neg nonzero]

/-- Digits moved up take as many more places. -/
theorem mul_two_pow_lt {digits places width : Nat} (short : digits.log2 + places < width) :
    digits * 2 ^ places < 2 ^ width := by
  calc
    digits * 2 ^ places
    _ < 2 ^ (digits.log2 + 1) * 2 ^ places :=
        Nat.mul_lt_mul_of_pos_right Nat.lt_log2_self (Nat.two_pow_pos _)
    _ ≤ 2 ^ width := by
        rw [← Nat.pow_add]
        exact Nat.pow_le_pow_right (by decide) (by omega)

theorem two_pow_le_mul_two_pow {digits places width : Nat} (nonzero : digits ≠ 0)
    (long : width ≤ digits.log2 + places) : 2 ^ width ≤ digits * 2 ^ places := by
  calc
    2 ^ width
    _ ≤ 2 ^ digits.log2 * 2 ^ places := by
        rw [← Nat.pow_add]
        exact Nat.pow_le_pow_right (by decide) long
    _ ≤ digits * 2 ^ places := Nat.mul_le_mul_right _ (Nat.log2_self_le nonzero)

theorem units_zero (format : FloatFormat) : format.units 0 = 0 := by
  simp [units, significand]

theorem roundMagnitude_zero (format : FloatFormat) (exponent : Int) :
    format.roundMagnitude 0 exponent = 0 := by
  simp [roundMagnitude]

/-- A number that is not too large and has no more digits than the format keeps is rounded to
itself. -/
theorem units_roundMagnitude {significand shift : Nat} (top : 2 ≤ format.topExponent)
    (digits : significand < 2 ^ (format.fractionBits + 1))
    (room : shift + significand.log2 + 2 ≤ format.fractionBits + format.topExponent) :
    format.roundMagnitude significand (format.leastExponent + shift) < format.infinityBits ∧
      format.units (format.roundMagnitude significand (format.leastExponent + shift)) =
        significand * 2 ^ shift := by
  by_cases zero : significand = 0
  · subst zero
    rw [roundMagnitude_zero, units_zero, Nat.zero_mul]
    exact ⟨Nat.mul_pos (by omega) (Nat.two_pow_pos format.fractionBits), rfl⟩
  · have short : significand.log2 ≤ format.fractionBits :=
      Nat.le_of_lt_succ ((Nat.log2_lt zero).mpr digits)
    obtain ⟨elevation, raised⟩ : ∃ elevation,
        shift + significand.log2 - format.fractionBits = elevation := ⟨_, rfl⟩
    have moved : elevation ≤ shift := by omega
    have bounded : significand * 2 ^ (shift - elevation) < 2 ^ (format.fractionBits + 1) :=
      mul_two_pow_lt (by omega)
    have normal : elevation = 0 ∨
        2 ^ format.fractionBits ≤ significand * 2 ^ (shift - elevation) := by
      by_cases least : elevation = 0
      · exact .inl least
      · exact .inr (two_pow_le_mul_two_pow zero (by omega))
    have finite : elevation * 2 ^ format.fractionBits + significand * 2 ^ (shift - elevation) <
        format.infinityBits := by
      have exponents : (elevation + 2) * 2 ^ format.fractionBits ≤ format.infinityBits :=
        Nat.mul_le_mul_right _ (by omega)
      rw [Nat.pow_succ] at bounded
      rw [Nat.add_mul] at exponents
      omega
    rw [roundMagnitude_eq zero short raised, Nat.min_eq_left (Nat.le_of_lt finite)]
    refine ⟨finite, ?_⟩
    rw [units_mul_add bounded normal, Nat.mul_assoc, ← Nat.pow_add, Nat.sub_add_cancel moved]

end BinaryRecord.FloatFormat
