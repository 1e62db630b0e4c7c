import BinaryRecord.Proofs.Bytes.Positional
import BinaryRecord.Proofs.Field.Scalar
import BinaryRecord.Proofs.FloatFormat.Widening
import BinaryRecord.Value.Numeric

/-!
# Floating-point fields

The 64-bit value of a floating-point field stands for the very number that the bytes of the field
stand for, with the same sign, and for no number exactly where they do. Main statement:
`Field.decode_widens`.
-/

set_option autoImplicit false

attribute [local instance (high)] instPowNat

namespace BinaryRecord

/-- A 64-bit pattern that stands for the number of a pattern of the format, with its sign. -/
structure FloatFormat.Widens (format : FloatFormat) (pattern : Nat) (wide : UInt64) : Prop where
  number : double.number? wide.toNat = format.number? pattern
  sign : format.number? pattern ≠ none →
    double.isNegative wide.toNat = format.isNegative pattern

namespace FloatFormat.Widens

variable {format : FloatFormat} {pattern other : Nat} {wide : UInt64}

theorem of_embeds (embeds : Embeds format double) (pattern : Nat) :
    format.Widens pattern (UInt64.ofNat (double.ofFormat format pattern)) := by
  have bounded : double.ofFormat format pattern < 2 ^ (64 : Nat) :=
    encode_lt embeds.fractionBits_pos (format.datum pattern)
  have word : (UInt64.ofNat (double.ofFormat format pattern)).toNat =
      double.ofFormat format pattern := UInt64.toNat_ofNat_of_lt bounded
  obtain ⟨number, sign⟩ := embeds.number?_ofFormat pattern
  exact ⟨by rw [word, number], fun known => by rw [word, sign known]⟩

theorem of_double {pattern : Nat} (bounded : pattern < 2 ^ (64 : Nat)) :
    double.Widens pattern (UInt64.ofNat pattern) := by
  have word : (UInt64.ofNat pattern).toNat = pattern := UInt64.toNat_ofNat_of_lt bounded
  exact ⟨by rw [word], fun _ => by rw [word]⟩

/-- No other pattern of 64 bits stands for the same number with the same sign. -/
theorem unique (widens : format.Widens pattern wide) (number : format.number? pattern ≠ none)
    {rival : UInt64} (same : double.number? rival.toNat = format.number? pattern)
    (sign : double.isNegative rival.toNat = format.isNegative pattern) : rival = wide := by
  have bounded (word : UInt64) : word.toNat < 2 * double.signWeight := word.toNat_lt
  apply UInt64.toNat_inj.mp
  refine eq_of_number? (bounded rival) (bounded wide) (same ▸ number) ?_ ?_
  · rw [same, widens.number]
  · rw [sign, widens.sign number]

/-- Patterns of different numbers, or of the two zeros, are widened to different patterns. -/
theorem injective (widens : format.Widens pattern wide) (otherWidens : format.Widens other wide)
    (number : format.number? pattern ≠ none) (bounded : pattern < 2 * format.signWeight)
    (otherBounded : other < 2 * format.signWeight) : pattern = other := by
  have same : format.number? pattern = format.number? other :=
    widens.number.symm.trans otherWidens.number
  refine eq_of_number? bounded otherBounded number same ?_
  rw [← widens.sign number, ← otherWidens.sign (same ▸ number)]

end FloatFormat.Widens

namespace Field

variable {field : Field} {format : FloatFormat} {order : ByteOrder} {bytes : Bytes} {value : Value}
  {wide : UInt64} {pattern : Nat}

/-- The format of the numbers that a floating-point field holds. -/
def floatFormat? : Field → Option FloatFormat
  | .half => some .half
  | .float => some .single
  | .double => some .double
  | _ => none

theorem two_mul_signWeight (floating : field.floatFormat? = some format) :
    256 ^ field.width = 2 * format.signWeight := by
  cases field <;> cases floating <;> rfl

theorem float64?_valueOf (floating : field.floatFormat? = some format)
    (bounded : pattern < 256 ^ field.width) :
    ∃ wide, (field.valueOf pattern).float64? = some wide ∧ format.Widens pattern wide := by
  cases field with
  | half =>
      cases floating
      have word : (UInt16.ofNat pattern).toNat = pattern := UInt16.toNat_ofNat_of_lt bounded
      refine ⟨_, rfl, ?_⟩
      rw [word]
      exact .of_embeds FloatFormat.embeds_half pattern
  | float =>
      cases floating
      have word : (UInt32.ofNat pattern).toNat = pattern := UInt32.toNat_ofNat_of_lt bounded
      refine ⟨_, rfl, ?_⟩
      rw [word]
      exact .of_embeds FloatFormat.embeds_single pattern
  | double =>
      cases floating
      exact ⟨_, rfl, .of_double bounded⟩
  | _ => cases floating

theorem exists_float64 (floating : field.floatFormat? = some format) (order : ByteOrder)
    (enough : field.width ≤ bytes.length) :
    ∃ value wide, field.decode order bytes = .ok value ∧ value.float64? = some wide ∧
      format.Widens (order.positional field.width bytes) wide := by
  obtain ⟨wide, widened, widens⟩ := float64?_valueOf floating (order.positional_lt enough)
  rw [← order.read_take enough] at widened
  exact ⟨_, wide, decode_of_le enough, widened, widens⟩

theorem widens_of_decode (floating : field.floatFormat? = some format)
    (decoded : field.decode order bytes = .ok value) (widened : value.float64? = some wide) :
    order.positional field.width bytes < 2 * format.signWeight ∧
      format.Widens (order.positional field.width bytes) wide := by
  by_cases short : bytes.length < field.width
  · cases (decode_of_lt short).symm.trans decoded
  · have enough := Nat.le_of_not_lt short
    obtain ⟨found, other, foundDecoded, otherWidened, widens⟩ :=
      exists_float64 floating order enough
    cases foundDecoded.symm.trans decoded
    cases otherWidened.symm.trans widened
    rw [← two_mul_signWeight floating]
    exact ⟨order.positional_lt enough, widens⟩

/-- A floating-point field is widened exactly. Its 64-bit value is the only one that stands for the
number of the field's bytes and has their sign, be the number subnormal, zero or infinite, and it
stands for no number exactly if the bytes do. So patterns of numbers stay apart, and the order of
their numbers is kept. -/
theorem decode_widens (floating : field.floatFormat? = some format) (order : ByteOrder) :
    (∀ bytes : Bytes, field.width ≤ bytes.length →
      ∃ value wide, field.decode order bytes = .ok value ∧ value.float64? = some wide ∧
        FloatFormat.double.number? wide.toNat =
          format.number? (order.positional field.width bytes) ∧
        (format.number? (order.positional field.width bytes) ≠ none →
          FloatFormat.double.isNegative wide.toNat =
            format.isNegative (order.positional field.width bytes) ∧
          ∀ other : UInt64,
            FloatFormat.double.number? other.toNat =
              format.number? (order.positional field.width bytes) →
            FloatFormat.double.isNegative other.toNat =
              format.isNegative (order.positional field.width bytes) → other = wide)) ∧
    ∀ (left right : Bytes) (leftValue rightValue : Value) (leftWide rightWide : UInt64),
      field.decode order left = .ok leftValue → leftValue.float64? = some leftWide →
      field.decode order right = .ok rightValue → rightValue.float64? = some rightWide →
      (format.number? (order.positional field.width left) ≠ none →
        order.positional field.width left ≠ order.positional field.width right →
          leftWide ≠ rightWide) ∧
      ∀ x y : EReal,
        format.number? (order.positional field.width left) = some x →
        format.number? (order.positional field.width right) = some y →
          ∃ wideX wideY, FloatFormat.double.number? leftWide.toNat = some wideX ∧
            FloatFormat.double.number? rightWide.toNat = some wideY ∧ (x < y ↔ wideX < wideY) := by
  constructor
  · intro bytes enough
    obtain ⟨value, wide, decoded, widened, widens⟩ := exists_float64 floating order enough
    refine ⟨value, wide, decoded, widened, widens.number, fun number => ?_⟩
    exact ⟨widens.sign number, fun other => widens.unique number⟩
  · intro left right leftValue rightValue leftWide rightWide leftDecoded leftWidened rightDecoded
      rightWidened
    obtain ⟨leftBound, leftWidens⟩ := widens_of_decode floating leftDecoded leftWidened
    obtain ⟨rightBound, rightWidens⟩ := widens_of_decode floating rightDecoded rightWidened
    constructor
    · rintro number apart rfl
      exact apart (leftWidens.injective rightWidens number leftBound rightBound)
    · intro x y leftNumber rightNumber
      exact ⟨x, y, leftWidens.number.trans leftNumber, rightWidens.number.trans rightNumber, .rfl⟩

/-- The negative subnormal half of the least magnitude has a normal pattern of 64 bits, and the two
zeros keep apart. -/
theorem decode_widens_specimen :
    Field.half.floatFormat? = some .half ∧
      (∃ value, Field.half.decode .big [128, 1, 7] = .ok value ∧
        value.float64? = some 0xBE70000000000000 ∧
        FloatFormat.double.number? 0xBE70000000000000 =
          some ((-(2 ^ (24 : Nat))⁻¹ : ℝ) : EReal)) ∧
      ∃ zero negativeZero : UInt64, (Value.float16 0).float64? = some zero ∧
        (Value.float16 0x8000).float64? = some negativeZero ∧ zero ≠ negativeZero := by
  have half : Field.half.floatFormat? = some .half := rfl
  refine ⟨half, ?_, _, _, rfl, rfl, ?_⟩
  · obtain ⟨value, wide, decoded, widened, number, _⟩ :=
      (decode_widens half .big).1 [128, 1, 7] (by decide)
    have same : .float16 0x8001 = value := Except.ok.inj decoded
    subst same
    have bits : wide = 0xBE70000000000000 :=
      Option.some.inj (widened.symm.trans (by decide +kernel))
    subst bits
    have pattern : ByteOrder.big.positional Field.half.width [128, 1, 7] = 0x8001 := by decide
    refine ⟨_, decoded, widened, number.trans ?_⟩
    rw [pattern]
    norm_num [FloatFormat.number?, FloatFormat.half]
  · have zeros := (decode_widens half .little).2 [0, 0] [0, 128] (.float16 0) (.float16 0x8000) _ _
      rfl rfl rfl rfl
    exact zeros.1 (mt FloatFormat.number?_eq_none_iff.mp (by decide)) (by decide)

end Field

end BinaryRecord
