import BinaryRecord.Proofs.Bytes.Positional
import BinaryRecord.Proofs.Field.RoundTrip

/-!
# Integer fields

What the bytes of an integer field mean: their positional number, and in a signed field that number
in two's complement. Every integer in the range of a field is the meaning of exactly one value of
its kind, and is written as the bytes of its residue. Main statement:
`Field.decode_positional`.
-/

set_option autoImplicit false

attribute [local instance (high)] instPowNat

namespace BinaryRecord

namespace Field

/-- Whether the field holds an integer. A character is one. -/
def isInteger : Field → Bool
  | .char | .signedChar | .unsignedChar | .short | .unsignedShort | .int | .unsignedInt | .long
  | .unsignedLong | .longLong | .unsignedLongLong => true
  | .bool | .half | .float | .double | .bytes => false

def isSigned : Field → Bool
  | .signedChar | .short | .int | .long | .longLong => true
  | _ => false

/-- How many numbers the bytes of the field write. -/
def modulus (field : Field) : Nat :=
  256 ^ field.width

/-- The integer that a positional number means. A signed field has the numbers of the upper half for
the negative integers. -/
def integerOf (field : Field) (code : Nat) : Int :=
  if field.isSigned ∧ field.modulus / 2 ≤ code then (code : Int) - field.modulus else code

/-- The bound of the integers that the field holds. -/
def bound (field : Field) : Nat :=
  if field.isSigned then field.modulus / 2 else field.modulus

/-- Whether an integer is one of those that the field holds. -/
def InRange (field : Field) (number : Int) : Prop :=
  (if field.isSigned then -(field.bound : Int) else 0) ≤ number ∧ number < field.bound

instance (field : Field) (number : Int) : Decidable (field.InRange number) :=
  inferInstanceAs (Decidable (_ ∧ _))

variable {field : Field} {order : ByteOrder} {value : Value} {number : Int} {code : Nat}

theorem modulus_even (field : Field) : 2 * (field.modulus / 2) = field.modulus := by
  cases field <;> rfl

theorem positional_write (order : ByteOrder) (bounded : code < field.modulus) :
    order.positional field.width (order.write field.width code) = code := by
  have length := order.length_write field.width code
  rw [← order.read_take (Nat.le_of_eq length.symm), List.take_of_length_le (Nat.le_of_eq length),
    order.read_write]
  exact Nat.mod_eq_of_lt bounded

theorem integerOf_of_unsigned (unsigned : field.isSigned = false) (code : Nat) :
    field.integerOf code = code := by
  simp [integerOf, unsigned]

theorem integerOf_of_signed (signed : field.isSigned = true) (bounded : code < field.modulus) :
    field.integerOf code = (code : Int).bmod field.modulus := by
  have even := field.modulus_even
  have small : (code : Int) % field.modulus = code := Int.emod_eq_of_lt (by omega) (by omega)
  rw [integerOf, signed, Int.bmod_def, small]
  by_cases upper : field.modulus / 2 ≤ code
  · rw [if_pos ⟨rfl, upper⟩, if_neg (by omega)]
  · rw [if_neg (fun negative => upper negative.2), if_pos (by omega)]

/-- The value of a number holds the integer that the number means. -/
theorem integer?_valueOf (integral : field.isInteger = true) (bounded : code < field.modulus) :
    (field.valueOf code).integer? = some (field.integerOf code) := by
  have signed (isSigned : field.isSigned = true) := integerOf_of_signed isSigned bounded
  have unsigned (notSigned : field.isSigned = false) := integerOf_of_unsigned notSigned code
  cases field with
  | signedChar => exact congrArg some (Int8.toInt_ofNat'.trans (signed rfl).symm)
  | short => exact congrArg some (Int16.toInt_ofNat'.trans (signed rfl).symm)
  | int | long => exact congrArg some (Int32.toInt_ofNat'.trans (signed rfl).symm)
  | longLong => exact congrArg some (Int64.toInt_ofNat'.trans (signed rfl).symm)
  | char | unsignedChar =>
      rw [unsigned rfl]
      exact congrArg (some ∘ Int.ofNat) (UInt8.toNat_ofNat_of_lt bounded)
  | unsignedShort =>
      rw [unsigned rfl]
      exact congrArg (some ∘ Int.ofNat) (UInt16.toNat_ofNat_of_lt bounded)
  | unsignedInt | unsignedLong =>
      rw [unsigned rfl]
      exact congrArg (some ∘ Int.ofNat) (UInt32.toNat_ofNat_of_lt bounded)
  | unsignedLongLong =>
      rw [unsigned rfl]
      exact congrArg (some ∘ Int.ofNat) (UInt64.toNat_ofNat_of_lt bounded)
  | bool | half | float | double | bytes => cases integral

theorem emod_integerOf (bounded : code < field.modulus) :
    field.integerOf code % field.modulus = code := by
  unfold integerOf
  split
  · rw [Int.sub_emod_right]
    exact Int.emod_eq_of_lt (by omega) (by omega)
  · exact Int.emod_eq_of_lt (by omega) (by omega)

/-- Every integer in the range is what its residue means. -/
theorem integerOf_toNat_emod (inRange : field.InRange number) :
    field.integerOf (number % field.modulus).toNat = number := by
  have even := field.modulus_even
  obtain ⟨least, below⟩ := inRange
  cases signed : field.isSigned with
  | false =>
      rw [signed] at least
      rw [bound, signed] at below
      have residue : number % field.modulus = number := Int.emod_eq_of_lt least below
      rw [residue, integerOf_of_unsigned signed]
      exact Int.toNat_of_nonneg least
  | true =>
      rw [signed] at least
      rw [bound, signed] at below least
      simp only [if_true] at least below
      by_cases negative : number < 0
      · -- The residue of a negative integer lies in the upper half.
        have residue : number % field.modulus = number + field.modulus := by
          rw [← Int.add_emod_right]
          exact Int.emod_eq_of_lt (by omega) (by omega)
        rw [residue, integerOf, if_pos ⟨signed, by omega⟩]
        omega
      · have residue : number % field.modulus = number :=
          Int.emod_eq_of_lt (by omega) (by omega)
        rw [residue, integerOf, if_neg fun upper => by have := upper.2; omega]
        omega

theorem modulus_pos (field : Field) : 0 < field.modulus :=
  Nat.pow_pos (by decide)

theorem emod_modulus_nonneg (field : Field) (number : Int) : 0 ≤ number % field.modulus :=
  Int.emod_nonneg number (Int.natCast_ne_zero.mpr field.modulus_pos.ne')

theorem toNat_emod_lt (field : Field) (number : Int) :
    (number % field.modulus).toNat < field.modulus := by
  have below := Int.emod_lt_of_pos number (Int.natCast_pos.mpr field.modulus_pos)
  have above := field.emod_modulus_nonneg number
  omega

theorem scalar_of_isInteger (integral : field.isInteger = true) : field ≠ .bytes := by
  rintro rfl
  cases integral

/-- A value of the field's kind holds what its number means. -/
theorem integer?_eq (integral : field.isInteger = true) (kinds : value.kind = field.kind) :
    value.integer? = some (field.integerOf value.code) := by
  have scalar := scalar_of_isInteger integral
  rw [← integer?_valueOf integral (Value.code_lt scalar kinds), valueOf_code scalar kinds]

/-- No other value of the field's kind holds the integer. -/
theorem eq_valueOf_of_integer? (integral : field.isInteger = true)
    (kinds : value.kind = field.kind) (held : value.integer? = some number) :
    value = field.valueOf (number % field.modulus).toNat := by
  have scalar := scalar_of_isInteger integral
  have residue := emod_integerOf (Value.code_lt scalar kinds)
  obtain rfl : number = field.integerOf value.code :=
    Option.some.inj (held.symm.trans (integer?_eq integral kinds))
  rw [residue, Int.toNat_natCast, valueOf_code scalar kinds]

/-- The value of a number is written as the number's digits. -/
theorem append_valueOf (integral : field.isInteger = true) (bounded : code < field.modulus)
    (out : Bytes) :
    field.append order (field.valueOf code) out =
      .ok () (out ++ order.write field.width code) := by
  have scalar := scalar_of_isInteger integral
  have notBool : field ≠ .bool := by
    rintro rfl
    cases integral
  have written := code_valueOf scalar bounded
  rw [if_neg notBool] at written
  refine append_of_ok ?_ out
  rw [encode_of_kind scalar (field.kind_valueOf code), written]

theorem inRange_integerOf (bounded : code < field.modulus) :
    field.InRange (field.integerOf code) := by
  have even := field.modulus_even
  unfold InRange bound
  cases signed : field.isSigned with
  | false =>
      rw [integerOf_of_unsigned signed]
      exact ⟨Int.natCast_nonneg code, Int.ofNat_lt.mpr bounded⟩
  | true =>
      simp only [if_true, integerOf, signed, true_and]
      by_cases upper : field.modulus / 2 ≤ code
      · rw [if_pos upper]
        omega
      · rw [if_neg upper]
        omega

/-- Only an unsigned field of eight bytes holds integers that are too large for a signed word. -/
theorem eq_unsignedLongLong_of_inRange (integral : field.isInteger = true)
    (inRange : field.InRange number) (large : 2 ^ (63 : Nat) - 1 < number) :
    field = .unsignedLongLong := by
  have small : field.isInteger = true → field ≠ .unsignedLongLong →
      field.bound ≤ 2 ^ (63 : Nat) := by
    cases field <;> decide
  by_contra other
  have below := inRange.2
  have bounded := small integral other
  omega

end Field

/-- A value holds no signed word of 64 bits exactly if its integer exceeds them all. -/
theorem Value.int64?_eq_none_iff {value : Value} {number : Int}
    (held : value.integer? = some number) :
    value.int64? = none ↔ 2 ^ (63 : Nat) - 1 < number := by
  unfold int64?
  rw [held]
  by_cases fits : number < 2 ^ (63 : Nat)
  · simp only [if_pos fits, reduceCtorEq, false_iff]
    omega
  · simp only [if_neg fits, true_iff]
    omega

namespace Field

variable {field : Field}

/-- The bytes of an integer field mean their positional number, and in a signed field this number in
two's complement. The signed word of 64 bits is that integer, and is missing only for the largest
numbers of one field. Conversely an integer in the range of the field is held by exactly one value
of its kind, whose bytes have the integer's residue for their positional number. -/
theorem decode_positional (integral : field.isInteger = true) (order : ByteOrder) :
    (∀ bytes : Bytes, field.width ≤ bytes.length →
      ∃ value number, field.decode order bytes = .ok value ∧ value.integer? = some number ∧
        number = field.integerOf (order.positional field.width bytes) ∧
        (∀ word, value.int64? = some word → word.toInt = number) ∧
        (value.int64? = none ↔ 2 ^ (63 : Nat) - 1 < number) ∧
        (2 ^ (63 : Nat) - 1 < number → field = .unsignedLongLong)) ∧
    ∀ number : Int, field.InRange number →
      ∃ value, value.kind = field.kind ∧ value.integer? = some number ∧
        (∀ other : Value, other.kind = field.kind → other.integer? = some number →
          other = value) ∧
        ∃ bytes : Bytes, bytes.length = field.width ∧
          (∀ out, field.append order value out = .ok () (out ++ bytes)) ∧
          (order.positional field.width bytes : Int) = number % (256 ^ field.width : Nat) := by
  constructor
  · intro bytes enough
    have bounded := order.positional_lt enough
    have held := integer?_valueOf integral bounded
    refine ⟨_, _, ?_, held, rfl, ?_, Value.int64?_eq_none_iff held,
      eq_unsignedLongLong_of_inRange integral (inRange_integerOf bounded)⟩
    · rw [decode_of_le enough, ByteOrder.read_take order enough]
    · intro word known
      have same := Value.int64?_eq_some_iff.mp known
      rw [held] at same
      exact (Option.some.inj same).symm
  · intro number inRange
    have bounded := field.toNat_emod_lt number
    have held := integer?_valueOf integral bounded
    rw [integerOf_toNat_emod inRange] at held
    refine ⟨_, field.kind_valueOf _, held, fun _ => eq_valueOf_of_integer? integral, _,
      order.length_write field.width _, append_valueOf integral bounded, ?_⟩
    rw [positional_write order bounded]
    exact Int.toNat_of_nonneg (field.emod_modulus_nonneg number)

/-- The least integer of eight bytes, one that is too large for a signed word, and minus two. -/
theorem decode_positional_specimen :
    Field.longLong.isInteger = true ∧ Field.unsignedLongLong.isInteger = true ∧
      Field.short.isInteger = true ∧
      (∃ value, Field.longLong.decode .big [128, 0, 0, 0, 0, 0, 0, 0] = .ok value ∧
        value.integer? = some (-9223372036854775808) ∧ value.int64? ≠ none) ∧
      (∃ value, Field.unsignedLongLong.decode .little [0, 0, 0, 0, 0, 0, 0, 128, 7] = .ok value ∧
        value.integer? = some 9223372036854775808 ∧ value.int64? = none) ∧
      ∃ value, value.integer? = some (-2) ∧
        Field.short.append .big value [7] = .ok () [7, 255, 254] := by
  have long : Field.longLong.isInteger = true := rfl
  have unsignedLong : Field.unsignedLongLong.isInteger = true := rfl
  have short : Field.short.isInteger = true := rfl
  refine ⟨long, unsignedLong, short, ?_, ?_, ?_⟩
  · obtain ⟨value, number, decoded, held, same, _, missing, _⟩ :=
      (decode_positional long .big).1 [128, 0, 0, 0, 0, 0, 0, 0] (by decide)
    have least : number = -9223372036854775808 := same.trans (by decide)
    subst least
    exact ⟨value, decoded, held, fun none => absurd (missing.mp none) (by decide)⟩
  · obtain ⟨value, number, decoded, held, same, _, missing, _⟩ :=
      (decode_positional unsignedLong .little).1 [0, 0, 0, 0, 0, 0, 0, 128, 7] (by decide)
    have large : number = 9223372036854775808 := same.trans (by decide)
    subst large
    exact ⟨value, decoded, held, missing.mpr (by decide)⟩
  · obtain ⟨value, kinds, held, unique, _⟩ := (decode_positional short .big).2 (-2) (by decide)
    have same : .int16 (-2) = value := unique _ rfl rfl
    subst same
    exact ⟨_, held, rfl⟩

end Field

end BinaryRecord
