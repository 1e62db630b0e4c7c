import BinaryRecord.Field.Codec

/-!
# Scalar fields

The number that a scalar field stores determines its value, and the value its number. Booleans are
the exception: every number but zero is read as the one that is written as one.
-/

set_option autoImplicit false

attribute [local instance (high)] instPowNat

namespace BinaryRecord

theorem Value.code_lt {field : Field} {value : Value} (scalar : field ≠ .bytes)
    (kinds : value.kind = field.kind) : value.code < 256 ^ field.width := by
  cases field <;> cases value <;>
    simp_all only [Value.kind, Field.kind, reduceCtorEq, ne_eq, not_false_eq_true,
      not_true_eq_false, Field.width, Value.code]
  case bool.bool truth => exact Nat.lt_of_lt_of_le truth.toNat_lt (by decide)
  all_goals first
    | exact UInt8.toNat_lt _
    | exact UInt16.toNat_lt _
    | exact UInt32.toNat_lt _
    | exact UInt64.toNat_lt _

theorem Field.kind_valueOf (field : Field) (code : Nat) :
    (field.valueOf code).kind = field.kind := by
  cases field <;> rfl

private theorem int8_ofNat_toUInt8 (number : Int8) : Int8.ofNat number.toUInt8.toNat = number := by
  rw [← UInt8.toInt8_ofNat', UInt8.ofNat_toNat, Int8.toInt8_toUInt8]

private theorem int16_ofNat_toUInt16 (number : Int16) :
    Int16.ofNat number.toUInt16.toNat = number := by
  rw [← UInt16.toInt16_ofNat', UInt16.ofNat_toNat, Int16.toInt16_toUInt16]

private theorem int32_ofNat_toUInt32 (number : Int32) :
    Int32.ofNat number.toUInt32.toNat = number := by
  rw [← UInt32.toInt32_ofNat', UInt32.ofNat_toNat, Int32.toInt32_toUInt32]

private theorem int64_ofNat_toUInt64 (number : Int64) :
    Int64.ofNat number.toUInt64.toNat = number := by
  rw [← UInt64.toInt64_ofNat', UInt64.ofNat_toNat, Int64.toInt64_toUInt64]

theorem Field.valueOf_code {field : Field} {value : Value} (scalar : field ≠ .bytes)
    (kinds : value.kind = field.kind) : field.valueOf value.code = value := by
  cases field <;> cases value <;>
    simp_all [Value.kind, Field.kind, Field.valueOf, Value.code, int8_ofNat_toUInt8,
      int16_ofNat_toUInt16, int32_ofNat_toUInt32, int64_ofNat_toUInt64]

/-- No bit of a code is lost in its value, except in a boolean. -/
theorem Field.code_valueOf {field : Field} {code : Nat} (scalar : field ≠ .bytes)
    (bounded : code < 256 ^ field.width) :
    (field.valueOf code).code = if field = .bool then (decide (code ≠ 0)).toNat else code := by
  cases field <;> simp_all [Field.valueOf, Value.code, Field.width]

namespace Field

theorem encode_of_kind {field : Field} {order : ByteOrder} {value : Value}
    (scalar : field ≠ .bytes) (kinds : value.kind = field.kind) :
    field.encode order value = .ok (order.write field.width value.code) := by
  have notString : value.kind ≠ .bytes := by
    rw [kinds]
    exact fun string => scalar (kind_eq_bytes_iff.mp string)
  unfold encode
  rw [if_pos kinds]
  cases value with
  | bytes content => exact absurd rfl notString
  | _ => rfl

theorem encode_of_kind_ne {field : Field} {order : ByteOrder} {value : Value}
    (kinds : value.kind ≠ field.kind) :
    field.encode order value = .error (.typeMismatch field field.kind value.kind) := by
  unfold encode
  rw [if_neg kinds]

theorem decode_of_le {field : Field} {order : ByteOrder} {bytes : Bytes}
    (enough : field.width ≤ bytes.length) :
    field.decode order bytes = .ok (field.valueOf (order.read (bytes.take field.width))) := by
  unfold decode
  rw [if_neg (by omega)]

theorem decode_of_lt {field : Field} {order : ByteOrder} {bytes : Bytes}
    (short : bytes.length < field.width) :
    field.decode order bytes = .error (.truncated field.width bytes.length) := by
  unfold decode
  rw [if_pos short]

end Field

theorem ByteOrder.read_lt (order : ByteOrder) (bytes : Bytes) :
    order.read bytes < 256 ^ bytes.length := by
  have bounded := Bytes.toNat_lt (order.arrange bytes)
  rwa [length_arrange] at bounded

end BinaryRecord
