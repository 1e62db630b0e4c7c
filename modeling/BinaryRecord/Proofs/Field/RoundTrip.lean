import BinaryRecord.Proofs.Slot.Fit

/-!
# Single fields, written and read

A field by itself is a slot of the field's width. What is appended for a value is read as that value
again, whatever comes behind it, and what is read is written as the bytes that it was read from, a
boolean as zero or one. A value that a field does not hold leaves the output as it was. Main
statement: `Field.append_decode_inverse`.
-/

set_option autoImplicit false

namespace BinaryRecord

namespace Field

variable {field : Field} {order : ByteOrder} {value : Value} {bytes : Bytes}

/-- The slot that a single unit of the field takes. -/
def unit (field : Field) : Slot :=
  ⟨field, field.width⟩

theorem sound_unit (field : Field) : field.unit.Sound :=
  ⟨field.width_pos, fun _ => rfl⟩

theorem encode_eq_unit (field : Field) (order : ByteOrder) (value : Value) :
    field.encode order value = field.unit.encode order value := by
  by_cases string : field = .bytes
  · subst string
    cases value <;> rfl
  · simp [Slot.encode, unit, isBytes, string]

theorem decode_eq_unit (field : Field) (order : ByteOrder) (bytes : Bytes) :
    field.decode order bytes = field.unit.decode order bytes := by
  by_cases string : field = .bytes
  · subst string
    cases bytes with
    | nil => rfl
    | cons byte rest =>
        cases order <;> simp [decode, valueOf, Slot.decode, unit, isBytes, decodeBytes, width,
          ByteOrder.read, ByteOrder.arrange, Bytes.toNat]
  · simp [Slot.decode, unit, isBytes, string]

theorem append_of_ok (encoded : field.encode order value = .ok bytes) (out : Bytes) :
    field.append order value out = .ok () (out ++ bytes) := by
  rw [append, encoded]
  rfl

theorem append_of_error {error : FieldError} (refused : field.encode order value = .error error)
    (out : Bytes) : field.append order value out = .error error out := by
  rw [append, refused]
  rfl

theorem fits_unit_iff :
    field.unit.Fits value ↔
      value.kind = field.kind ∧ ∀ content, value = .bytes content → 1 ≤ content.length := by
  have width {content : Bytes} (held : value = .bytes content)
      (kinds : value.kind = field.kind) : field.width = 1 := by
    subst held
    rw [kind_eq_bytes_iff.mp kinds.symm, Field.width]
  constructor
  · intro fits
    refine ⟨fits.kind_eq, fun content held => ?_⟩
    rw [← width held fits.kind_eq]
    exact fits.fills content held
  · intro condition
    refine ⟨condition.1, fun content held => ?_⟩
    rw [unit, width held condition.1]
    exact condition.2 content held

/-- A field that refuses a value leaves the output as it was. -/
theorem append_of_refuses {cause : FieldError} (refuses : field.unit.Refuses value cause)
    (out : Bytes) : field.append order value out = .error cause out :=
  append_of_error ((encode_eq_unit ..).trans (Slot.encode_of_refuses order refuses)) out

/-- What is appended for a value is read as what its field holds of it. -/
theorem append_of_fits (order : ByteOrder) (fits : field.unit.Fits value) :
    ∃ bytes : Bytes, bytes.length = field.width ∧
      (∀ out, field.append order value out = .ok () (out ++ bytes)) ∧
      ∀ rest, field.decode order (bytes ++ rest) = .ok (field.unit.restore value) := by
  obtain ⟨bytes, encoded⟩ := (Slot.exists_encode_iff_fits order).mpr fits
  have length := Slot.length_of_encode field.sound_unit encoded
  refine ⟨bytes, length, append_of_ok ((encode_eq_unit ..).trans encoded), fun rest => ?_⟩
  have enough : field.unit.width ≤ (bytes ++ rest).length := by
    rw [List.length_append, length]
    exact Nat.le_add_right _ _
  rw [decode_eq_unit, Slot.decode_of_le order field.sound_unit enough, Slot.read_append length,
    Slot.read_encode field.sound_unit encoded]

/-- What is read is written as the bytes that it was read from. -/
theorem append_of_decode (decoded : field.decode order bytes = .ok value) :
    value.kind = field.kind ∧
      ∀ out, field.append order value out =
        .ok () (out ++ field.unit.canonical (bytes.take field.width)) := by
  rw [decode_eq_unit] at decoded
  have enough := Slot.width_le_of_decode field.sound_unit decoded
  rw [Slot.decode_of_le order field.sound_unit enough] at decoded
  obtain rfl := Except.ok.inj decoded
  have full : (bytes.take field.width).length = field.unit.width := by
    rw [List.length_take]
    exact Nat.min_eq_left enough
  have front : field.unit.read order bytes = field.unit.read order (bytes.take field.width) := by
    calc
      field.unit.read order bytes
      _ = field.unit.read order (bytes.take field.width ++ bytes.drop field.width) := by
          rw [List.take_append_drop]
      _ = field.unit.read order (bytes.take field.width) := Slot.read_append full
  have encoded := Slot.encode_read order field.sound_unit full
  rw [front]
  exact ⟨((Slot.exists_encode_iff_fits order).mp ⟨_, encoded⟩).kind_eq,
    append_of_ok ((encode_eq_unit ..).trans encoded)⟩

theorem exists_append_iff_fits (out : Bytes) :
    (∃ after, field.append order value out = .ok () after) ↔ field.unit.Fits value := by
  constructor
  · intro appended
    obtain ⟨after, accepted⟩ := appended
    apply Classical.byContradiction
    intro misfit
    obtain ⟨cause, refuses⟩ := Slot.exists_refuses_iff.mpr misfit
    cases (append_of_refuses refuses out).symm.trans accepted
  · intro fits
    obtain ⟨bytes, _, appended, _⟩ := append_of_fits order fits
    exact ⟨_, appended out⟩

theorem refuses_of_append {error : FieldError} {out after : Bytes}
    (refused : field.append order value out = .error error after) :
    after = out ∧ field.unit.Refuses value error := by
  have misfit : ¬ field.unit.Fits value := by
    intro fits
    obtain ⟨bytes, _, appended, _⟩ := append_of_fits order fits
    cases (appended out).symm.trans refused
  obtain ⟨cause, refuses⟩ := Slot.exists_refuses_iff.mpr misfit
  cases (append_of_refuses refuses out).symm.trans refused
  exact ⟨rfl, refuses⟩

theorem exists_decode_iff (order : ByteOrder) :
    (∃ value, field.decode order bytes = .ok value) ↔ field.width ≤ bytes.length := by
  constructor
  · intro decoded
    obtain ⟨value, read⟩ := decoded
    rw [decode_eq_unit] at read
    exact Slot.width_le_of_decode field.sound_unit read
  · intro enough
    exact ⟨_, decode_of_le enough⟩

/-- Bytes behind the field are not looked at. -/
theorem decode_congr {other : Bytes} (enough : field.width ≤ bytes.length)
    (same : other.take field.width = bytes.take field.width) :
    field.decode order other = field.decode order bytes := by
  have otherEnough : field.width ≤ other.length := by
    have lengths := congrArg List.length same
    rw [List.length_take, List.length_take] at lengths
    omega
  rw [decode_of_le enough, decode_of_le otherEnough, same]

end Field

theorem appendBytes_of_le {count : Nat} {content : Bytes} (long : count ≤ content.length)
    (out : Bytes) : appendBytes count content out = .ok () (out ++ content.take count) := by
  rw [appendBytes, encodeBytes, if_neg (Nat.not_lt.mpr long)]
  rfl

theorem appendBytes_of_lt {count : Nat} {content : Bytes} (short : content.length < count)
    (out : Bytes) :
    appendBytes count content out = .error (.stringLength count content.length) out := by
  rw [appendBytes, encodeBytes, if_pos short]
  rfl

theorem decodeBytes_of_le {count : Nat} {bytes : Bytes} (enough : count ≤ bytes.length) :
    decodeBytes count bytes = .ok (.bytes (bytes.take count)) := by
  rw [decodeBytes, if_neg (Nat.not_lt.mpr enough)]

theorem decodeBytes_of_lt {count : Nat} {bytes : Bytes} (short : bytes.length < count) :
    decodeBytes count bytes = .error (.truncated count bytes.length) := by
  rw [decodeBytes, if_pos short]

/-- What is appended for a byte string is read as its front, whatever comes behind it. -/
theorem decodeBytes_append {count : Nat} {content : Bytes} (long : count ≤ content.length)
    (rest : Bytes) :
    decodeBytes count (content.take count ++ rest) = .ok (.bytes (content.take count)) := by
  have length : (content.take count).length = count := by
    rw [List.length_take]
    exact Nat.min_eq_left long
  rw [decodeBytes_of_le (by simp [length]), List.take_left' length]

/-- Writing and reading a field are inverse to each other. A value of the field's kind, and of a
byte string at least one byte, is appended as exactly the field's width of bytes, and these are read
as the value whatever comes behind them. Any other value is refused, and nothing is appended. Bytes
are read exactly if there are as many as the field is wide, by no more than these, and what is read
is appended as the same bytes, except that a boolean is zero or one. Byte strings of a given length
are written and read in the same way. -/
theorem Field.append_decode_inverse (field : Field) (order : ByteOrder) :
    (∀ (value : Value) (out : Bytes),
      ((∃ after, field.append order value out = .ok () after) ↔
        value.kind = field.kind ∧ ∀ content, value = .bytes content → 1 ≤ content.length) ∧
      (∀ after, field.append order value out = .ok () after →
        ∃ bytes : Bytes, bytes.length = field.width ∧ after = out ++ bytes ∧
          ∀ rest,
            (∀ content, value = .bytes content →
              field.decode order (bytes ++ rest) = .ok (.bytes (content.take 1))) ∧
            ((∀ content, value ≠ .bytes content) →
              field.decode order (bytes ++ rest) = .ok value)) ∧
      ∀ error after, field.append order value out = .error error after →
        after = out ∧
          ((value.kind ≠ field.kind ∧ error = .typeMismatch field field.kind value.kind) ∨
            (field = .bytes ∧ value = .bytes [] ∧ error = .stringLength 1 0))) ∧
    (∀ bytes : Bytes,
      ((∃ value, field.decode order bytes = .ok value) ↔ field.width ≤ bytes.length) ∧
      (field.width ≤ bytes.length → ∀ other : Bytes,
        other.take field.width = bytes.take field.width →
          field.decode order other = field.decode order bytes) ∧
      (∀ value, field.decode order bytes = .ok value →
        value.kind = field.kind ∧
          ∀ out, field.append order value out =
            .ok () (out ++
              if field = .bool then
                (bytes.take field.width).map fun byte => if byte = 0 then 0 else 1
              else bytes.take field.width)) ∧
      ∀ error, field.decode order bytes = .error error →
        error = .truncated field.width bytes.length) ∧
    ∀ (count : Nat) (content : Bytes),
      (∀ out,
        ((∃ after, appendBytes count content out = .ok () after) ↔ count ≤ content.length) ∧
        (∀ after, appendBytes count content out = .ok () after →
          after = out ++ content.take count ∧
            ∀ rest, decodeBytes count (content.take count ++ rest) =
              .ok (.bytes (content.take count))) ∧
        ∀ error after, appendBytes count content out = .error error after →
          after = out ∧ error = .stringLength count content.length) ∧
      ((∃ value, decodeBytes count content = .ok value) ↔ count ≤ content.length) ∧
      (∀ value, decodeBytes count content = .ok value → value = .bytes (content.take count)) ∧
      ∀ error, decodeBytes count content = .error error →
        error = .truncated count content.length := by
  refine ⟨?_, ?_, ?_⟩
  · intro value out
    refine ⟨(exists_append_iff_fits out).trans fits_unit_iff, ?_, ?_⟩
    · intro after accepted
      have fits := (exists_append_iff_fits out).mp ⟨after, accepted⟩
      obtain ⟨bytes, length, appended, readBack⟩ := append_of_fits order fits
      cases (appended out).symm.trans accepted
      refine ⟨bytes, length, rfl, fun rest => ⟨?_, ?_⟩⟩
      · rintro content rfl
        obtain rfl : field = .bytes := kind_eq_bytes_iff.mp fits.kind_eq.symm
        exact readBack rest
      · intro scalar
        rw [readBack rest]
        cases value with
        | bytes content => exact absurd rfl (scalar content)
        | _ => rfl
    · intro error after refused
      obtain ⟨same, refuses⟩ := refuses_of_append refused
      refine ⟨same, ?_⟩
      cases refuses with
      | kind mismatch => exact .inl ⟨mismatch, rfl⟩
      | @short content string short =>
          obtain rfl : field = .bytes := string
          obtain rfl : content = [] := List.length_eq_zero_iff.mp (Nat.lt_one_iff.mp short)
          exact .inr ⟨rfl, rfl, rfl⟩
  · intro bytes
    refine ⟨exists_decode_iff order, fun enough _ => decode_congr enough,
      fun _ => append_of_decode, ?_⟩
    intro error refused
    by_cases short : bytes.length < field.width
    · cases (decode_of_lt short).symm.trans refused
      rfl
    · cases (decode_of_le (Nat.le_of_not_lt short)).symm.trans refused
  · intro count content
    by_cases long : count ≤ content.length
    · simp [appendBytes_of_le long, decodeBytes_of_le long, decodeBytes_append long, long]
    · have short := Nat.lt_of_not_le long
      simp [appendBytes_of_lt short, decodeBytes_of_lt short, long]

end BinaryRecord
