import BinaryRecord.Proofs.Slot.Sequence

/-!
# Slots without their names

The field types `long` and `unsignedLong` are other names for `int` and `unsignedInt`. A slot whose
field is renamed reads the same values and writes the same bytes. What is left of the name is the
tag and the name in the error for a value of another kind.
-/

set_option autoImplicit false

namespace BinaryRecord

/-- The field by which a field that is another name goes. -/
def Field.merged : Field → Field
  | .long => .int
  | .unsignedLong => .unsignedInt
  | field => field

/-- The error of a merged field. -/
def FieldError.merged : FieldError → FieldError
  | .typeMismatch field expected found => .typeMismatch field.merged expected found
  | cause => cause

/-- The error without the tag and the name of the field. -/
def PackError.unnamed : PackError → PackError
  | .typeMismatch index _ _ expected found => .typeMismatch index ' ' "" expected found
  | error => error

theorem PackError.unnamed_ofField_merged (index : Nat) (cause : FieldError) :
    (ofField index cause.merged).unnamed = (ofField index cause).unnamed := by
  cases cause <;> rfl

theorem encodeBytes_merged (count : Nat) (content : Bytes) :
    (encodeBytes count content).mapError FieldError.merged = encodeBytes count content := by
  unfold encodeBytes
  split <;> rfl

theorem Packer.encodeString_merged (count : Nat) (value : Value) :
    (encodeString count value).mapError FieldError.merged = encodeString count value := by
  unfold encodeString
  cases value.bytes? with
  | some content => exact encodeBytes_merged count content
  | none => rfl

namespace Field

variable (field : Field) (order : ByteOrder)

@[simp] theorem width_merged : field.merged.width = field.width := by
  cases field <;> rfl

@[simp] theorem kind_merged : field.merged.kind = field.kind := by
  cases field <;> rfl

@[simp] theorem isBytes_merged : field.merged.isBytes = field.isBytes := by
  cases field <;> rfl

theorem valueOf_merged (code : Nat) : field.merged.valueOf code = field.valueOf code := by
  cases field <;> rfl

theorem decode_merged (bytes : Bytes) :
    field.merged.decode order bytes = field.decode order bytes := by
  simp only [decode, width_merged, valueOf_merged]

theorem encode_merged (value : Value) :
    field.merged.encode order value = (field.encode order value).mapError .merged := by
  simp only [encode, kind_merged, width_merged]
  by_cases kinds : value.kind = field.kind
  · simp only [kinds, if_true]
    cases value with
    | bytes content => exact (encodeBytes_merged field.width content).symm
    | _ => rfl
  · simp only [kinds, if_false]
    rfl

end Field

private theorem mapError_map {α β ε δ : Type} (f : α → β) (g : ε → δ) (result : Except ε α) :
    (result.map f).mapError g = (result.mapError g).map f := by
  cases result <;> rfl

namespace Slot

def merged (slot : Slot) : Slot :=
  { slot with field := slot.field.merged }

variable (slot : Slot) (slots : List Slot) (order : ByteOrder)

@[simp] theorem width_merged : slot.merged.width = slot.width := rfl

theorem decode_merged (bytes : Bytes) :
    slot.merged.decode order bytes = slot.decode order bytes := by
  simp only [decode, merged, Field.isBytes_merged, Field.decode_merged]

theorem encode_merged (value : Value) :
    slot.merged.encode order value = (slot.encode order value).mapError .merged := by
  simp only [encode, merged, Field.isBytes_merged, Field.encode_merged]
  split
  · exact (Packer.encodeString_merged slot.width value).symm
  · rfl

theorem widthSum_merged : widthSum (slots.map merged) = widthSum slots := by
  induction slots with
  | nil => rfl
  | cons slot later laterIH => simp [laterIH]

/-- A slot that is renamed has a part in no more of an error than the tag and the name. -/
theorem encodeAll_merged (index : Nat) (values : List Value) :
    (encodeAll order index (slots.map merged) values).mapError PackError.unnamed =
      (encodeAll order index slots values).mapError PackError.unnamed := by
  induction slots generalizing index values with
  | nil => rfl
  | cons slot later laterIH =>
      cases values with
      | nil => rfl
      | cons value others =>
          have tail := laterIH (index + 1) others
          simp only [List.map_cons, encodeAll, encode_merged]
          cases slot.encode order value with
          | error cause =>
              exact congrArg Except.error (PackError.unnamed_ofField_merged index cause)
          | ok bytes =>
              have front := congrArg (Except.map (bytes ++ ·)) tail
              exact (mapError_map _ _ _).trans (front.trans (mapError_map _ _ _).symm)

theorem decodeAll_merged (index : Nat) (bytes : Bytes) :
    decodeAll order index (slots.map merged) bytes = decodeAll order index slots bytes := by
  induction slots generalizing index bytes with
  | nil => rfl
  | cons slot later laterIH =>
      simp only [List.map_cons, decodeAll, decode_merged, laterIH]
      rfl

end Slot

end BinaryRecord
