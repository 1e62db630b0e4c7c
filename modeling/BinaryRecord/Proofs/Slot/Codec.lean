import BinaryRecord.Layout.Slots
import BinaryRecord.Packing
import BinaryRecord.Proofs.Field.Scalar

/-!
# Slots as bytes

The encoding of one value in its slot and the decoding of a slot's bytes, whatever group the slot
comes from. What comes back from a round trip is stated in both directions: a value is restored up
to the cut of a byte string, and bytes are restored up to the truth value of a boolean.
-/

set_option autoImplicit false

attribute [local instance (high)] instPowNat

namespace BinaryRecord

namespace Slot

/-- A slot is not empty, and a scalar slot has the width of its field. -/
structure Sound (slot : Slot) : Prop where
  width_pos : 0 < slot.width
  scalar_width : slot.field ≠ .bytes → slot.width = slot.field.width

def encode (slot : Slot) (order : ByteOrder) (value : Value) : Except FieldError Bytes :=
  if slot.field.isBytes then Packer.encodeString slot.width value
  else slot.field.encode order value

def decode (slot : Slot) (order : ByteOrder) (bytes : Bytes) : Except FieldError Value :=
  if slot.field.isBytes then decodeBytes slot.width bytes
  else slot.field.decode order bytes

def read (slot : Slot) (order : ByteOrder) (bytes : Bytes) : Value :=
  if slot.field.isBytes then .bytes (bytes.take slot.width)
  else slot.field.valueOf (order.read (bytes.take slot.width))

/-- The value that comes back from its slot: a byte string is cut to the width. -/
def restore (slot : Slot) : Value → Value
  | .bytes content => .bytes (content.take slot.width)
  | value => value

/-- The bytes that come back from a slot: a boolean is written as zero or one. -/
def canonical (slot : Slot) (bytes : Bytes) : Bytes :=
  if slot.field = .bool then bytes.map fun byte => if byte = 0 then 0 else 1
  else bytes

theorem decode_of_le {slot : Slot} (order : ByteOrder) {bytes : Bytes} (sound : slot.Sound)
    (enough : slot.width ≤ bytes.length) :
    slot.decode order bytes = .ok (slot.read order bytes) := by
  unfold decode read
  by_cases string : slot.field = .bytes
  · have long : ¬ bytes.length < slot.width := by omega
    simp [Field.isBytes, string, decodeBytes, long]
  · have width := sound.scalar_width string
    rw [width] at enough ⊢
    simp [Field.isBytes, string, Field.decode_of_le enough]

theorem decode_of_lt {slot : Slot} (order : ByteOrder) {bytes : Bytes} (sound : slot.Sound)
    (short : bytes.length < slot.width) :
    slot.decode order bytes = .error (.truncated slot.width bytes.length) := by
  unfold decode
  by_cases string : slot.field = .bytes
  · simp [Field.isBytes, string, decodeBytes, short]
  · have width := sound.scalar_width string
    rw [width] at short ⊢
    simp [Field.isBytes, string, Field.decode_of_lt short]

theorem width_le_of_decode {slot : Slot} {order : ByteOrder} {bytes : Bytes} {value : Value}
    (sound : slot.Sound) (decoded : slot.decode order bytes = .ok value) :
    slot.width ≤ bytes.length := by
  apply Nat.le_of_not_lt
  intro short
  cases (decode_of_lt order sound short).symm.trans decoded

theorem read_append {slot : Slot} {order : ByteOrder} {bytes rest : Bytes}
    (full : bytes.length = slot.width) :
    slot.read order (bytes ++ rest) = slot.read order bytes := by
  simp [read, List.take_append_of_le_length (Nat.le_of_eq full.symm)]

theorem encode_eq_ok_iff {slot : Slot} {order : ByteOrder} {value : Value} {bytes : Bytes} :
    slot.encode order value = .ok bytes ↔
      (slot.field = .bytes ∧ ∃ content, value = .bytes content ∧ slot.width ≤ content.length ∧
        bytes = content.take slot.width) ∨
      (slot.field ≠ .bytes ∧ value.kind = slot.field.kind ∧
        bytes = order.write slot.field.width value.code) := by
  unfold encode
  by_cases string : slot.field = .bytes
  · cases value with
    | bytes content =>
        by_cases short : content.length < slot.width
        · have notLong : ¬ slot.width ≤ content.length := by omega
          simp [Field.isBytes, string, Packer.encodeString, Value.bytes?, encodeBytes, short,
            notLong]
        · have long : slot.width ≤ content.length := by omega
          simp [Field.isBytes, string, Packer.encodeString, Value.bytes?, encodeBytes, short, long,
            eq_comm]
    | _ => simp [Field.isBytes, string, Packer.encodeString, Value.bytes?]
  · by_cases kinds : value.kind = slot.field.kind
    · simp [Field.isBytes, string, Field.encode_of_kind string kinds, kinds, eq_comm]
    · simp [Field.isBytes, string, Field.encode_of_kind_ne kinds, kinds]

theorem length_of_encode {slot : Slot} {order : ByteOrder} {value : Value} {bytes : Bytes}
    (sound : slot.Sound) (encoded : slot.encode order value = .ok bytes) :
    bytes.length = slot.width := by
  rcases encode_eq_ok_iff.mp encoded with ⟨_, content, _, long, rfl⟩ | ⟨scalar, _, rfl⟩
  · simp [long]
  · rw [ByteOrder.length_write, sound.scalar_width scalar]

theorem read_encode {slot : Slot} {order : ByteOrder} {value : Value} {bytes : Bytes}
    (sound : slot.Sound) (encoded : slot.encode order value = .ok bytes) :
    slot.read order bytes = slot.restore value := by
  rcases encode_eq_ok_iff.mp encoded with ⟨string, content, rfl, _, rfl⟩ | ⟨scalar, kinds, rfl⟩
  · simp [read, Field.isBytes, string, restore, List.take_take]
  · have bounded := Value.code_lt scalar kinds
    have restored : slot.restore value = value := by
      cases value with
      | bytes content => exact absurd (Field.kind_eq_bytes_iff.mp kinds.symm) scalar
      | _ => rfl
    rw [restored, read, sound.scalar_width scalar]
    simp only [Field.isBytes, scalar, decide_false, Bool.false_eq_true, if_false]
    rw [List.take_of_length_le (by simp), ByteOrder.read_write, Nat.mod_eq_of_lt bounded,
      Field.valueOf_code scalar kinds]

@[simp] theorem length_canonical (slot : Slot) (bytes : Bytes) :
    (slot.canonical bytes).length = bytes.length := by
  unfold canonical
  split <;> simp

private theorem write_truth (order : ByteOrder) (byte : UInt8) :
    order.write 1 (decide (order.read [byte] ≠ 0)).toNat = [if byte = 0 then 0 else 1] := by
  have code : order.read [byte] = byte.toNat := by
    cases order <;> simp [ByteOrder.read, ByteOrder.arrange, Bytes.toNat]
  rw [code]
  by_cases zero : byte = 0
  · cases order <;> simp [zero, ByteOrder.write, ByteOrder.arrange, Bytes.ofNat]
  · have codeNonzero : byte.toNat ≠ 0 := fun same => zero (UInt8.toNat_inj.mp same)
    cases order <;>
      simp [zero, codeNonzero, ByteOrder.write, ByteOrder.arrange, Bytes.ofNat]

theorem encode_read {slot : Slot} (order : ByteOrder) {bytes : Bytes} (sound : slot.Sound)
    (full : bytes.length = slot.width) :
    slot.encode order (slot.read order bytes) = .ok (slot.canonical bytes) := by
  have whole : bytes.take slot.width = bytes := List.take_of_length_le (Nat.le_of_eq full)
  apply encode_eq_ok_iff.mpr
  by_cases string : slot.field = .bytes
  · refine .inl ⟨string, bytes, ?_, Nat.le_of_eq full.symm, ?_⟩
    · simp [read, Field.isBytes, string, whole]
    · simp [canonical, string, whole]
  · have width := sound.scalar_width string
    have bounded : order.read bytes < 256 ^ slot.field.width := by
      rw [← width, ← full]
      exact order.read_lt bytes
    have held : slot.read order bytes = slot.field.valueOf (order.read bytes) := by
      simp [read, Field.isBytes, string, whole]
    refine .inr ⟨string, ?_, ?_⟩
    · rw [held, Field.kind_valueOf]
    · rw [held, Field.code_valueOf string bounded]
      by_cases truth : slot.field = .bool
      · have single : bytes.length = 1 := by simpa [width, truth, Field.width] using full
        obtain ⟨byte, rfl⟩ := List.length_eq_one_iff.mp single
        simpa [canonical, truth, Field.width] using (write_truth order byte).symm
      · rw [if_neg truth, canonical, if_neg truth, ← width, ← full, ByteOrder.write_read]

end Slot

namespace Group

def slot (group : Group) : Slot :=
  ⟨group.field, if group.field.isBytes then group.count else group.field.width⟩

theorem slots_eq_replicate (group : Group) :
    group.slots = List.replicate group.valueCount group.slot := by
  unfold slots valueCount slot
  by_cases string : group.field.isBytes <;> simp [string]

theorem valueCount_mul_width (group : Group) :
    group.valueCount * group.slot.width = group.length := by
  simpa [slots_eq_replicate] using group.sum_slots

theorem sound_slot (group : Group) : group.slot.Sound := by
  unfold slot
  by_cases string : group.field = .bytes
  · simp only [Field.isBytes, string, decide_true, if_true]
    exact ⟨group.count_pos, fun scalar => absurd rfl scalar⟩
  · simp only [Field.isBytes, string, decide_false, Bool.false_eq_true, if_false]
    exact ⟨group.field.width_pos, fun _ => rfl⟩

theorem sound_of_mem_slots {group : Group} {slot : Slot} (member : slot ∈ group.slots) :
    slot.Sound := by
  rw [slots_eq_replicate] at member
  obtain ⟨_, rfl⟩ := List.mem_replicate.mp member
  exact group.sound_slot

end Group

theorem Layout.sound_of_mem_slots {layout : Layout} {slot : Slot} (member : slot ∈ layout.slots) :
    slot.Sound := by
  obtain ⟨_, _, memberOfGroup⟩ := List.mem_flatMap.mp member
  exact Group.sound_of_mem_slots memberOfGroup

end BinaryRecord
