import BinaryRecord.Proofs.Packing.Spans
import BinaryRecord.Proofs.Unpacking.Slots
import BinaryRecord.Proofs.Value.Equality

/-!
# Values that are packed and unpacked

Unpacking undoes packing bit for bit, except that a byte string comes back with the length of its
slot. As numbers, the values that come back are equal to those that were packed exactly where no
value is none and no byte string was cut.
-/

set_option autoImplicit false

namespace BinaryRecord

namespace Slot

theorem le_length_of_encode {slot : Slot} {order : ByteOrder} {content bytes : Bytes}
    (encoded : slot.encode order (.bytes content) = .ok bytes) : slot.width ≤ content.length := by
  rcases encode_eq_ok_iff.mp encoded with ⟨_, other, same, long, _⟩ | ⟨scalar, kinds, _⟩
  · rw [Value.bytes.inj same]
    exact long
  · exact absurd (Field.kind_eq_bytes_iff.mp kinds.symm) scalar

/-- Whether the value is a number that fills the slot exactly, or no floating-point value at all. -/
def Keeps (slot : Slot) (value : Value) : Prop :=
  value.isNaN = false ∧ ∀ content, value = .bytes content → content.length = slot.width

theorem equal_restore_iff {slot : Slot} {order : ByteOrder} {value : Value} {bytes : Bytes}
    (encoded : slot.encode order value = .ok bytes) :
    (slot.restore value).equal value = true ↔ slot.Keeps value := by
  cases value with
  | bytes content =>
      have long := le_length_of_encode encoded
      simp only [Keeps, restore, Value.equal, decide_eq_true_eq, Value.bytes.injEq, Value.isNaN,
        Value.float64?, true_and]
      constructor
      · rintro uncut _ rfl
        have cutLength := congrArg List.length uncut
        rw [List.length_take] at cutLength
        omega
      · intro whole
        exact List.take_of_length_le (Nat.le_of_eq (whole content rfl))
  | _ => simp [Keeps, restore, Value.equal_self_iff]

theorem isEqv_zipWith_restore_iff {order : ByteOrder} {index : Nat} {slots : List Slot}
    {values : List Value} {bytes : Bytes} (full : values.length = slots.length)
    (encoded : encodeAll order index slots values = .ok bytes) :
    (List.zipWith restore slots values).isEqv values Value.equal = true ↔
      ∀ (position : Nat) (slot : Slot) (value : Value),
        slots[position]? = some slot → values[position]? = some value → slot.Keeps value := by
  induction slots generalizing index values bytes with
  | nil =>
      obtain rfl := List.length_eq_zero_iff.mp full
      simp
  | cons head later laterIH =>
      cases values with
      | nil => simp at full
      | cons first others =>
          obtain ⟨part, tail, headEncoded, tailEncoded, _⟩ := encodeAll_cons_eq_ok_iff.mp encoded
          rw [List.zipWith_cons_cons, List.isEqv_cons_cons, Bool.and_eq_true,
            equal_restore_iff headEncoded, laterIH (by simpa using full) tailEncoded]
          constructor
          · rintro ⟨headKept, tailKept⟩ position slot value slotFound valueFound
            cases position with
            | zero =>
                cases slotFound
                cases valueFound
                exact headKept
            | succ position => exact tailKept position slot value slotFound valueFound
          · intro kept
            exact ⟨kept 0 head first rfl rfl, fun position => kept (position + 1)⟩

end Slot

/-- Values as they are read back: byte strings are cut to their slots. -/
def Layout.restore (layout : Layout) (values : List Value) : List Value :=
  List.zipWith Slot.restore layout.slots values

theorem Layout.length_restore {layout : Layout} {values : List Value}
    (full : values.length = layout.slots.length) :
    (layout.restore values).length = values.length := by
  simp [restore, full]

theorem Layout.getElem?_restore {layout : Layout} {values : List Value} {index : Nat}
    {value : Value} (full : values.length = layout.slots.length)
    (found : values[index]? = some value) :
    ∃ slot, layout.slots[index]? = some slot ∧
      (layout.restore values)[index]? = some (slot.restore value) := by
  obtain ⟨inside, _⟩ := List.getElem?_eq_some_iff.mp found
  have slotFound := List.getElem?_eq_getElem (full ▸ inside)
  exact ⟨_, slotFound, by simp [restore, List.getElem?_zipWith, slotFound, found]⟩

theorem Layout.unpack_of_pack {layout : Layout} {values : List Value} {packed : Bytes}
    (exact : layout.Exact) (accepted : layout.pack values = .ok packed) :
    values.length = layout.slots.length ∧
      layout.unpack packed = .ok (layout.restore values) := by
  have sound : ∀ slot ∈ layout.slots, slot.Sound := fun _ member => sound_of_mem_slots member
  have unpacked := unpack_of_length exact (length_of_pack exact accepted)
  obtain ⟨full, encoded⟩ := encodeAll_of_pack exact accepted
  rw [Slot.readAll_encodeAll sound full encoded] at unpacked
  exact ⟨full, unpacked⟩

/-- Every accepted list of values is read back from its bytes: bit for bit, byte strings cut to
their groups. -/
theorem Layout.unpack_pack {source : String} {layout : Layout} {values : List Value}
    {packed : Bytes} (compiled : compile source = .ok layout)
    (accepted : layout.pack values = .ok packed) :
    ∃ restored, layout.unpack packed = .ok restored ∧ restored.length = values.length ∧
      (∀ (index : Nat) (value : Value), values[index]? = some value →
        ∃ slot, layout.slots[index]? = some slot ∧ restored[index]? = some (slot.restore value)) ∧
      (restored.isEqv values Value.equal = true ↔
        ∀ (index : Nat) (slot : Slot) (value : Value),
          layout.slots[index]? = some slot → values[index]? = some value →
            value.isNaN = false ∧ ∀ content, value = .bytes content → content.length = slot.width) := by
  have exact := exact_of_compile compiled
  obtain ⟨full, encoded⟩ := encodeAll_of_pack exact accepted
  exact ⟨_, (unpack_of_pack exact accepted).2, length_restore full, fun _ _ => getElem?_restore full,
    Slot.isEqv_zipWith_restore_iff full encoded⟩

/-- A byte string that is cut, beside a number that is none. -/
theorem Layout.unpack_pack_specimen :
    compile ">2se?" = .ok specimen ∧
      specimen.pack [.bytes [97, 98, 99], .float16 0x7E01, .bool true] =
        .ok [97, 98, 0x7E, 1, 1] ∧
      ∃ restored, specimen.unpack [97, 98, 0x7E, 1, 1] = .ok restored ∧ restored.length = 3 ∧
        restored[0]? = some (.bytes [97, 98]) ∧ restored[1]? = some (.float16 0x7E01) ∧
        restored.isEqv [.bytes [97, 98, 99], .float16 0x7E01, .bool true] Value.equal ≠ true := by
  have accepted : specimen.pack [.bytes [97, 98, 99], .float16 0x7E01, .bool true] =
      .ok [97, 98, 0x7E, 1, 1] := rfl
  obtain ⟨restored, unpacked, length, held, equal⟩ := unpack_pack compile_specimen accepted
  obtain ⟨stringSlot, stringFound, first⟩ := held 0 _ rfl
  obtain ⟨halfSlot, halfFound, second⟩ := held 1 _ rfl
  cases stringFound
  cases halfFound
  refine ⟨compile_specimen, accepted, restored, unpacked, length, first, second, ?_⟩
  intro same
  have whole := (equal.mp same 0 _ _ rfl rfl).2 [97, 98, 99] rfl
  revert whole
  decide

end BinaryRecord
