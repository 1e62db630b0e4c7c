import BinaryRecord.Proofs.Packing.Slots
import BinaryRecord.Proofs.Slot.Fit

/-!
# The span of each value

A packed record is the encodings of its values in a row, each in the span of its slot. So a value
can be exchanged for another without a change outside its span. Main statements:
`Layout.span_of_pack` and `Layout.exchange_of_pack`.
-/

set_option autoImplicit false

-- Sums of natural numbers are the core library's, whatever else is in scope.
attribute [local instance (high)] Zero.ofOfNat0

namespace BinaryRecord

/-- The errors that values of a record are to blame for. -/
inductive PackError.OfValues : PackError → Prop where
  | arity {expected actual} : OfValues (.arity expected actual)
  | typeMismatch {index tag name expected found} :
      OfValues (.typeMismatch index tag name expected found)
  | stringLength {index expected actual} : OfValues (.stringLength index expected actual)

namespace Slot

/-- The bytes before a value and those after it stay where they are when another takes its place. -/
theorem encodeAll_split {order : ByteOrder} {start index : Nat} {slots : List Slot}
    {values : List Value} {bytes : Bytes} {slot : Slot} {value : Value}
    (sound : ∀ slot ∈ slots, slot.Sound) (encoded : encodeAll order start slots values = .ok bytes)
    (slotFound : slots[index]? = some slot) (valueFound : values[index]? = some value) :
    ∃ before part after, slot.encode order value = .ok part ∧ bytes = before ++ (part ++ after) ∧
      before.length = widthSum (slots.take index) ∧
      ∀ other exchanged, slot.encode order other = .ok exchanged →
        encodeAll order start slots (values.set index other) =
          .ok (before ++ (exchanged ++ after)) := by
  -- The exchange is part of the induction, so that the bytes around the value are the same in both.
  induction slots generalizing start index values bytes with
  | nil => simp at slotFound
  | cons head later laterIH =>
      cases values with
      | nil => simp at valueFound
      | cons first others =>
          obtain ⟨part, tail, headEncoded, tailEncoded, rfl⟩ := encodeAll_cons_eq_ok_iff.mp encoded
          cases index with
          | zero =>
              cases slotFound
              cases valueFound
              refine ⟨[], part, tail, headEncoded, rfl, rfl, ?_⟩
              intro other exchanged fits
              exact encodeAll_cons_eq_ok_iff.mpr ⟨exchanged, tail, fits, tailEncoded, rfl⟩
          | succ index =>
              have tailSound : ∀ slot ∈ later, slot.Sound :=
                fun slot member => sound slot (.tail head member)
              obtain ⟨before, middle, after, encodedMiddle, rfl, length, exchange⟩ :=
                laterIH tailSound tailEncoded slotFound valueFound
              refine ⟨part ++ before, middle, after, encodedMiddle, by simp, ?_, ?_⟩
              · rw [List.length_append, length, List.take_succ_cons, widthSum_cons,
                  length_of_encode (sound head List.mem_cons_self) headEncoded]
              · intro other exchanged fits
                rw [List.append_assoc]
                exact encodeAll_cons_eq_ok_iff.mpr
                  ⟨part, _, headEncoded, exchange other exchanged fits, rfl⟩

theorem eq_take_of_encode {slot : Slot} {order : ByteOrder} {content bytes : Bytes}
    (encoded : slot.encode order (.bytes content) = .ok bytes) :
    bytes = content.take slot.width := by
  rcases encode_eq_ok_iff.mp encoded with ⟨_, _, same, _, written⟩ | ⟨scalar, kinds, _⟩
  · cases same
    exact written
  · exact absurd (Field.kind_eq_bytes_iff.mp kinds.symm) scalar

private theorem getElem?_exchange {before part exchanged after : Bytes} {position : Nat}
    (same : exchanged.length = part.length)
    (outside : position < before.length ∨ before.length + part.length ≤ position) :
    (before ++ (exchanged ++ after))[position]? = (before ++ (part ++ after))[position]? := by
  rcases outside with front | back
  · rw [List.getElem?_append_left front, List.getElem?_append_left front]
  · rw [List.getElem?_append_right (by omega), List.getElem?_append_right (by omega),
      List.getElem?_append_right (by omega), List.getElem?_append_right (by omega), same]

end Slot

namespace Layout

variable {layout : Layout} {values : List Value}

theorem length_of_pack (exact : layout.Exact) {packed : Bytes}
    (accepted : layout.pack values = .ok packed) : packed.length = layout.size := by
  have sound : ∀ slot ∈ layout.slots, slot.Sound := fun _ member => sound_of_mem_slots member
  obtain ⟨full, encoded⟩ := encodeAll_of_pack exact accepted
  exact (Slot.length_of_encodeAll sound full encoded).trans exact.size.symm

theorem exists_pack_iff_allFit (exact : layout.Exact) :
    (∃ packed, layout.pack values = .ok packed) ↔
      values.length = layout.valueCount ∧ Slot.AllFit layout.slots values := by
  rw [pack_eq exact, exact.valueCount, ← Slot.exists_encodeAll_iff_allFit layout.order 0]
  by_cases full : values.length = layout.slots.length <;> simp [full]

theorem pack_eq_error_iff (exact : layout.Exact) {error : PackError} :
    layout.pack values = .error error ↔
      (values.length ≠ layout.valueCount ∧
        error = .arity layout.valueCount values.length) ∨
      (values.length = layout.valueCount ∧ ∃ index cause,
        Slot.FirstMisfit layout.slots values index cause ∧ error = .ofField index cause) := by
  rw [pack_eq exact, ← exact.valueCount]
  by_cases full : values.length = layout.valueCount
  · simp [full, Slot.encodeAll_eq_error_iff]
  · simp [full, eq_comm]

/-- Packing fails for its values only, and for nothing that reading or delivering could do. -/
theorem ofValues_of_pack_error (exact : layout.Exact) {error : PackError}
    (rejected : layout.pack values = .error error) : error.OfValues := by
  rcases (pack_eq_error_iff exact).mp rejected with ⟨_, rfl⟩ | ⟨_, index, cause, first, rfl⟩
  · exact .arity
  · obtain ⟨slot, value, _, _, refuses⟩ := first.refused
    cases refuses with
    | kind _ => exact .typeMismatch
    | short _ _ => exact .stringLength

/-- The spans of a packed record, around one of them. -/
theorem pack_split (exact : layout.Exact) {packed : Bytes} {index : Nat} {slot : Slot}
    {value : Value} (accepted : layout.pack values = .ok packed)
    (slotFound : layout.slots[index]? = some slot) (valueFound : values[index]? = some value) :
    ∃ before part after, slot.encode layout.order value = .ok part ∧
      part.length = slot.width ∧ packed = before ++ (part ++ after) ∧
      before.length = layout.offset index ∧
      ∀ other exchanged, slot.encode layout.order other = .ok exchanged →
        exchanged.length = slot.width ∧
        layout.pack (values.set index other) = .ok (before ++ (exchanged ++ after)) := by
  have sound : ∀ slot ∈ layout.slots, slot.Sound := fun _ member => sound_of_mem_slots member
  have slotSound := sound slot (List.mem_of_getElem? slotFound)
  obtain ⟨full, written⟩ := encodeAll_of_pack exact accepted
  obtain ⟨before, part, after, encoded, rfl, length, exchange⟩ :=
    Slot.encodeAll_split sound written slotFound valueFound
  refine ⟨before, part, after, encoded, Slot.length_of_encode slotSound encoded, rfl, length, ?_⟩
  intro other exchanged fits
  refine ⟨Slot.length_of_encode slotSound fits, ?_⟩
  rw [pack_eq exact, List.length_set, if_pos full]
  exact exchange other exchanged fits

theorem span_of_pack (exact : layout.Exact) {packed : Bytes} {index : Nat} {slot : Slot}
    {value : Value} (accepted : layout.pack values = .ok packed)
    (slotFound : layout.slots[index]? = some slot) (valueFound : values[index]? = some value) :
    slot.encode layout.order value =
      .ok ((packed.drop (layout.offset index)).take slot.width) := by
  obtain ⟨before, part, after, encoded, partLength, rfl, length, _⟩ :=
    pack_split exact accepted slotFound valueFound
  rw [List.drop_left' length, List.take_left' partLength]
  exact encoded

theorem exchange_of_pack (exact : layout.Exact) {packed : Bytes} {index : Nat} {slot : Slot}
    {value other : Value} (accepted : layout.pack values = .ok packed)
    (slotFound : layout.slots[index]? = some slot) (valueFound : values[index]? = some value)
    (fits : slot.Fits other) :
    ∃ exchanged, layout.pack (values.set index other) = .ok exchanged ∧
      ∀ position, position < layout.offset index ∨ layout.offset index + slot.width ≤ position →
        exchanged[position]? = packed[position]? := by
  obtain ⟨before, part, after, _, partLength, rfl, length, exchange⟩ :=
    pack_split exact accepted slotFound valueFound
  obtain ⟨exchanged, encoded⟩ := (Slot.exists_encode_iff_fits layout.order).mpr fits
  obtain ⟨exchangedLength, repacked⟩ := exchange other exchanged encoded
  refine ⟨_, repacked, ?_⟩
  intro position outside
  rw [← length, ← partLength] at outside
  exact Slot.getElem?_exchange (exchangedLength.trans partLength.symm) outside

end Layout

end BinaryRecord
