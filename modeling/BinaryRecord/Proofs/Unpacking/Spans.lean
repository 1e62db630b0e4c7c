import BinaryRecord.Proofs.Decoder.Counters
import BinaryRecord.Proofs.Unpacking.Slots

/-!
# The span of each unpacked value

Unpacking looks at the length of a buffer first. Then every value comes from the span of its own
slot and from nothing else, so no error is left to find. Behind an offset the same holds of the
bytes that are left. Main statement: `Layout.unpack_spans`.
-/

set_option autoImplicit false

namespace BinaryRecord

namespace Layout

variable {layout : Layout} {buffer : Bytes} {offset : Nat}

theorem exists_unpack_iff (exact : layout.Exact) :
    (∃ values, layout.unpack buffer = .ok values) ↔ buffer.length = layout.size := by
  constructor
  · intro unpacks
    obtain ⟨values, unpacked⟩ := unpacks
    exact length_of_unpack unpacked
  · intro full
    exact ⟨_, unpack_of_length exact full⟩

theorem unpack_eq_error_iff (exact : layout.Exact) {error : UnpackError} :
    layout.unpack buffer = .error error ↔
      buffer.length ≠ layout.size ∧ error = .sizeMismatch layout.size buffer.length := by
  by_cases full : buffer.length = layout.size
  · simp [full, unpack_of_length exact full]
  · simp [full, unpack_of_length_ne full, eq_comm]

theorem length_values_of_unpack (exact : layout.Exact) {values : List Value}
    (unpacked : layout.unpack buffer = .ok values) : values.length = layout.valueCount := by
  have read := unpack_of_length exact (length_of_unpack unpacked)
  obtain rfl : Slot.readAll layout.order layout.slots buffer = values :=
    Except.ok.inj (read.symm.trans unpacked)
  exact (Slot.length_readAll _ _ _).trans exact.valueCount.symm

/-- A value is what its own span says, whatever stands around it. -/
theorem exists_value_of_span (exact : layout.Exact) (full : buffer.length = layout.size)
    {index : Nat} {slot : Slot} (found : layout.slots[index]? = some slot) :
    ∃ values, layout.unpack buffer = .ok values ∧
      values[index]? = some
        (slot.read layout.order ((buffer.drop (layout.offset index)).take slot.width)) := by
  refine ⟨_, unpack_of_length exact full, ?_⟩
  rw [Slot.read_take]
  exact Slot.getElem?_readAll layout.order buffer found

theorem unpackFrom_of_lt (inside : offset < buffer.length) :
    layout.unpackFrom offset buffer = layout.unpack (buffer.drop offset) :=
  if_pos inside

theorem unpackFrom_of_length_le (past : buffer.length ≤ offset) :
    layout.unpackFrom offset buffer = .error (.offsetRange offset buffer.length) :=
  if_neg (Nat.not_lt.mpr past)

/-- A record has bytes, so one that starts at or behind the end of the buffer cannot end with it. -/
theorem exists_unpackFrom_iff (exact : layout.Exact) (positive : 0 < layout.size) :
    (∃ values, layout.unpackFrom offset buffer = .ok values) ↔
      offset + layout.size = buffer.length := by
  rcases Nat.lt_or_ge offset buffer.length with inside | past
  · rw [unpackFrom_of_lt inside, exists_unpack_iff exact, List.length_drop]
    omega
  · have misfit : offset + layout.size ≠ buffer.length := by omega
    simp [unpackFrom_of_length_le past, misfit]

theorem unpackFrom_eq_error_iff (exact : layout.Exact) {error : UnpackError} :
    layout.unpackFrom offset buffer = .error error ↔
      (buffer.length ≤ offset ∧ error = .offsetRange offset buffer.length) ∨
      (offset < buffer.length ∧ offset + layout.size ≠ buffer.length ∧
        error = .sizeMismatch layout.size (buffer.length - offset)) := by
  rcases Nat.lt_or_ge offset buffer.length with inside | past
  · have lengths : buffer.length - offset ≠ layout.size ↔
        offset + layout.size ≠ buffer.length := by omega
    rw [unpackFrom_of_lt inside, unpack_eq_error_iff exact, List.length_drop, lengths]
    simp [inside, Nat.not_le.mpr inside]
  · simp [unpackFrom_of_length_le past, past, Nat.not_lt.mpr past, eq_comm]

/-- Buffers of the size of the record are unpacked and no others are, and each value depends on its
own span alone. Behind an offset this is so of the suffix that starts there. No place that is read
lies outside the buffer. -/
theorem unpack_spans {source : String} (compiled : compile source = .ok layout)
    (buffer : Bytes) :
    ((∃ values, layout.unpack buffer = .ok values) ↔ buffer.length = layout.size) ∧
    (∀ values, layout.unpack buffer = .ok values → values.length = layout.valueCount) ∧
    (∀ error, layout.unpack buffer = .error error ↔
      buffer.length ≠ layout.size ∧ error = .sizeMismatch layout.size buffer.length) ∧
    (∀ steps, ((layout.decoder buffer).after steps).offset ≤ buffer.length) ∧
    (∀ (other : Bytes) (index : Nat) (slot : Slot),
      buffer.length = layout.size → other.length = layout.size →
      layout.slots[index]? = some slot →
        layout.offset index + slot.width ≤ layout.size ∧
        ((buffer.drop (layout.offset index)).take slot.width =
            (other.drop (layout.offset index)).take slot.width →
          ∃ values others value,
            layout.unpack buffer = .ok values ∧ layout.unpack other = .ok others ∧
              values[index]? = some value ∧ others[index]? = some value)) ∧
    ∀ offset,
      ((∃ values, layout.unpackFrom offset buffer = .ok values) ↔
        offset + layout.size = buffer.length) ∧
      (∀ error, layout.unpackFrom offset buffer = .error error ↔
        (buffer.length ≤ offset ∧ error = .offsetRange offset buffer.length) ∨
        (offset < buffer.length ∧ offset + layout.size ≠ buffer.length ∧
          error = .sizeMismatch layout.size (buffer.length - offset))) ∧
      (offset < buffer.length →
        ∃ front back, front ++ back = buffer ∧ front.length = offset ∧
          layout.unpackFrom offset buffer = layout.unpack back) := by
  have exact := exact_of_compile compiled
  have positive := size_pos_of_compile compiled
  refine ⟨exists_unpack_iff exact, fun _ => length_values_of_unpack exact,
    fun _ => unpack_eq_error_iff exact, fun steps => (layout.along_after buffer steps).offset_le, ?_, ?_⟩
  · intro other index slot full otherFull found
    refine ⟨end_le_size exact found, ?_⟩
    intro same
    obtain ⟨values, unpacked, value⟩ := exists_value_of_span exact full found
    obtain ⟨others, otherUnpacked, otherValue⟩ := exists_value_of_span exact otherFull found
    rw [← same] at otherValue
    exact ⟨values, others, _, unpacked, otherUnpacked, value, otherValue⟩
  · intro offset
    refine ⟨exists_unpackFrom_iff exact positive, fun _ => unpackFrom_eq_error_iff exact, ?_⟩
    intro inside
    exact ⟨buffer.take offset, buffer.drop offset, List.take_append_drop offset buffer,
      List.length_take_of_le (Nat.le_of_lt inside), unpackFrom_of_lt inside⟩

/-- Two records that share the number in the middle only, and offsets into a buffer that is one byte
longer than a record. -/
theorem unpack_spans_specimen :
    compile ">2se?" = .ok specimen ∧
      (∃ values others value,
        specimen.unpack [97, 98, 0x3C, 0, 1] = .ok values ∧
          specimen.unpack [0, 0, 0x3C, 0, 0] = .ok others ∧
          values[1]? = some value ∧ others[1]? = some value) ∧
      (∃ values, specimen.unpackFrom 1 [0, 97, 98, 0x3C, 0, 1] = .ok values) ∧
      specimen.unpackFrom 2 [0, 97, 98, 0x3C, 0, 1] = .error (.sizeMismatch 5 4) ∧
      specimen.unpackFrom 6 [0, 97, 98, 0x3C, 0, 1] = .error (.offsetRange 6 6) := by
  obtain ⟨_, _, _, _, spans, _⟩ := unpack_spans compile_specimen [97, 98, 0x3C, 0, 1]
  obtain ⟨_, _, _, _, _, behind⟩ := unpack_spans compile_specimen [0, 97, 98, 0x3C, 0, 1]
  obtain ⟨_, shared⟩ := spans [0, 0, 0x3C, 0, 0] 1 ⟨.half, 2⟩ rfl rfl rfl
  refine ⟨compile_specimen, shared rfl, (behind 1).1.mpr rfl, ?_, ?_⟩
  · exact ((behind 2).2.1 _).mpr (.inr ⟨by decide, by decide, rfl⟩)
  · exact ((behind 6).2.1 _).mpr (.inl ⟨by decide, rfl⟩)

end Layout

end BinaryRecord
